import CBackend.Proofs.TypeStore.Growth

/-!
# How signatures are put together

A signature starts from basic codes, and grows end to end or under a pointer.
A property that is kept on the way holds of every signature of a store as soon
as it holds of the basic types and of the signatures stored with the structs.

Stored signatures are snapshots: each was put together from the signatures
that other types had at some moment of the run.  Operations keep the property
all the same, because a struct starts with nothing and its snapshot only gets
longer by what is a signature at that moment.
-/

namespace CBackend

/-- A property that signatures keep when they are put together. -/
structure Signature.Compositional (size : PointerSize) (property : Signature → Prop) : Prop where
  nil : property []
  append : ∀ {first second}, property first → property second → property (first ++ second)
  pointer : ∀ {pointee}, property pointee → property (pointer size pointee)

theorem Signature.Compositional.flatMap {size : PointerSize} {property : Signature → Prop}
    (compositional : Compositional size property) {part : Signature} (holds : property part)
    (items : List α) : property (items.flatMap fun _ => part) := by
  induction items with
  | nil => exact compositional.nil
  | cons item items induction => exact compositional.append holds induction

namespace TypeStore

/-- A store for a given target whose basic types and stored signatures have a
property. -/
structure Carries (store : TypeStore) (size : PointerSize) (property : Signature → Prop) :
    Prop where
  pointerSize : store.pointerSize = size
  basic : ∀ number code, store.shapeAt number = .ok (.basic code) → property [code]
  stored : ∀ number name fields signature,
    store.shapeAt number = .ok (.struct name fields signature) → property signature

section Signatures

variable {store : TypeStore} {size : PointerSize} {property : Signature → Prop}
  {number : TypeNumber}

/-- A descent that succeeds goes to a smaller number. -/
theorem descend_success {visit : TypeNumber → Except StoreError α} {mentioned : TypeNumber}
    {value : α} (found : descend number (fun below _ => visit below) mentioned = .ok value) :
    mentioned < number ∧ visit mentioned = .ok value := by
  rw [descend] at found
  split at found
  · exact ⟨‹_›, found⟩
  · cases found

/-- What is carried holds of the signatures of all types. -/
theorem Carries.signature (carries : store.Carries size property)
    (compositional : Signature.Compositional size property) {laidOut : Signature}
    (success : store.signature number = .ok laidOut) : property laidOut := by
  induction number using Nat.strongRecOn generalizing laidOut with
  | ind number induction =>
      rw [TypeStore.signature, carries.pointerSize] at success
      obtain ⟨shape, isShape, success⟩ := Success.bind_iff.mp success
      have visited : ∀ {mentioned below}, descend number (fun below _ => store.signature below)
          mentioned = .ok below → property below := by
        intro mentioned below found
        obtain ⟨isBelow, found⟩ := descend_success found
        exact induction mentioned isBelow found
      cases shape with
      | basic code =>
          cases success
          exact carries.basic number code isShape
      | pointer mode pointee =>
          obtain ⟨below, found, same⟩ := Success.bind_iff.mp success
          cases same
          exact compositional.pointer (visited found)
      | array element capacity =>
          obtain ⟨below, found, same⟩ := Success.bind_iff.mp success
          cases same
          exact compositional.pointer (visited found)
      | struct name fields stored =>
          cases success
          exact carries.stored number name fields _ isShape
      | function type =>
          cases success
          exact compositional.pointer compositional.nil
      | trait name prototypes =>
          cases success
          exact compositional.flatMap (compositional.pointer compositional.nil) prototypes
      | aliasOf name target => exact visited success

theorem empty_carries : (empty size).Carries size property := by
  refine ⟨rfl, ?_, ?_⟩
  · intro number code isBasic
    exact absurd (lt_of_shapeAt isBasic) (Nat.not_lt_zero number)
  · intro number name fields signature isStruct
    exact absurd (lt_of_shapeAt isStruct) (Nat.not_lt_zero number)

theorem Carries.append {shape : Shape} (carries : store.Carries size property)
    (basic : ∀ code, shape = .basic code → property [code])
    (stored : ∀ name fields signature, shape = .struct name fields signature →
      property signature) : (store.append shape).2.Carries size property := by
  refine ⟨carries.pointerSize, ?_, ?_⟩
  · intro other code isBasic
    rcases shapeAt_append.mp isBasic with old | ⟨_, new⟩
    · exact carries.basic other code old
    · exact basic code new.symm
  · intro other name fields signature isStruct
    rcases shapeAt_append.mp isStruct with old | ⟨_, new⟩
    · exact carries.stored other name fields signature old
    · exact stored name fields signature new.symm

theorem Carries.extend {next : TypeStore} {field : Field}
    (carries : store.Carries size property)
    (compositional : Signature.Compositional size property)
    (success : store.extend number field = .ok next) : next.Carries size property := by
  obtain ⟨name, fields, before, added, isStruct, _, _, _, laidOut, rfl⟩ :=
    extend_success_iff.mp success
  refine ⟨carries.pointerSize, ?_, ?_⟩
  · intro other code isBasic
    rcases shapeAt_replace isBasic with ⟨_, same⟩ | old
    · cases same
    · exact carries.basic other code old
  · intro other otherName otherFields stored isOther
    rcases shapeAt_replace isOther with ⟨_, same⟩ | old
    · cases same
      exact compositional.append (carries.stored number name fields before isStruct)
        (carries.signature compositional laidOut)
    · exact carries.stored other otherName otherFields stored old

end Signatures

/-- The code of the basic type that an operation inserts. -/
def Operation.basic? : Operation → Option BasicCode
  | .insert (.basic code) | .intern code => some code
  | _ => none

theorem Operation.basic?_of_addition? {operation : Operation} {code : BasicCode}
    (adds : .basic code ∈ operation.addition?) : code ∈ operation.basic? := by
  cases operation with
  | insert shape =>
      cases shape with
      | basic _ =>
          cases adds
          rfl
      | _ => cases adds
  | intern _ =>
      cases adds
      rfl
  | announce _ => cases adds
  | extend _ _ => cases adds

theorem Operation.signature_of_addition? {operation : Operation} {name : String}
    {fields : List Field} {signature : Signature}
    (adds : .struct name fields signature ∈ operation.addition?) : signature = [] := by
  cases operation with
  | insert shape =>
      cases shape with
      | struct _ _ _ =>
          cases adds
          rfl
      | _ => cases adds
  | intern _ => cases adds
  | announce _ =>
      cases adds
      rfl
  | extend _ _ => cases adds

section Runs

variable {size : PointerSize} {property : Signature → Prop}

theorem Carries.after {store : TypeStore} (carries : store.Carries size property)
    (compositional : Signature.Compositional size property) {operation : Operation}
    (inserted : ∀ code ∈ operation.basic?, property [code]) :
    (store.after operation).Carries size property := by
  refine after_induction (·.Carries size property) ?_ ?_ carries
  · intro shape adds _
    apply carries.append
    · rintro code rfl
      exact inserted code (Operation.basic?_of_addition? adds)
    · rintro name fields signature rfl
      rw [Operation.signature_of_addition? adds]
      exact compositional.nil
  · intro store next number field success before
    exact before.extend compositional success

theorem history_carries (compositional : Signature.Compositional size property)
    (operations : List Operation)
    (inserted : ∀ operation ∈ operations, ∀ code ∈ operation.basic?, property [code]) :
    (history size operations).Carries size property :=
  List.foldlRecOn (motive := fun store => store.Carries size property) operations
    TypeStore.after empty_carries
    fun _ carries operation member => carries.after compositional (inserted operation member)

end Runs

end TypeStore

end CBackend
