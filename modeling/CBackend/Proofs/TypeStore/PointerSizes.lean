import CBackend.Proofs.TypeStore.Bare
import CBackend.Proofs.TypeStore.History

/-!
# Stores for two targets

The same operations on stores for pointers of four and of eight bytes have
the same answers and lead to stores that differ in stored signatures only.
There each code is the same, or both are the pointer codes of their targets.
-/

namespace CBackend

/-- The same failure, or related values. -/
inductive Alike {ε α β : Type} (relation : α → β → Prop) : Except ε α → Except ε β → Prop
  | ok {left right} (related : relation left right) : Alike relation (.ok left) (.ok right)
  | error (cause : ε) : Alike relation (.error cause) (.error cause)

namespace Alike

variable {ε α β γ δ : Type} {relation : α → β → Prop} {result : γ → δ → Prop}
  {left : Except ε α} {right : Except ε β}

theorem bind {first : α → Except ε γ} {second : β → Except ε δ} (alike : Alike relation left right)
    (next : ∀ a b, relation a b → Alike result (first a) (second b)) :
    Alike result (left >>= first) (right >>= second) := by
  cases alike with
  | ok related => exact next _ _ related
  | error cause => exact .error cause

theorem map {first : α → γ} {second : β → δ} (alike : Alike relation left right)
    (next : ∀ a b, relation a b → result (first a) (second b)) :
    Alike result (left.map first) (right.map second) := by
  cases alike with
  | ok related => exact .ok (next _ _ related)
  | error cause => exact .error cause

theorem of_eq {left right : Except ε α} (same : left = right) : Alike Eq left right := by
  subst same
  cases left with
  | ok value => exact .ok rfl
  | error cause => exact .error cause

theorem eq {left right : Except ε α} (alike : Alike Eq left right) : left = right := by
  cases alike with
  | ok related => rw [related]
  | error cause => rfl

end Alike

/-- The same code, or the pointer codes of the two targets. -/
def BasicCode.Resized (narrow wide : BasicCode) : Prop :=
  narrow = wide ∨ narrow = .pointer .four ∧ wide = .pointer .eight

theorem BasicCode.Resized.mnemonic_eq {narrow wide : BasicCode} (resized : narrow.Resized wide) :
    narrow.mnemonic = wide.mnemonic := by
  rcases resized with rfl | ⟨rfl, rfl⟩
  · rfl
  · decide +kernel

def Signature.Resized (narrow wide : Signature) : Prop := List.Forall₂ BasicCode.Resized narrow wide

namespace Signature.Resized

variable {narrow wide : Signature}

theorem refl (signature : Signature) : Signature.Resized signature signature :=
  List.forall₂_same.mpr fun _ _ => .inl rfl

theorem pointer (resized : narrow.Resized wide) :
    Signature.Resized (.pointer .four narrow) (.pointer .eight wide) := by
  apply List.Forall₂.cons (.inr ⟨rfl, rfl⟩)
  exact List.rel_append resized (refl [BasicCode.terminator])

theorem flatMap {α : Type} (items : List α) (resized : narrow.Resized wide) :
    Signature.Resized (items.flatMap fun _ => narrow) (items.flatMap fun _ => wide) := by
  induction items with
  | nil => exact .nil
  | cons item later induction => exact List.rel_append resized induction

theorem text_eq (resized : narrow.Resized wide) : narrow.text = wide.text := by
  have mnemonics : narrow.map BasicCode.mnemonic = wide.map BasicCode.mnemonic := by
    induction resized with
    | nil => rfl
    | cons first _ induction => rw [List.map_cons, List.map_cons, first.mnemonic_eq, induction]
  rw [Signature.text, Signature.text, mnemonics]

end Signature.Resized

/-- The same shape up to the stored signature of a struct. -/
inductive Shape.Resized : Shape → Shape → Prop
  | struct {name fields narrow wide} (layout : Signature.Resized narrow wide) :
      Resized (.struct name fields narrow) (.struct name fields wide)
  | other {shape} (notStruct : ∀ name fields layout, shape ≠ .struct name fields layout) :
      Resized shape shape

theorem Shape.Resized.refl (shape : Shape) : shape.Resized shape := by
  cases shape with
  | struct name fields layout => exact .struct (.refl layout)
  | _ => exact .other nofun

theorem Shape.Resized.bare_eq {narrow wide : Shape} (resized : narrow.Resized wide) :
    narrow.bare = wide.bare := by
  cases resized <;> rfl

theorem Shape.map_bare_eq {narrow wide : List Shape}
    (resized : List.Forall₂ Shape.Resized narrow wide) :
    narrow.map Shape.bare = wide.map Shape.bare := by
  induction resized with
  | nil => rfl
  | cons first _ induction => rw [List.map_cons, List.map_cons, first.bare_eq, induction]

theorem forall₂_set {α β : Type} {relation : α → β → Prop} {items : List α}
    {values : List β} {item : α} {value : β} (index : Nat) (first : relation item value)
    (related : List.Forall₂ relation items values) :
    List.Forall₂ relation (items.set index item) (values.set index value) := by
  induction related generalizing index with
  | nil => exact .nil
  | cons head later induction =>
      cases index with
      | zero => exact .cons first later
      | succ index => exact .cons head (induction index)

namespace TypeStore

/-- What an operation answers: the number of a type, or nothing but success
where a struct gets a field. -/
def Operation.answer (store : TypeStore) : Operation → Except StoreError (Option TypeNumber)
  | .insert shape => (store.insert shape).map fun added => some added.1
  | .intern code => .ok (some (store.internBasic code).1)
  | .announce name => (store.announce name).map fun added => some added.1
  | .extend struct field => (store.extend struct field).map fun _ => none

/-- The same store for two targets. -/
structure Resized (narrow wide : TypeStore) : Prop where
  four : narrow.pointerSize = .four
  eight : wide.pointerSize = .eight
  shapes : List.Forall₂ Shape.Resized narrow.shapes wide.shapes

namespace Resized

variable {narrow wide : TypeStore}

theorem bare_eq (resized : narrow.Resized wide) : narrow.bare = wide.bare := by
  rw [bare, bare, Shape.map_bare_eq resized.shapes]

theorem shapeAt (resized : narrow.Resized wide) (number : TypeNumber) :
    Alike Shape.Resized (narrow.shapeAt number) (wide.shapeAt number) := by
  have sameLength := resized.shapes.length_eq
  unfold TypeStore.shapeAt
  by_cases inside : number < narrow.shapes.length
  · rw [List.getElem?_eq_getElem inside, List.getElem?_eq_getElem (sameLength ▸ inside)]
    exact .ok (resized.shapes.get inside (sameLength ▸ inside))
  · rw [List.getElem?_eq_none (Nat.le_of_not_lt inside),
      List.getElem?_eq_none (sameLength ▸ Nat.le_of_not_lt inside)]
    exact .error _

theorem size_eq (resized : narrow.Resized wide) : narrow.size = wide.size :=
  resized.shapes.length_eq

theorem signature (resized : narrow.Resized wide) (number : TypeNumber) :
    Alike Signature.Resized (narrow.signature number) (wide.signature number) := by
  induction number using Nat.strongRecOn with
  | ind number induction =>
    have visits : ∀ mentioned, Alike Signature.Resized
        (descend number (fun below _ => narrow.signature below) mentioned)
        (descend number (fun below _ => wide.signature below) mentioned) := by
      intro mentioned
      unfold descend
      split
      · exact induction mentioned ‹_›
      · exact .error _
    rw [TypeStore.signature, TypeStore.signature, resized.four, resized.eight]
    refine (resized.shapeAt number).bind fun first second related => ?_
    cases related with
    | struct layout => exact .ok layout
    | other notStruct =>
        cases first with
        | basic code => exact .ok (.refl _)
        | pointer mode pointee => exact (visits pointee).bind fun _ _ layout => .ok layout.pointer
        | array element capacity => exact (visits element).bind fun _ _ layout => .ok layout.pointer
        | struct name fields layout => exact absurd rfl (notStruct name fields layout)
        | function type => exact .ok (.pointer (.refl []))
        | trait name prototypes => exact .ok (.flatMap _ (.pointer (.refl [])))
        | aliasOf name target => exact visits target

theorem find?_eq (resized : narrow.Resized wide) : narrow.find? = wide.find? := by
  funext name
  rw [← bare_find?, resized.bare_eq, bare_find?]

theorem walk?_eq (resized : narrow.Resized wide) (source target : TypeNumber) :
    narrow.walk? source target = wide.walk? source target := by
  rw [← bare_walk?, resized.bare_eq, bare_walk?]

theorem unalias_eq (resized : narrow.Resized wide) : narrow.unalias = wide.unalias := by
  funext number
  rw [← bare_unalias, resized.bare_eq, bare_unalias]

theorem identifier_eq (resized : narrow.Resized wide) : narrow.identifier = wide.identifier := by
  funext number
  rw [← bare_identifier, resized.bare_eq, bare_identifier]

theorem embeddedStructs_eq (resized : narrow.Resized wide) :
    narrow.embeddedStructs = wide.embeddedStructs := by
  funext number
  rw [← bare_embeddedStructs, resized.bare_eq, bare_embeddedStructs]

theorem present_eq (resized : narrow.Resized wide) (number : TypeNumber) :
    discard (narrow.shapeAt number) = discard (wide.shapeAt number) := by
  rw [← bare_present, resized.bare_eq, bare_present]

/-- The same number, and the same store for two targets. -/
def Added (narrow wide : TypeNumber × TypeStore) : Prop :=
  narrow.1 = wide.1 ∧ narrow.2.Resized wide.2

theorem append (resized : narrow.Resized wide) (shape : Shape) :
    Added (narrow.append shape) (wide.append shape) := by
  refine ⟨resized.size_eq, resized.four, resized.eight, ?_⟩
  exact List.rel_append resized.shapes (.cons (.refl shape) .nil)

theorem internBasic (resized : narrow.Resized wide) (code : BasicCode) :
    Added (narrow.internBasic code) (wide.internBasic code) := by
  unfold TypeStore.internBasic
  rw [← bare_findBasic? narrow, resized.bare_eq, bare_findBasic?]
  cases wide.shapes.findIdx? (· = .basic code) with
  | some number => exact ⟨rfl, resized⟩
  | none => exact resized.append _

theorem appendNamed (resized : narrow.Resized wide) (shape : Shape) :
    Alike Added (narrow.appendNamed shape) (wide.appendNamed shape) := by
  unfold TypeStore.appendNamed
  cases shape.name? with
  | none => exact .ok (resized.append shape)
  | some name =>
      simp only [resized.find?_eq]
      split
      · exact .error _
      · exact .ok (resized.append shape)

theorem replace (resized : narrow.Resized wide) (number : TypeNumber) {first second : Shape}
    (related : first.Resized second) :
    (narrow.replace number first).Resized (wide.replace number second) :=
  ⟨resized.four, resized.eight, forall₂_set number related resized.shapes⟩

theorem extend (resized : narrow.Resized wide) (number : TypeNumber) (field : Field) :
    Alike TypeStore.Resized (narrow.extend number field) (wide.extend number field) := by
  unfold TypeStore.extend
  refine (resized.shapeAt number).bind fun first second related => ?_
  cases related with
  | other notStruct =>
      cases first with
      | struct name fields layout => exact absurd rfl (notStruct name fields layout)
      | _ => exact .error _
  | @struct name fields before after layout =>
      simp only [resized.present_eq, resized.walk?_eq]
      split
      · exact .error _
      refine (Alike.of_eq rfl).bind fun _ _ _ => ?_
      refine (Alike.of_eq rfl).bind fun walk _ same => ?_
      subst same
      cases walk with
      | some names => exact .error _
      | none =>
          refine (resized.signature field.type).bind fun _ _ added => ?_
          exact .ok (resized.replace number (.struct (List.rel_append layout added)))

theorem fill (resized : narrow.Resized wide) (number : TypeNumber) (fields : List Field) :
    Alike TypeStore.Resized (narrow.fill number fields) (wide.fill number fields) := by
  induction fields generalizing narrow wide with
  | nil => exact .ok resized
  | cons field later induction =>
      simp only [TypeStore.fill, List.foldlM_cons]
      exact (resized.extend number field).bind fun _ _ next => induction next

theorem insertStruct (resized : narrow.Resized wide) (name : String) (fields : List Field) :
    Alike Added (narrow.insertStruct name fields) (wide.insertStruct name fields) := by
  unfold TypeStore.insertStruct
  split
  · exact .error _
  · refine (resized.appendNamed (.struct name [] [])).bind fun first second added => ?_
    obtain ⟨number, announced⟩ := first
    obtain ⟨_, other⟩ := second
    obtain ⟨rfl, next⟩ := added
    exact (next.fill number fields).bind fun _ _ filled => .ok ⟨rfl, filled⟩

theorem insert (resized : narrow.Resized wide) (shape : Shape) :
    Alike Added (narrow.insert shape) (wide.insert shape) := by
  unfold TypeStore.insert
  simp only [resized.present_eq]
  refine (Alike.of_eq rfl).bind fun _ _ _ => ?_
  cases shape with
  | struct name fields layout => exact resized.insertStruct name fields
  | basic code => exact .ok (resized.internBasic code)
  | _ => exact resized.appendNamed _

theorem run (resized : narrow.Resized wide) (operation : Operation) :
    Alike TypeStore.Resized (operation.run narrow) (operation.run wide) := by
  cases operation with
  | insert shape => exact (resized.insert shape).bind fun _ _ added => .ok added.2
  | intern code => exact .ok (resized.internBasic code).2
  | announce name =>
      exact (resized.appendNamed (.struct name [] [])).bind fun _ _ added => .ok added.2
  | extend struct field => exact resized.extend struct field

theorem after (resized : narrow.Resized wide) (operation : Operation) :
    (narrow.after operation).Resized (wide.after operation) := by
  have ran := resized.run operation
  unfold TypeStore.after
  generalize operation.run narrow = first at ran
  generalize operation.run wide = second at ran
  cases ran with
  | ok next => exact next
  | error cause => exact resized

theorem answer_eq (resized : narrow.Resized wide) (operation : Operation) :
    operation.answer narrow = operation.answer wide := by
  apply Alike.eq
  cases operation with
  | insert shape => exact (resized.insert shape).map fun _ _ added => congrArg some added.1
  | intern code => exact .ok (congrArg some (resized.internBasic code).1)
  | announce name =>
      exact (resized.appendNamed (.struct name [] [])).map fun _ _ added =>
        congrArg some added.1
  | extend struct field => exact (resized.extend struct field).map fun _ _ _ => rfl

end Resized

end TypeStore

end CBackend
