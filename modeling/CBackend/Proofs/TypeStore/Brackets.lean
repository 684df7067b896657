import Mathlib.InformationTheory.Coding.UniquelyDecodable
import CBackend.Proofs.TypeStore.Outline

/-!
# Brackets in signatures

A pointer code opens a bracket and a terminator closes it.  Counting them says
when brackets match: no beginning of a signature closes more than it opens,
and the whole closes as many as it opens.

The items of a signature are its defined codes outside of all brackets and its
outermost brackets with what is inside.  An item is never the beginning of
another one, because the bracket that it opens is closed by its last code and
not before.  So a signature can be read item by item.

Signatures of this kind are kept when signatures are put together, so they are
the only ones in stores that were reached by inserting defined codes.
-/

namespace CBackend

open InformationTheory (UniquelyDecodable)

/-- Words of which none begins another one can be told apart when they are
written one after the other. -/
theorem uniquelyDecodable_of_prefix {words : Set (List α)} (inhabited : [] ∉ words)
    (apart : ∀ first ∈ words, ∀ second ∈ words, first <+: second → first = second) :
    UniquelyDecodable words := by
  have nothing : ∀ parts : List (List α), (∀ part ∈ parts, part ∈ words) →
      parts.flatten = [] → parts = [] := by
    intro parts areWords empty
    apply List.eq_nil_iff_forall_not_mem.mpr
    intro part member
    have isEmpty := List.flatten_eq_nil_iff.mp empty part member
    exact inhabited (isEmpty ▸ areWords part member)
  intro parts
  induction parts with
  | nil =>
      intro others _ areWords same
      exact (nothing others areWords same.symm).symm
  | cons part parts induction =>
      intro others areWords otherWords same
      cases others with
      | nil => exact nothing (part :: parts) areWords same
      | cons other others =>
          obtain ⟨isWord, restWords⟩ := List.forall_mem_cons.mp areWords
          obtain ⟨isOther, otherRest⟩ := List.forall_mem_cons.mp otherWords
          rw [List.flatten_cons, List.flatten_cons] at same
          have begins : part <+: other ++ others.flatten := ⟨_, same⟩
          have equal : part = other := by
            rcases List.prefix_or_prefix_of_prefix begins (List.prefix_append other _) with
              first | second
            · exact apart part isWord other isOther first
            · exact (apart other isOther part isWord second).symm
          rw [equal] at same ⊢
          rw [induction others restWords otherRest (List.append_cancel_left same)]

namespace BasicCode

/-- A code that belongs to a band. -/
def Defined (code : BasicCode) : Prop := code.band?.isSome = true

instance : DecidablePred Defined := fun code =>
  inferInstanceAs (Decidable (code.band?.isSome = true))

theorem defined_of_spelled {code : BasicCode} {name cName : String}
    (spelled : (code, name, cName) ∈ spellings) : code.Defined := by
  have each : ∀ entry ∈ spellings, entry.1.Defined := by decide
  exact each _ spelled

theorem Defined.plain {code : BasicCode} (defined : code.Defined) (size : PointerSize) :
    code.Plain size := by
  constructor
  · rintro rfl
    cases size <;> cases defined
  · rintro rfl
    cases defined

/-- A code that signatures for a target may contain: a defined one, or one of
the two brackets. -/
def Allowed (size : PointerSize) (code : BasicCode) : Prop :=
  code.Defined ∨ code = pointer size ∨ code = terminator

theorem Allowed.defined {size : PointerSize} {code : BasicCode} (allowed : code.Allowed size)
    (isPlain : code.Plain size) : code.Defined :=
  allowed.resolve_right fun bracket => bracket.elim isPlain.1 isPlain.2

end BasicCode

namespace Signature

variable {size : PointerSize} {signature part : Signature}

/-- All codes are allowed, no beginning closes more brackets than it opens, and
the whole closes as many as it opens. -/
structure WellBracketed (size : PointerSize) (signature : Signature) : Prop where
  allowed : ∀ code ∈ signature, code.Allowed size
  opened : ∀ part, part <+: signature →
    part.count BasicCode.terminator ≤ part.count (BasicCode.pointer size)
  closed : signature.count BasicCode.terminator = signature.count (BasicCode.pointer size)

/-- A defined code alone, or one pointer code whose terminator is the last
code: what is between them is well bracketed by itself. -/
inductive IsItem (size : PointerSize) : Signature → Prop where
  | code {code : BasicCode} (isDefined : code.Defined) : IsItem size [code]
  | pointer {pointee : Signature} (inside : WellBracketed size pointee) :
      IsItem size (pointer size pointee)

theorem Balanced.count_eq (balanced : Balanced size signature) :
    signature.count BasicCode.terminator = signature.count (BasicCode.pointer size) := by
  induction balanced with
  | nil => rfl
  | plain isPlain _ induction =>
      rw [List.count_cons_of_ne isPlain.2, List.count_cons_of_ne isPlain.1, induction]
  | pointer _ _ insideInduction restInduction =>
      have different := terminator_ne_pointer size
      rw [pointer_append, List.count_cons_of_ne different.symm, List.count_cons_self,
        List.count_append, List.count_append, List.count_cons_self,
        List.count_cons_of_ne different, insideInduction, restInduction]
      omega

theorem Balanced.count_le (balanced : Balanced size signature) (begins : part <+: signature) :
    part.count BasicCode.terminator ≤ part.count (BasicCode.pointer size) := by
  induction balanced generalizing part with
  | nil =>
      rw [List.prefix_nil.mp begins]
      rfl
  | plain isPlain _ induction =>
      rcases List.prefix_cons_iff.mp begins with rfl | ⟨rest, rfl, restBegins⟩
      · rfl
      · rw [List.count_cons_of_ne isPlain.2, List.count_cons_of_ne isPlain.1]
        exact induction restBegins
  | @pointer pointee later inside _ insideInduction restInduction =>
      have different := terminator_ne_pointer size
      rw [pointer_append] at begins
      rcases List.prefix_cons_iff.mp begins with rfl | ⟨rest, rfl, restBegins⟩
      · rfl
      rw [List.count_cons_of_ne different.symm, List.count_cons_self]
      rcases List.prefix_or_prefix_of_prefix restBegins (List.prefix_append pointee _) with
        within | ⟨beyond, rfl⟩
      · exact Nat.le_succ_of_le (insideInduction within)
      · rw [List.prefix_append_right_inj] at restBegins
        rw [List.count_append, List.count_append, inside.count_eq]
        rcases List.prefix_cons_iff.mp restBegins with rfl | ⟨after, rfl, afterBegins⟩
        · simp
        · have afterwards := restInduction afterBegins
          rw [List.count_cons_self, List.count_cons_of_ne different]
          omega

theorem Balanced.wellBracketed (balanced : Balanced size signature)
    (allowed : ∀ code ∈ signature, code.Allowed size) : WellBracketed size signature :=
  ⟨allowed, fun _ => balanced.count_le, balanced.count_eq⟩

theorem forall_mem_pointer {property : BasicCode → Prop} {pointee : Signature} :
    (∀ code ∈ pointer size pointee, property code) ↔
      property (BasicCode.pointer size) ∧ (∀ code ∈ pointee, property code) ∧
        property BasicCode.terminator := by
  rw [pointer, List.forall_mem_append, List.forall_mem_cons, List.forall_mem_singleton, and_assoc]

/-- A signature of allowed codes whose brackets match consists of items. -/
theorem Balanced.exists_items (balanced : Balanced size signature)
    (allowed : ∀ code ∈ signature, code.Allowed size) :
    ∃ parts : List Signature, (∀ part ∈ parts, part.IsItem size) ∧ parts.flatten = signature := by
  induction balanced with
  | nil => exact ⟨[], nofun, rfl⟩
  | @plain code later isPlain _ induction =>
      obtain ⟨isAllowed, laterAllowed⟩ := List.forall_mem_cons.mp allowed
      obtain ⟨parts, areItems, same⟩ := induction laterAllowed
      have isItem : IsItem size [code] := .code (isAllowed.defined isPlain)
      refine ⟨[code] :: parts, List.forall_mem_cons.mpr ⟨isItem, areItems⟩, ?_⟩
      rw [List.flatten_cons, same, List.singleton_append]
  | @pointer pointee later inside _ _ induction =>
      obtain ⟨bracketAllowed, laterAllowed⟩ := List.forall_mem_append.mp allowed
      obtain ⟨parts, areItems, same⟩ := induction laterAllowed
      obtain ⟨_, insideAllowed, _⟩ := forall_mem_pointer.mp bracketAllowed
      refine ⟨Signature.pointer size pointee :: parts, ?_, ?_⟩
      · exact List.forall_mem_cons.mpr ⟨.pointer (inside.wellBracketed insideAllowed), areItems⟩
      · rw [List.flatten_cons, same]

theorem IsItem.ne_nil (isItem : signature.IsItem size) : signature ≠ [] := by
  cases isItem with
  | code _ => exact List.cons_ne_nil _ _
  | pointer _ => exact List.cons_ne_nil _ _

/-- An item that begins another one is all of it. -/
theorem IsItem.eq_of_prefix (isItem : part.IsItem size) (isOther : signature.IsItem size)
    (begins : part <+: signature) : part = signature := by
  cases isItem with
  | @code code isDefined =>
      cases isOther with
      | code _ => exact begins.eq_of_length rfl
      | pointer _ =>
          obtain ⟨same, _⟩ := List.cons_prefix_cons.mp begins
          exact absurd same (isDefined.plain size).1
  | @pointer pointee inside =>
      cases isOther with
      | code isDefined =>
          obtain ⟨same, _⟩ := List.cons_prefix_cons.mp begins
          exact absurd same.symm (isDefined.plain size).1
      | @pointer other otherInside =>
          have rest : pointee ++ [BasicCode.terminator] <+: other ++ [BasicCode.terminator] :=
            (List.cons_prefix_cons.mp begins).2
          rcases List.prefix_concat_iff.mp rest with same | early
          · rw [List.append_cancel_right same]
          · -- The shorter bracket would be closed inside the longer one.
            have opened := otherInside.opened _ early
            rw [List.count_append, List.count_append, inside.closed, List.count_singleton_self,
              List.count_singleton, beq_false_of_ne (terminator_ne_pointer size)] at opened
            exact absurd opened (by simp)

theorem items_uniquelyDecodable (size : PointerSize) :
    UniquelyDecodable {signature : Signature | signature.IsItem size} :=
  uniquelyDecodable_of_prefix (fun isItem => isItem.ne_nil rfl)
    fun _ isItem _ isOther => isItem.eq_of_prefix isOther

/-- A signature of allowed codes whose brackets match. -/
structure Formed (size : PointerSize) (signature : Signature) : Prop where
  balanced : Balanced size signature
  allowed : ∀ code ∈ signature, code.Allowed size

theorem Formed.compositional : Compositional size (Formed size) where
  nil := ⟨.nil, nofun⟩
  append := fun first second => ⟨first.balanced.append second.balanced,
    List.forall_mem_append.mpr ⟨first.allowed, second.allowed⟩⟩
  pointer := fun inside => by
    refine ⟨Balanced.compositional.pointer inside.balanced, forall_mem_pointer.mpr ?_⟩
    exact ⟨.inr (.inl rfl), inside.allowed, .inr (.inr rfl)⟩

theorem formed_singleton_iff {code : BasicCode} : Formed size [code] ↔ code.Defined := by
  constructor
  · intro formed
    exact (formed.allowed code List.mem_cons_self).defined formed.balanced.plain_of_singleton
  · intro isDefined
    exact ⟨.plain (isDefined.plain size) .nil, List.forall_mem_singleton.mpr (.inl isDefined)⟩

theorem Formed.wellBracketed (formed : Formed size signature) : WellBracketed size signature :=
  formed.balanced.wellBracketed formed.allowed

end Signature

def Shape.isTrait : Shape → Bool
  | .trait .. => true
  | _ => false

namespace TypeStore

variable {store : TypeStore} {size : PointerSize} {number : TypeNumber} {laidOut : Signature}

theorem signature_struct {name : String} {fields : List Field} {stored : Signature}
    (isStruct : store.shapeAt number = .ok (.struct name fields stored)) :
    store.signature number = .ok stored := by
  rw [TypeStore.signature, isStruct]
  rfl

/-- A type that stands for no struct and no trait is laid out as one item. -/
theorem Carries.isItem (carries : store.Carries size (Signature.Formed size))
    {target : TypeNumber} {shape : Shape} (resolves : store.unalias number = .ok target)
    (isShape : store.shapeAt target = .ok shape) (noStruct : shape.isStruct = false)
    (noTrait : shape.isTrait = false) (success : store.signature number = .ok laidOut) :
    laidOut.IsItem size := by
  have visited : ∀ {mentioned below}, descend target (fun below _ => store.signature below)
      mentioned = .ok below → below.WellBracketed size := by
    intro mentioned below found
    exact (carries.signature Signature.Formed.compositional (descend_success found).2).wellBracketed
  obtain ⟨_, isFound, noAlias⟩ := unalias_not_alias resolves
  rw [isShape] at isFound
  cases isFound
  rw [signature_unalias resolves, TypeStore.signature, isShape, carries.pointerSize] at success
  obtain ⟨_, same, success⟩ := Success.bind_iff.mp success
  cases same
  cases shape with
  | basic code =>
      cases success
      exact .code (Signature.formed_singleton_iff.mp (carries.basic target code isShape))
  | pointer mode pointee =>
      obtain ⟨below, found, same⟩ := Success.bind_iff.mp success
      cases same
      exact .pointer (visited found)
  | array element capacity =>
      obtain ⟨below, found, same⟩ := Success.bind_iff.mp success
      cases same
      exact .pointer (visited found)
  | function type =>
      cases success
      exact .pointer Signature.Formed.compositional.nil.wellBracketed
  | struct _ _ _ => cases noStruct
  | trait _ _ => cases noTrait
  | aliasOf _ _ => cases noAlias

/-- Every code that an operation inserts is defined. -/
def Operation.InsertsDefined (operation : Operation) : Prop :=
  ∀ code ∈ operation.basic?, code.Defined

/-- Operations that insert defined codes only lead from a store to the other
one. -/
def Reaches (store next : TypeStore) : Prop :=
  ∃ operations : List Operation, (∀ operation ∈ operations, operation.InsertsDefined) ∧
    operations.foldl after store = next

namespace Reaches

variable {between next : TypeStore}

theorem refl (store : TypeStore) : store.Reaches store := ⟨[], nofun, rfl⟩

theorem trans (first : store.Reaches between) (second : between.Reaches next) :
    store.Reaches next := by
  obtain ⟨operations, defined, rfl⟩ := first
  obtain ⟨more, moreDefined, rfl⟩ := second
  exact ⟨operations ++ more, List.forall_mem_append.mpr ⟨defined, moreDefined⟩,
    List.foldl_append⟩

theorem of_run {operation : Operation} (defined : operation.InsertsDefined)
    (success : operation.run store = .ok next) : store.Reaches next := by
  refine ⟨[operation], List.forall_mem_singleton.mpr defined, ?_⟩
  rw [List.foldl_cons, List.foldl_nil, after, success]

theorem ordered (reached : (empty size).Reaches store) : store.Ordered := by
  obtain ⟨operations, _, rfl⟩ := reached
  exact history_ordered size operations

theorem formed (reached : (empty size).Reaches store) :
    store.Carries size (Signature.Formed size) := by
  obtain ⟨operations, defined, rfl⟩ := reached
  apply history_carries Signature.Formed.compositional
  intro operation member code inserted
  exact Signature.formed_singleton_iff.mpr (defined operation member code inserted)

end Reaches

end TypeStore

end CBackend
