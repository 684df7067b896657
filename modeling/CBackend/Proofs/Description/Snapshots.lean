import CBackend.Proofs.Description.Building
import CBackend.Proofs.Lowering.HeaderOrder
import CBackend.Proofs.TypeStore.Outline

/-!
# Signatures as they are taken

The signature of a struct grows with its fields and is never computed again,
so each field adds what its type shows at that moment.  Structs get their
fields in the order of their entries: a struct that comes earlier shows all of
its codes, and one that comes later shows nothing yet.

Main statement: when a header can be generated, everything that a struct holds
comes earlier, and the outline of its signature is its flattening by value.
-/

namespace CBackend

open Relation (ReflTransGen)

namespace TypeStore

/-- What a field of the struct `holder` adds to its outline: all codes of the
type that it stands for, or nothing if that is a struct which had no fields
yet. -/
def Contributes (store : TypeStore) (holder type : TypeNumber) (part : Signature) : Prop :=
  ∃ target shape, store.unalias type = .ok target ∧ store.shapeAt target = .ok shape ∧
    part = if shape.isStruct ∧ holder ≤ target then [] else shape.outline store.pointerSize

/-- The structs before the number `filled` have all their fields, the one of
this number has some, and the later ones have none. -/
structure Snapshot (filled : TypeNumber) (store : TypeStore) : Prop where
  ordered : store.Ordered
  bracketed : store.Bracketed
  unfilled : ∀ number name fields signature, filled < number →
    store.shapeAt number = .ok (.struct name fields signature) → fields = [] ∧ signature = []
  taken : ∀ number name fields signature,
    store.shapeAt number = .ok (.struct name fields signature) →
    ∃ parts, List.Forall₂ (store.Contributes number) (fields.map Field.type) parts ∧
      signature.outline store.pointerSize = parts.flatten

section Steps

variable {store next : TypeStore} {filled : TypeNumber}

section Append

variable {added : List Shape}

theorem struct_of_append (appended : next.shapes = store.shapes ++ added)
    (noStruct : ∀ shape ∈ added, shape.isStruct = false) {number : TypeNumber} {name : String}
    {fields : List Field} {signature : Signature}
    (isStruct : next.shapeAt number = .ok (.struct name fields signature)) :
    store.shapeAt number = .ok (.struct name fields signature) := by
  rcases origin_of_append appended isStruct with old | new
  · exact old
  · cases noStruct _ new

theorem Bracketed.append (bracketed : store.Bracketed)
    (pointerSize : next.pointerSize = store.pointerSize)
    (appended : next.shapes = store.shapes ++ added)
    (noStruct : ∀ shape ∈ added, shape.isStruct = false)
    (plain : ∀ code, .basic code ∈ added → code.Plain store.pointerSize) : next.Bracketed := by
  refine ⟨?_, ?_⟩
  · intro number code isBasic
    rw [pointerSize]
    rcases origin_of_append appended isBasic with old | new
    · exact bracketed.plain number code old
    · exact plain code new
  · intro number name fields signature isStruct
    rw [pointerSize]
    apply bracketed.balanced number name fields signature
    exact struct_of_append appended noStruct isStruct

/-- Types that are no structs leave what was taken as it is. -/
theorem Snapshot.append (snapshot : store.Snapshot filled)
    (pointerSize : next.pointerSize = store.pointerSize)
    (appended : next.shapes = store.shapes ++ added)
    (noStruct : ∀ shape ∈ added, shape.isStruct = false)
    (plain : ∀ code, .basic code ∈ added → code.Plain store.pointerSize)
    (ordered : next.Ordered) : next.Snapshot filled := by
  have grows := grows_of_append pointerSize appended
  refine ⟨ordered, snapshot.bracketed.append pointerSize appended noStruct plain, ?_, ?_⟩
  · intro number name fields signature after isStruct
    apply snapshot.unfilled number name fields signature after
    exact struct_of_append appended noStruct isStruct
  · intro number name fields signature isStruct
    obtain ⟨parts, contributed, same⟩ := snapshot.taken number name fields signature
      (struct_of_append appended noStruct isStruct)
    rw [pointerSize]
    refine ⟨parts, contributed.imp ?_, same⟩
    intro type part contributes
    obtain ⟨target, shape, resolves, isShape, isPart⟩ := contributes
    rw [← pointerSize] at isPart
    exact ⟨target, shape, grows.unalias resolves, keeps_of_append appended isShape, isPart⟩

end Append

theorem Snapshot.pad (snapshot : store.Snapshot filled) (pads : store.Pads next)
    (ordered : next.Ordered) : next.Snapshot filled := by
  obtain ⟨added, rfl, anonymous⟩ := pads
  refine snapshot.append rfl rfl ?_ ?_ ordered
  · intro shape member
    have isAnonymous := anonymous shape member
    cases shape with
    | struct _ _ _ => cases isAnonymous
    | basic _ => rfl
    | pointer _ _ => rfl
    | array _ _ => rfl
    | function _ => rfl
    | trait _ _ => rfl
    | aliasOf _ _ => rfl
  · intro code member
    obtain ⟨name, spelled⟩ := anonymous _ member
    obtain ⟨cName, isSpelled⟩ := BasicCode.ofMnemonic?_spelled spelled
    exact BasicCode.plain_of_spelled isSpelled

theorem Snapshot.declare (snapshot : store.Snapshot filled) {shape : Shape} {name : String}
    (noStruct : shape.isStruct = false) (named : shape.name? = some name)
    (ordered : (store.append shape).2.Ordered) : (store.append shape).2.Snapshot filled := by
  refine snapshot.append rfl rfl ?_ ?_ ordered
  · intro other member
    rw [List.mem_singleton.mp member]
    exact noStruct
  · intro code member
    rw [← List.mem_singleton.mp member] at named
    cases named

theorem Snapshot.finish (snapshot : store.Snapshot filled) : store.Snapshot (filled + 1) := by
  refine ⟨snapshot.ordered, snapshot.bracketed, ?_, snapshot.taken⟩
  intro number name fields signature after
  exact snapshot.unfilled number name fields signature (Nat.lt_of_succ_lt after)

section Extend

variable {name : String} {fields : List Field} {signature added : Signature} {field : Field}

/-- A further field of a struct is no matter to the structs that do not come
after it. -/
theorem Contributes.replace {number holder type : TypeNumber} {part : Signature}
    {after : Signature}
    (isStruct : store.shapeAt number = .ok (.struct name fields signature))
    (grows : store.Grows (store.replace number (.struct name (fields ++ [field]) after)))
    (notAfter : holder ≤ number) (contributes : store.Contributes holder type part) :
    (store.replace number (.struct name (fields ++ [field]) after)).Contributes holder type
      part := by
  obtain ⟨target, shape, resolves, isShape, isPart⟩ := contributes
  by_cases here : target = number
  · rw [here] at resolves isShape isPart
    rw [isStruct] at isShape
    cases isShape
    refine ⟨number, _, grows.unalias resolves, shapeAt_replace_self isStruct, ?_⟩
    simpa [Shape.isStruct, notAfter] using isPart
  · exact ⟨target, shape, grows.unalias resolves, (shapeAt_replace_ne here).trans isShape, isPart⟩

/-- The layout that is added with a field is what the field contributes. -/
theorem Snapshot.contributes_field (snapshot : store.Snapshot filled)
    (inside : field.type < store.size)
    (apart : ¬ ReflTransGen store.Embeds field.type filled)
    (laidOut : store.signature field.type = .ok added) {after : Signature}
    (grows : store.Grows (store.replace filled (.struct name (fields ++ [field]) after))) :
    (store.replace filled (.struct name (fields ++ [field]) after)).Contributes filled field.type
      (added.outline store.pointerSize) := by
  have answers := snapshot.ordered.unalias_answers field.type
  rw [Answers, if_pos inside] at answers
  obtain ⟨target, resolves⟩ := answers
  obtain ⟨shape, isShape, noAlias⟩ := unalias_not_alias resolves
  have elsewhere : target ≠ filled := by
    intro here
    rw [here] at resolves
    exact apart (unalias_walk resolves)
  refine ⟨target, shape, grows.unalias resolves, (shapeAt_replace_ne elsewhere).trans isShape, ?_⟩
  rw [signature_unalias resolves] at laidOut
  have shown := snapshot.bracketed.outline_signature laidOut isShape noAlias
  split
  · rename_i later
    obtain ⟨isAStruct, notBefore⟩ := later
    obtain ⟨otherName, otherFields, stored, rfl⟩ := Shape.struct_of_isStruct isAStruct
    have after := Nat.lt_of_le_of_ne notBefore (Ne.symm elsewhere)
    have empty := snapshot.unfilled target otherName otherFields stored after isShape
    rw [shown, empty.2]
    rfl
  · exact shown

theorem Bracketed.extend (bracketed : store.Bracketed) {number : TypeNumber}
    (success : store.extend number field = .ok next) : next.Bracketed :=
  (bracketed.carries.extend Signature.Balanced.compositional success).bracketed

theorem Snapshot.extend (snapshot : store.Snapshot filled)
    (success : store.extend filled field = .ok next) : next.Snapshot filled := by
  have ordered := snapshot.ordered.extend success
  have bracketed := snapshot.bracketed.extend success
  have grows := (Step.extend success).grows
  obtain ⟨name, fields, signature, added, isStruct, _, inside, searched, laidOut, rfl⟩ :=
    extend_success_iff.mp success
  refine ⟨ordered, bracketed, ?_, ?_⟩
  · intro number otherName otherFields stored after isOther
    rw [shapeAt_replace_ne (Nat.ne_of_gt after)] at isOther
    exact snapshot.unfilled number otherName otherFields stored after isOther
  · intro number otherName otherFields stored isOther
    rcases Nat.lt_trichotomy number filled with before | here | after
    · rw [shapeAt_replace_ne (Nat.ne_of_lt before)] at isOther
      obtain ⟨parts, contributed, same⟩ :=
        snapshot.taken number otherName otherFields stored isOther
      refine ⟨parts, contributed.imp ?_, same⟩
      intro type part
      exact Contributes.replace isStruct grows (Nat.le_of_lt before)
    · rw [here, shapeAt_replace_self isStruct] at isOther
      cases isOther
      obtain ⟨parts, contributed, same⟩ := snapshot.taken filled name fields signature isStruct
      have apart := walk?_none searched
      refine ⟨parts ++ [added.outline store.pointerSize], ?_, ?_⟩
      · rw [here, List.map_append]
        apply List.rel_append
        · apply contributed.imp
          intro type part
          exact Contributes.replace isStruct grows (Nat.le_refl filled)
        · exact .cons (snapshot.contributes_field inside apart laidOut grows) .nil
      · rw [List.flatten_append, ← same, List.flatten_singleton]
        exact Signature.outline_append
          (snapshot.bracketed.balanced filled name fields signature isStruct) added
    · -- Structs after the one that is filled have no fields to be asked about.
      rw [shapeAt_replace_ne (Nat.ne_of_gt after)] at isOther
      obtain ⟨rfl, rfl⟩ := snapshot.unfilled number otherName otherFields stored after isOther
      exact ⟨[], .nil, rfl⟩

end Extend

end Steps

/-- A field of the struct `holder` stands for the struct `target`. -/
def HoldsStruct (store : TypeStore) (holder target : TypeNumber) : Prop :=
  ∃ name fields signature field inner innerFields innerSignature,
    store.shapeAt holder = .ok (.struct name fields signature) ∧ field ∈ fields ∧
    store.unalias field.type = .ok target ∧
    store.shapeAt target = .ok (.struct inner innerFields innerSignature)

/-- Whatever a struct holds by value was complete when it was laid out, or
has no codes anyway. -/
def Settled (store : TypeStore) : Prop :=
  ∀ holder target, store.HoldsStruct holder target →
    target < holder ∨ store.Flattens [target] []

section Settled

variable {store : TypeStore} {filled : TypeNumber}

theorem unalias_wraps {number target : TypeNumber}
    (resolves : store.unalias number = .ok target) :
    ReflTransGen store.Wraps number target := by
  apply unalias_induction (ReflTransGen store.Wraps · target) resolves .refl
  intro outer name inner isAlias _ walk
  exact .head ⟨_, isAlias, rfl⟩ walk

theorem settled_of_inOrder (inOrder : ∀ number, store.InOrder number) : store.Settled := by
  intro holder target held
  obtain ⟨name, fields, signature, field, tag, _, _, isStruct, member, resolves, isTarget⟩ := held
  left
  by_contra notBefore
  apply inOrder holder name fields signature isStruct field member tag
  exact ⟨target, ⟨unalias_wraps resolves, _, isTarget, rfl⟩, Nat.le_of_not_lt notBefore⟩

theorem flattens_own {number : TypeNumber} {shape : Shape}
    (isShape : store.shapeAt number = .ok shape) (noStruct : shape.isStruct = false)
    (noAlias : shape.isAlias = false) :
    store.Flattens [number] (shape.outline store.pointerSize) := by
  have own : shape.ownCodes? store.pointerSize = some (shape.outline store.pointerSize) := by
    cases shape with
    | struct _ _ _ => cases noStruct
    | aliasOf _ _ => cases noAlias
    | basic _ => rfl
    | pointer _ _ => rfl
    | array _ _ => rfl
    | function _ => rfl
    | trait _ _ => rfl
  simpa using Flattens.own isShape own .nil

/-- In a settled store the outlines of all structs are their flattenings. -/
theorem Snapshot.flattens (snapshot : store.Snapshot filled) (settled : store.Settled)
    {number : TypeNumber} {name : String} {fields : List Field} {signature : Signature}
    (isStruct : store.shapeAt number = .ok (.struct name fields signature)) :
    store.Flattens [number] (signature.outline store.pointerSize) := by
  induction number using Nat.strongRecOn generalizing name fields signature with
  | ind number induction =>
      rw [Flattens.struct_iff isStruct, Flattens.list_iff]
      obtain ⟨parts, contributed, same⟩ := snapshot.taken number name fields signature isStruct
      refine ⟨parts, ?_, same⟩
      rw [List.forall₂_map_left_iff] at contributed ⊢
      apply ((List.forall₂_and_left _ _).mpr ⟨fun _ member => member, contributed⟩).imp
      intro field part found
      obtain ⟨member, target, shape, resolves, isShape, isPart⟩ := found
      rw [Flattens.unalias_iff resolves, isPart]
      obtain ⟨_, isFound, noAlias⟩ := unalias_not_alias resolves
      rw [isShape] at isFound
      cases isFound
      by_cases isAStruct : shape.isStruct = true
      · obtain ⟨inner, innerFields, stored, rfl⟩ := Shape.struct_of_isStruct isAStruct
        by_cases before : target < number
        · rw [if_neg (by simp [before])]
          exact induction target before isShape
        · rw [if_pos ⟨isAStruct, Nat.le_of_not_lt before⟩]
          apply (settled number target _).resolve_left before
          exact ⟨name, fields, signature, field, inner, innerFields, stored, isStruct, member,
            resolves, isShape⟩
      · rw [if_neg (fun late => isAStruct late.1)]
        exact flattens_own isShape (Bool.eq_false_iff.mpr isAStruct) noAlias

end Settled

end TypeStore

namespace Description

variable {description : Description} {program : Program}

theorem announcedStore_snapshot (pointerSize : PointerSize) (names : List String) :
    (announcedStore pointerSize names).Snapshot 0 := by
  refine ⟨announcedStore_ordered pointerSize names, ⟨?_, ?_⟩, ?_, ?_⟩
  · intro number code isBasic
    obtain ⟨_, same⟩ := announcedStore_shapeAt isBasic
    cases same
  · intro number name fields signature isStruct
    obtain ⟨_, same⟩ := announcedStore_shapeAt isStruct
    cases same
    exact .nil
  · intro number name fields signature _ isStruct
    obtain ⟨_, same⟩ := announcedStore_shapeAt isStruct
    cases same
    exact ⟨rfl, rfl⟩
  · intro number name fields signature isStruct
    obtain ⟨_, same⟩ := announcedStore_shapeAt isStruct
    cases same
    exact ⟨[], .nil, rfl⟩

theorem Advance.snapshot {before after : Nat × TypeStore} (advance : Advance before after)
    (snapshot : before.2.Snapshot before.1) : after.2.Snapshot after.1 := by
  cases advance with
  | pad pads ordered => exact snapshot.pad pads ordered
  | declare noStruct named ordered => exact snapshot.declare noStruct named ordered
  | extend success => exact snapshot.extend success
  | finish => exact snapshot.finish

theorem Built.snapshot (built : Built description program) :
    ∃ filled, program.types.Snapshot filled := by
  obtain ⟨store, typesBuilt, pads⟩ := built.types
  have run : ∀ reached, ReflTransGen Advance
      (0, announcedStore description.pointerSize
        ((structsOf description.types).map TypeEntry.name)) reached →
      reached.2.Snapshot reached.1 := by
    intro reached steps
    induction steps with
    | refl => exact announcedStore_snapshot _ _
    | tail _ advance induction => exact advance.snapshot induction
  exact ⟨_, (run _ typesBuilt.steps).pad pads built.holds.ordered⟩

theorem Built.founded (built : Built description program) : program.Founded := by
  refine ⟨built.holds.ordered, built.holds.distinct, ?_⟩
  intro callee member
  obtain ⟨entry, _, means⟩ := Success.related_of_mem built.callees.flip callee member
  exact CalleeEntry.Means.present means

/-- When a header can be generated, the signature of a struct describes its
layout: without what pointers point to, it consists of the codes that the
struct flattens to. -/
theorem flattens_iff_outline (description : Description) (program : Program)
    (success : description.build = .ok program) (header : C.Header)
    (generated : program.header = .ok header) (number : TypeNumber) (name : String)
    (fields : List Field) (signature : Signature)
    (isStruct : program.types.shapeAt number = .ok (.struct name fields signature))
    (codes : Signature) :
    program.types.Flattens [number] codes ↔
      codes = signature.outline program.types.pointerSize := by
  obtain ⟨_, built⟩ := built_of_build success
  obtain ⟨_, inOrder, _⟩ := built.founded.header_sound generated
  obtain ⟨filled, snapshot⟩ := built.snapshot
  have flattens := snapshot.flattens (TypeStore.settled_of_inOrder inOrder) isStruct
  constructor
  · intro alsoFlattens
    exact alsoFlattens.unique flattens
  · intro same
    rw [same]
    exact flattens

/-- A struct that holds another one behind an alias and points to itself. -/
def boxDescription : Description where
  name := "box"
  pointerSize := .eight
  types := [
    .struct "Point" [⟨"x", .named "i32"⟩, ⟨"y", .named "u8"⟩],
    .aliasOf "Corner" (.named "Point"),
    .struct "Box" [⟨"low", .named "Corner"⟩, ⟨"outer", .pointer .safe (.named "Box")⟩]]
  callees := []

def boxProgram : Program where
  name := "box"
  types := ⟨.eight, [
    .struct "Point" [⟨"x", 2⟩, ⟨"y", 3⟩] [⟨0o23⟩, ⟨0o11⟩],
    .struct "Box" [⟨"low", 4⟩, ⟨"outer", 5⟩]
      [⟨0o23⟩, ⟨0o11⟩, ⟨0o44⟩, ⟨0o23⟩, ⟨0o11⟩, ⟨0⟩],
    .basic ⟨0o23⟩, .basic ⟨0o11⟩, .aliasOf "Corner" 0, .pointer .safe 1]⟩
  callees := []

theorem boxDescription_flattens :
    boxDescription.build = .ok boxProgram ∧ boxProgram.header.isOk = true ∧
      ∀ codes, boxProgram.types.Flattens [1] codes ↔ codes = [⟨0o23⟩, ⟨0o11⟩, ⟨0o44⟩] := by
  have success : boxDescription.build = .ok boxProgram := by decide +kernel
  have succeeds : boxProgram.header.isOk = true := by decide +kernel
  refine ⟨success, succeeds, ?_⟩
  cases generated : boxProgram.header with
  | error cause =>
      rw [generated] at succeeds
      cases succeeds
  | ok header =>
      exact flattens_iff_outline boxDescription boxProgram success header generated 1 "Box" _ _ rfl

end Description

end CBackend
