import CBackend.Proofs.TypeStore.Composition

/-!
# Outlines of signatures

A signature shows what a pointer points to.  Its outline leaves that out, so
what remains are the codes of the values that lie one after the other.  Parts
of a signature that belong to pointers are told from others by their
brackets: a pointer code opens one and a terminator closes it.

A second way to these codes is to flatten a type by value, through the store
as it is now.  It is a relation because it exists only where nothing embeds
itself; what it gives is unique.
-/

namespace CBackend

namespace BasicCode

/-- A code that neither opens nor closes the part of a pointer. -/
def Plain (size : PointerSize) (code : BasicCode) : Prop :=
  code ≠ pointer size ∧ code ≠ terminator

theorem plain_of_spelled {size : PointerSize} {code : BasicCode} {name cName : String}
    (spelled : (code, name, cName) ∈ spellings) : code.Plain size := by
  have each : ∀ size, ∀ entry ∈ spellings, entry.1 ≠ pointer size ∧ entry.1 ≠ terminator := by
    intro size
    cases size <;> decide
  exact each size _ spelled

end BasicCode

namespace Signature

/-- Leaves out what stands inside brackets, when `depth` of them are open.
A pointer code is kept if it is not inside another one. -/
def outlineFrom (size : PointerSize) : Nat → Signature → Signature
  | _, [] => []
  | 0, code :: later =>
    code :: outlineFrom size (if code = BasicCode.pointer size then 1 else 0) later
  | depth + 1, code :: later =>
    if code = BasicCode.pointer size then outlineFrom size (depth + 2) later
    else if code = BasicCode.terminator then outlineFrom size depth later
    else outlineFrom size (depth + 1) later

/-- A signature without what is between each pointer code and its terminator,
and without these terminators. -/
def outline (size : PointerSize) (signature : Signature) : Signature :=
  outlineFrom size 0 signature

/-- Every pointer code has its terminator. -/
inductive Balanced (size : PointerSize) : Signature → Prop where
  | nil : Balanced size []
  | plain {code : BasicCode} {later : Signature} (isPlain : code.Plain size)
      (rest : Balanced size later) : Balanced size (code :: later)
  | pointer {pointee later : Signature} (inside : Balanced size pointee)
      (rest : Balanced size later) : Balanced size (pointer size pointee ++ later)

variable {size : PointerSize} {first second : Signature}

theorem Balanced.append (balanced : Balanced size first) (rest : Balanced size second) :
    Balanced size (first ++ second) := by
  induction balanced with
  | nil => exact rest
  | plain isPlain _ induction => exact .plain isPlain induction
  | pointer inside _ _ induction =>
      rw [List.append_assoc]
      exact .pointer inside induction

theorem Balanced.compositional : Compositional size (Balanced size) where
  nil := .nil
  append := .append
  pointer := fun inside => by simpa using Balanced.pointer inside .nil

@[simp] theorem outline_nil : outline size [] = [] := by
  simp [outline, outlineFrom]

theorem pointer_append (pointee rest : Signature) :
    pointer size pointee ++ rest =
      BasicCode.pointer size :: (pointee ++ BasicCode.terminator :: rest) := by
  simp [pointer]

theorem terminator_ne_pointer (size : PointerSize) :
    BasicCode.terminator ≠ BasicCode.pointer size := by
  cases size <;> decide

theorem Balanced.plain_of_singleton {code : BasicCode} (balanced : Balanced size [code]) :
    code.Plain size := by
  generalize single : [code] = signature at balanced
  cases balanced with
  | nil => cases single
  | plain isPlain _ =>
      cases single
      exact isPlain
  | pointer _ _ =>
      rw [pointer_append] at single
      simp at single

/-- Inside a bracket a balanced part is left out as a whole. -/
theorem Balanced.outlineFrom_succ (balanced : Balanced size first) (depth : Nat)
    (rest : Signature) :
    outlineFrom size (depth + 1) (first ++ rest) = outlineFrom size (depth + 1) rest := by
  induction balanced generalizing depth rest with
  | nil => simp
  | plain isPlain _ induction =>
      simp [outlineFrom, isPlain.1, isPlain.2, induction]
  | pointer _ _ insideInduction restInduction =>
      rw [List.append_assoc, pointer_append]
      simp [outlineFrom, insideInduction, terminator_ne_pointer, restInduction]

theorem outline_pointer {pointee : Signature} (inside : Balanced size pointee)
    (rest : Signature) :
    outline size (pointer size pointee ++ rest) = BasicCode.pointer size :: outline size rest := by
  rw [pointer_append]
  simp [outline, outlineFrom, inside.outlineFrom_succ 0, terminator_ne_pointer]

theorem outline_plain {code : BasicCode} (isPlain : code.Plain size) (rest : Signature) :
    outline size (code :: rest) = code :: outline size rest := by
  simp [outline, outlineFrom, isPlain.1]

theorem outline_append (balanced : Balanced size first) (rest : Signature) :
    outline size (first ++ rest) = outline size first ++ outline size rest := by
  induction balanced with
  | nil => rfl
  | plain isPlain _ induction =>
      rw [List.cons_append, outline_plain isPlain, outline_plain isPlain, induction,
        List.cons_append]
  | pointer inside _ _ induction =>
      rw [List.append_assoc, outline_pointer inside, outline_pointer inside, induction,
        List.cons_append]

end Signature

/-- The codes of a value that holds no other value: its own code if it is
basic, the address of a pointer, array or function, and the addresses that a
trait consists of. -/
def Shape.ownCodes? (size : PointerSize) : Shape → Option Signature
  | .basic code => some [code]
  | .pointer .. | .array .. | .function _ => some [BasicCode.pointer size]
  | .trait _ prototypes => some (prototypes.map fun _ => BasicCode.pointer size)
  | .struct .. | .aliasOf .. => none

/-- The codes that a shape shows by itself. -/
def Shape.outline (size : PointerSize) : Shape → Signature
  | .struct _ _ signature => signature.outline size
  | shape => (shape.ownCodes? size).getD []

namespace TypeStore

open Relation (ReflTransGen TransGen)

/-- The codes of values of some types that lie one after the other, with
structs and aliases looked through. -/
inductive Flattens (store : TypeStore) : List TypeNumber → Signature → Prop where
  | nil : Flattens store [] []
  | own {number : TypeNumber} {later : List TypeNumber} {shape : Shape} {codes others : Signature}
      (isShape : store.shapeAt number = .ok shape)
      (isOwn : shape.ownCodes? store.pointerSize = some codes)
      (rest : Flattens store later others) : Flattens store (number :: later) (codes ++ others)
  | aliasOf {number target : TypeNumber} {later : List TypeNumber} {name : String}
      {codes others : Signature}
      (isAlias : store.shapeAt number = .ok (.aliasOf name target))
      (inner : Flattens store [target] codes)
      (rest : Flattens store later others) : Flattens store (number :: later) (codes ++ others)
  | struct {number : TypeNumber} {later : List TypeNumber} {name : String} {fields : List Field}
      {signature codes others : Signature}
      (isStruct : store.shapeAt number = .ok (.struct name fields signature))
      (inner : Flattens store (fields.map Field.type) codes)
      (rest : Flattens store later others) : Flattens store (number :: later) (codes ++ others)

/-- The codes of a value of a shape: its own ones, or those of what it
holds. -/
def Shows (store : TypeStore) : Shape → Signature → Prop
  | .struct _ fields _, codes => store.Flattens (fields.map Field.type) codes
  | .aliasOf _ target, codes => store.Flattens [target] codes
  | shape, codes => shape.ownCodes? store.pointerSize = some codes

theorem shows_own {store : TypeStore} {shape : Shape} {codes others : Signature}
    (isOwn : shape.ownCodes? store.pointerSize = some codes) :
    store.Shows shape others ↔ codes = others := by
  have same : store.Shows shape others ↔ shape.ownCodes? store.pointerSize = some others := by
    cases shape with
    | struct _ _ _ => cases isOwn
    | aliasOf _ _ => cases isOwn
    | basic _ => exact Iff.rfl
    | pointer _ _ => exact Iff.rfl
    | array _ _ => exact Iff.rfl
    | function _ => exact Iff.rfl
    | trait _ _ => exact Iff.rfl
  rw [same, isOwn, Option.some_inj]

namespace Flattens

variable {store : TypeStore} {number : TypeNumber} {later : List TypeNumber}
  {codes others : Signature}

@[simp] theorem nil_iff : store.Flattens [] codes ↔ codes = [] := by
  constructor
  · intro flattens
    cases flattens
    rfl
  · intro empty
    rw [empty]
    exact .nil

theorem cons_iff {shape : Shape} (isShape : store.shapeAt number = .ok shape) :
    store.Flattens (number :: later) codes ↔
      ∃ first rest, codes = first ++ rest ∧ store.Shows shape first ∧
        store.Flattens later rest := by
  constructor
  · intro flattens
    cases flattens with
    | own isOther isOwn rest =>
        rw [isShape] at isOther
        cases isOther
        exact ⟨_, _, rfl, (shows_own isOwn).mpr rfl, rest⟩
    | aliasOf isAlias inner rest =>
        rw [isShape] at isAlias
        cases isAlias
        exact ⟨_, _, rfl, inner, rest⟩
    | struct isStruct inner rest =>
        rw [isShape] at isStruct
        cases isStruct
        exact ⟨_, _, rfl, inner, rest⟩
  · intro found
    obtain ⟨first, rest, same, shows, restFlattens⟩ := found
    rw [same]
    cases shape with
    | struct _ _ _ => exact .struct isShape shows restFlattens
    | aliasOf _ _ => exact .aliasOf isShape shows restFlattens
    | basic _ => exact .own isShape shows restFlattens
    | pointer _ _ => exact .own isShape shows restFlattens
    | array _ _ => exact .own isShape shows restFlattens
    | function _ => exact .own isShape shows restFlattens
    | trait _ _ => exact .own isShape shows restFlattens

theorem single_iff {shape : Shape} (isShape : store.shapeAt number = .ok shape) :
    store.Flattens [number] codes ↔ store.Shows shape codes := by
  simp [cons_iff isShape]

theorem struct_iff {name : String} {fields : List Field} {signature : Signature}
    (isStruct : store.shapeAt number = .ok (.struct name fields signature)) :
    store.Flattens [number] codes ↔ store.Flattens (fields.map Field.type) codes :=
  single_iff isStruct

theorem alias_iff {target : TypeNumber} {name : String}
    (isAlias : store.shapeAt number = .ok (.aliasOf name target)) :
    store.Flattens [number] codes ↔ store.Flattens [target] codes :=
  single_iff isAlias

theorem unique {types : List TypeNumber} (flattens : store.Flattens types codes)
    (alsoFlattens : store.Flattens types others) : codes = others := by
  induction flattens generalizing others with
  | nil => exact (nil_iff.mp alsoFlattens).symm
  | own isShape isOwn _ induction =>
      obtain ⟨first, rest, same, shows, restFlattens⟩ := (cons_iff isShape).mp alsoFlattens
      rw [same, (shows_own isOwn).mp shows, induction restFlattens]
  | aliasOf isAlias _ _ innerInduction restInduction =>
      obtain ⟨first, rest, same, shows, restFlattens⟩ := (cons_iff isAlias).mp alsoFlattens
      rw [same, innerInduction shows, restInduction restFlattens]
  | struct isStruct _ _ innerInduction restInduction =>
      obtain ⟨first, rest, same, shows, restFlattens⟩ := (cons_iff isStruct).mp alsoFlattens
      rw [same, innerInduction shows, restInduction restFlattens]

theorem exists_shape {types : List TypeNumber} (flattens : store.Flattens types codes) :
    ∀ number ∈ types, ∃ shape, store.shapeAt number = .ok shape := by
  induction flattens with
  | nil => exact nofun
  | own isShape _ _ induction => exact List.forall_mem_cons.mpr ⟨⟨_, isShape⟩, induction⟩
  | aliasOf isAlias _ _ _ induction => exact List.forall_mem_cons.mpr ⟨⟨_, isAlias⟩, induction⟩
  | struct isStruct _ _ _ induction => exact List.forall_mem_cons.mpr ⟨⟨_, isStruct⟩, induction⟩

/-- Types are flattened one by one. -/
theorem list_iff {types : List TypeNumber} :
    store.Flattens types codes ↔
      ∃ parts, List.Forall₂ (fun type part => store.Flattens [type] part) types parts ∧
        codes = parts.flatten := by
  induction types generalizing codes with
  | nil => simp
  | cons type types induction =>
      constructor
      · intro flattens
        obtain ⟨shape, isShape⟩ := flattens.exists_shape type List.mem_cons_self
        obtain ⟨first, rest, same, shows, restFlattens⟩ := (cons_iff isShape).mp flattens
        obtain ⟨parts, related, restSame⟩ := induction.mp restFlattens
        refine ⟨first :: parts, .cons ((single_iff isShape).mpr shows) related, ?_⟩
        rw [same, restSame, List.flatten_cons]
      · intro found
        obtain ⟨_, related, same⟩ := found
        cases related with
        | @cons _ first _ parts flattens related =>
            obtain ⟨shape, isShape⟩ := flattens.exists_shape type List.mem_cons_self
            apply (cons_iff isShape).mpr
            refine ⟨first, parts.flatten, ?_, (single_iff isShape).mp flattens, ?_⟩
            · rw [same, List.flatten_cons]
            · exact induction.mpr ⟨parts, related, rfl⟩

end Flattens

section Unalias

variable {store : TypeStore} {number target : TypeNumber}

/-- What holds of the targets of aliases, and is passed on from the target of
an alias to the alias, holds of every alias and its target. -/
theorem unalias_induction (property : TypeNumber → Prop)
    (resolves : store.unalias number = .ok target) (atEnd : property target)
    (through : ∀ outer name inner, store.shapeAt outer = .ok (.aliasOf name inner) →
      inner < outer → property inner → property outer) : property number := by
  induction number using Nat.strongRecOn with
  | ind number induction =>
      rw [unalias] at resolves
      obtain ⟨shape, isShape, resolves⟩ := Success.bind_iff.mp resolves
      cases shape with
      | aliasOf name inner =>
          dsimp only [TypeStore.descend] at resolves
          split at resolves
          · rename_i below
            exact through number name inner isShape below (induction inner below resolves)
          · cases resolves
      | basic _ => cases resolves; exact atEnd
      | pointer _ _ => cases resolves; exact atEnd
      | array _ _ => cases resolves; exact atEnd
      | struct _ _ _ => cases resolves; exact atEnd
      | function _ => cases resolves; exact atEnd
      | trait _ _ => cases resolves; exact atEnd

theorem unalias_walk (resolves : store.unalias number = .ok target) :
    ReflTransGen store.Embeds number target := by
  apply unalias_induction (ReflTransGen store.Embeds · target) resolves .refl
  intro outer name inner isAlias _ walk
  exact .head ⟨_, isAlias, List.mem_cons_self⟩ walk

theorem Flattens.unalias_iff (resolves : store.unalias number = .ok target) {codes : Signature} :
    store.Flattens [number] codes ↔ store.Flattens [target] codes := by
  apply unalias_induction
    (fun number => store.Flattens [number] codes ↔ store.Flattens [target] codes) resolves Iff.rfl
  intro outer name inner isAlias _ induction
  exact (Flattens.alias_iff isAlias).trans induction

theorem signature_unalias (resolves : store.unalias number = .ok target) :
    store.signature number = store.signature target := by
  apply unalias_induction (fun number => store.signature number = store.signature target)
    resolves rfl
  intro outer name inner isAlias below induction
  rw [← induction, signature, isAlias]
  exact dif_pos below

/-- Aliases stand for the same types while the store grows. -/
theorem Grows.unalias {next : TypeStore} (grows : store.Grows next)
    (resolves : store.unalias number = .ok target) : next.unalias number = .ok target := by
  apply unalias_induction (next.unalias · = .ok target) resolves
  · obtain ⟨shape, isShape, noAlias⟩ := unalias_not_alias resolves
    obtain ⟨later, isLater, becomes⟩ := grows.shapes target shape isShape
    apply unalias_of_not_alias isLater
    cases becomes with
    | same => exact noAlias
    | fields _ _ => rfl
  · intro outer name inner isAlias below induction
    rw [unalias_alias (grows.keeps isAlias rfl) below, induction]

end Unalias

/-- Pointer codes and terminators belong together in every signature. -/
structure Bracketed (store : TypeStore) : Prop where
  plain : ∀ number code, store.shapeAt number = .ok (.basic code) →
    code.Plain store.pointerSize
  balanced : ∀ number name fields signature,
    store.shapeAt number = .ok (.struct name fields signature) →
    signature.Balanced store.pointerSize

section Bracketed

variable {store : TypeStore} {number : TypeNumber}

theorem outline_addresses (size : PointerSize) (prototypes : List Prototype) :
    Signature.outline size (prototypes.flatMap fun _ => Signature.pointer size []) =
      prototypes.map fun _ => BasicCode.pointer size := by
  induction prototypes with
  | nil => rfl
  | cons prototype prototypes induction =>
      rw [List.flatMap_cons, Signature.outline_pointer .nil, induction, List.map_cons]

theorem Bracketed.carries (bracketed : store.Bracketed) :
    store.Carries store.pointerSize (Signature.Balanced store.pointerSize) where
  pointerSize := rfl
  basic := fun number code isBasic => .plain (bracketed.plain number code isBasic) .nil
  stored := bracketed.balanced

theorem Carries.bracketed {size : PointerSize}
    (carries : store.Carries size (Signature.Balanced size)) : store.Bracketed := by
  obtain ⟨rfl, basic, stored⟩ := carries
  refine ⟨?_, stored⟩
  intro number code isBasic
  exact (basic number code isBasic).plain_of_singleton

theorem Bracketed.signature_balanced (bracketed : store.Bracketed) {signature : Signature}
    (laidOut : store.signature number = .ok signature) :
    signature.Balanced store.pointerSize :=
  bracketed.carries.signature Signature.Balanced.compositional laidOut

theorem Bracketed.descend_balanced (bracketed : store.Bracketed) {mentioned : TypeNumber}
    {signature : Signature}
    (found : descend number (fun below _ => store.signature below) mentioned = .ok signature) :
    signature.Balanced store.pointerSize :=
  bracketed.signature_balanced (descend_success found).2

/-- The signature of a type shows what its shape shows. -/
theorem Bracketed.outline_signature (bracketed : store.Bracketed) {signature : Signature}
    (laidOut : store.signature number = .ok signature) {shape : Shape}
    (isShape : store.shapeAt number = .ok shape) (noAlias : shape.isAlias = false) :
    signature.outline store.pointerSize = shape.outline store.pointerSize := by
  have address : ∀ pointee : Signature, pointee.Balanced store.pointerSize →
      Signature.outline store.pointerSize (.pointer store.pointerSize pointee) =
        [BasicCode.pointer store.pointerSize] := by
    intro pointee inside
    simpa using Signature.outline_pointer inside []
  rw [TypeStore.signature, isShape] at laidOut
  obtain ⟨_, same, laidOut⟩ := Success.bind_iff.mp laidOut
  cases same
  cases shape with
  | basic code =>
      cases laidOut
      exact Signature.outline_plain (bracketed.plain number code isShape) []
  | pointer mode pointee =>
      obtain ⟨below, found, same⟩ := Success.bind_iff.mp laidOut
      cases same
      exact address below (bracketed.descend_balanced found)
  | array element capacity =>
      obtain ⟨below, found, same⟩ := Success.bind_iff.mp laidOut
      cases same
      exact address below (bracketed.descend_balanced found)
  | struct name fields stored =>
      cases laidOut
      rfl
  | function type =>
      cases laidOut
      exact address [] .nil
  | trait name prototypes =>
      cases laidOut
      exact outline_addresses _ prototypes
  | aliasOf name target => cases noAlias

end Bracketed

end TypeStore

end CBackend
