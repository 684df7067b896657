import CBackend.Description.Basic
import CBackend.Description.Record
import CBackend.Json.Reader

/-!
# Reading descriptions

A description is read from a JSON value whose whole shape must fit before
any name in it is looked at.  What stands under a key that the description
or its target does not know is skipped and may be anything; everything else
must be sound and not nested too deep.
-/

namespace CBackend.Description

open Json (keyed record tagged withDefault required string? natural? list? word?)

/-- Arrays and objects may stand inside one another this many times. -/
def nestingLimit : Nat := 127

/-- One more than the greatest number of a register or block. -/
def numberBound : Nat := UInt32.size

/-- One more than the greatest capacity of an array. -/
def capacityBound : Nat := UInt64.size

/-- The words for the modes of pointers. -/
def pointerMode? : String → Option PointerMode
  | "safe" => some .safe
  | "unsafe" => some .raw
  | "nullable" => some (.nullable false)
  | "checked" => some (.nullable true)
  | _ => none

def fieldTerm? (typeTerm? : Json → Option TypeTerm) (value : Json) : Option FieldTerm := do
  match ← record ["name", "type"] value with
  | [name, type] =>
    return ⟨← withDefault "" string? name, ← required typeTerm? type⟩
  | _ => none

/-- Lists of parameters and results, given how types are read. -/
def signatureOf? (typeTerm? : Json → Option TypeTerm) (params results : Option Json) :
    Option SignatureTerm := do
  let fields := list? (fieldTerm? typeTerm?)
  return ⟨← withDefault [] fields params, ← withDefault [] fields results⟩

/-- A signature as a record of its own, given how types are read. -/
def signatureTerm? (typeTerm? : Json → Option TypeTerm) (value : Json) : Option SignatureTerm := do
  match ← record ["params", "results"] value with
  | [params, results] => signatureOf? typeTerm? params results
  | _ => none

def pointerTerm? (typeTerm? : Json → Option TypeTerm) (value : Json) : Option TypeTerm := do
  match ← keyed ["ptr", "kind"] value with
  | [pointee, kind] =>
    let mode ← withDefault .safe (word? Json.isNull pointerMode?) kind
    return .pointer mode (← required typeTerm? pointee)
  | _ => none

def arrayTerm? (typeTerm? : Json → Option TypeTerm) (value : Json) : Option TypeTerm := do
  match ← keyed ["array", "capacity"] value with
  | [element, capacity] =>
    return .array (← required typeTerm? element) (← required (natural? capacityBound) capacity)
  | _ => none

def functionTerm? (typeTerm? : Json → Option TypeTerm) (value : Json) : Option TypeTerm := do
  match ← keyed ["func"] value with
  | [signature] => return .function (← required (signatureTerm? typeTerm?) signature)
  | _ => none

/-- A type within a number of levels: a name, or else the first of pointer,
array and function that fits. -/
def typeTermWithin? : Nat → Json → Option TypeTerm
  | 0, _ => none
  | levels + 1, value =>
    match value with
    | .string text => text.map .named
    | _ =>
      pointerTerm? (typeTermWithin? levels) value <|>
        arrayTerm? (typeTermWithin? levels) value <|>
        functionTerm? (typeTermWithin? levels) value

/-- A type.  Each level of it is a level of nesting. -/
def typeTerm? : Json → Option TypeTerm := typeTermWithin? nestingLimit

def prototypeTerm? (value : Json) : Option PrototypeTerm := do
  match ← keyed ["name", "params", "results"] value with
  | [name, params, results] =>
    return ⟨← required string? name, ← signatureOf? typeTerm? params results⟩
  | _ => none

def structEntry? (value : Json) : Option TypeEntry := do
  match ← record ["name", "fields"] value with
  | [name, fields] =>
    return .struct (← required string? name)
      (← withDefault [] (list? (fieldTerm? typeTerm?)) fields)
  | _ => none

def traitEntry? (value : Json) : Option TypeEntry := do
  match ← record ["name", "prototypes"] value with
  | [name, prototypes] =>
    return .trait (← required string? name) (← withDefault [] (list? prototypeTerm?) prototypes)
  | _ => none

def aliasEntry? (value : Json) : Option TypeEntry := do
  match ← record ["name", "target"] value with
  | [name, target] =>
    return .aliasOf (← required string? name) (← required typeTerm? target)
  | _ => none

def typeEntry? (value : Json) : Option TypeEntry := do
  let (tag, rest) ← tagged "kind" value
  match ← string? tag with
  | "struct" => structEntry? rest
  | "trait" => traitEntry? rest
  | "alias" => aliasEntry? rest
  | _ => none

def number? : Json → Option Nat := natural? numberBound

def numbers? : Json → Option (List Nat) := list? number?

/-- The two registers that an instruction reads. -/
def operands? (value : Json) : Option (RegisterNumber × RegisterNumber) := do
  match ← numbers? value with
  | [left, right] => some (left, right)
  | _ => none

def compute? (operator : Operator) (value : Json) : Option InstructionTerm := do
  match ← record ["save", "source"] value with
  | [target, operands] =>
    let (left, right) ← required operands? operands
    return .compute operator (← required number? target) left right
  | _ => none

/-- The word of a test may also be the key of an empty object. -/
def test? : Json → Option Comparison :=
  word? (fun value => value.isNull || value.isEmptyObject) Comparison.ofWord?

def branch? (value : Json) : Option InstructionTerm := do
  match ← record ["to", "cond", "operands"] value with
  | [target, test, operands] =>
    let (left, right) ← required operands? operands
    return .branch (← required number? target) (← required test? test) left right
  | _ => none

def jump? (value : Json) : Option InstructionTerm := do
  match ← record ["to"] value with
  | [target] => return .jump (← required number? target)
  | _ => none

def invoke? (value : Json) : Option InstructionTerm := do
  match ← record ["callee", "args", "results"] value with
  | [callee, args, results] =>
    return .invoke (← required string? callee) (← withDefault [] numbers? args)
      (← withDefault [] numbers? results)
  | _ => none

def leave? (value : Json) : Option InstructionTerm := do
  let _ ← record [] value
  return .leave

/-- The operations of instructions, in order, each with how the rest of the
instruction is read. -/
def operations : List (String × (Json → Option InstructionTerm)) :=
  [("add", compute? .plus), ("sub", compute? .minus), ("mul", compute? .times),
   ("div", compute? .over), ("br", branch?), ("jmp", jump?), ("invoke", invoke?), ("ret", leave?)]

/-- An operation is given by its word or by its position. -/
def operation? : Json → Option (Json → Option InstructionTerm)
  | .string text => text.bind fun word => operations.lookup word
  | value => do
    let position ← natural? capacityBound value
    return (← operations[position]?).2

def instruction? (value : Json) : Option InstructionTerm := do
  let (tag, rest) ← tagged "op" value
  (← operation? tag) rest

def bodyOf? (registers blocks : Option Json) : Option BodyTerm := do
  return ⟨← withDefault [] (list? typeTerm?) registers,
    ← withDefault [] (list? (list? instruction?)) blocks⟩

def nativeEntry? (value : Json) : Option CalleeEntry := do
  match ← keyed ["name", "symbol", "params", "results"] value with
  | [name, symbol, params, results] =>
    return .native (← required string? name) (← required string? symbol)
      (← signatureOf? typeTerm? params results)
  | _ => none

/-- A callee with a body, which `make` puts together. -/
def bodiedEntry? (make : String → SignatureTerm → BodyTerm → CalleeEntry) (value : Json) :
    Option CalleeEntry := do
  match ← keyed ["name", "params", "results", "registers", "blocks"] value with
  | [name, params, results, registers, blocks] =>
    return make (← required string? name) (← signatureOf? typeTerm? params results)
      (← bodyOf? registers blocks)
  | _ => none

def calleeEntry? (value : Json) : Option CalleeEntry := do
  let (tag, rest) ← tagged "kind" value
  match ← string? tag with
  | "native" => nativeEntry? rest
  | "inline" => bodiedEntry? .inlined rest
  | "impl" => bodiedEntry? .compiled rest
  | _ => none

/-- The keys of an object must be texts even where its values are skipped. -/
def hasTextKeys : Json → Bool
  | .object members => members.all (·.key.isSome)
  | _ => true

def pointerSize? (value : Json) : Option PointerSize :=
  (natural? 256 value).bind PointerSize.ofBytes?

def target? (value : Json) : Option PointerSize := do
  guard (hasTextKeys value)
  match ← record ["pointer_width"] value with
  | [bytes] => withDefault default pointerSize? bytes
  | _ => none

/-- A list of entries, which stands one level inside the description. -/
def entries? (decode : Json → Option α) (value : Json) : Option (List α) := do
  guard (value.isSound && value.nesting < nestingLimit)
  list? decode value

def ofJson? (value : Json) : Option Description := do
  guard (hasTextKeys value)
  match ← record ["name", "target", "types", "callees"] value with
  | [name, target, types, callees] =>
    return {
      name := ← required string? name
      pointerSize := ← withDefault default target? target
      types := ← withDefault [] (entries? typeEntry?) types
      callees := ← withDefault [] (entries? calleeEntry?) callees }
  | _ => none

def ofText? (text : String) : Option Description := do
  ofJson? (← Json.ofText? text)

end CBackend.Description
