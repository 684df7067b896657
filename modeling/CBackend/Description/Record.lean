import CBackend.Json.Value

/-!
# Records in JSON

How the parts of a description are laid out in JSON.  A record is an object
with known keys, or an array of the values in the order of the keys.  A
known key may not be given twice; keys that are not known are ignored.  A
tagged value is an object with one more key for the tag, or an array that
begins with the tag.
-/

namespace CBackend.Json

/-- The value of a key: nothing if it is absent, and a failure if it is given
twice. -/
def lookupOnce (members : List Member) (key : String) : Option (Option Json) :=
  match members.filter (·.key == some key) with
  | [] => some none
  | [member] => some (some member.value)
  | _ => none

/-- The values of the keys in an object. -/
def keyed (keys : List String) : Json → Option (List (Option Json))
  | .object members => keys.mapM (lookupOnce members)
  | _ => none

/-- The values of the keys in an object, or by position in an array, which
may stop early. -/
def record (keys : List String) : Json → Option (List (Option Json))
  | .array items =>
    if items.length ≤ keys.length then
      some (items.map some ++ List.replicate (keys.length - items.length) none)
    else none
  | value => value.keyed keys

/-- The tag of a tagged value, and the value without its tag. -/
def tagged (key : String) : Json → Option (Json × Json)
  | .object members => do
    let tag ← (← lookupOnce members key)
    return (tag, .object (members.filter (·.key != some key)))
  | .array (tag :: items) => some (tag, .array items)
  | _ => none

def withDefault (default : α) (decode : Json → Option α) : Option Json → Option α
  | none => some default
  | some value => decode value

def required (decode : Json → Option α) (value : Option Json) : Option α := value.bind decode

def string? : Json → Option String
  | .string text => text
  | _ => none

def natural? (bound : Nat) : Json → Option Nat
  | .number value => value.natural? bound
  | _ => none

/-- An array whose items are all of one form. -/
def list? (decode : Json → Option α) : Json → Option (List α)
  | .array items => items.mapM decode
  | _ => none

def isNull : Json → Bool
  | .null => true
  | _ => false

def isEmptyObject : Json → Bool
  | .object [] => true
  | _ => false

/-- A word that chooses one of several things: the word itself, or an object
with the word as its only key and a value without content. -/
def word? (isVoid : Json → Bool) (choose : String → Option α) : Json → Option α
  | .string text => text.bind choose
  | .object [⟨key, value⟩] => if isVoid value then key.bind choose else none
  | _ => none

end CBackend.Json
