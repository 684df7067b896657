import CBackend.Json.Number

/-!
# JSON values

A value keeps what its text says without deciding whether it can be used.  A
string whose escapes do not spell a text, because half of a surrogate pair
is missing, is kept as `none`; a number is kept as it is written.  A member
of an object may repeat the key of another one.

A value is sound if every string in it is a text and every number is finite
in double precision.
-/

namespace CBackend

mutual

inductive Json where
  | null
  | bool (value : Bool)
  | number (value : Json.Number)
  | string (text : Option String)
  | array (items : List Json)
  | object (members : List Json.Member)

structure Json.Member where
  key : Option String
  value : Json

end

namespace Json

mutual

def isSound : Json → Bool
  | .null | .bool _ => true
  | .number value => value.isFinite
  | .string text => text.isSome
  | .array items => itemsSound items
  | .object members => membersSound members

def itemsSound : List Json → Bool
  | [] => true
  | item :: later => item.isSound && itemsSound later

def membersSound : List Member → Bool
  | [] => true
  | ⟨key, value⟩ :: later => key.isSome && value.isSound && membersSound later

end

mutual

/-- How many arrays and objects stand inside one another. -/
def nesting : Json → Nat
  | .null | .bool _ | .number _ | .string _ => 0
  | .array items => 1 + itemsNesting items
  | .object members => 1 + membersNesting members

def itemsNesting : List Json → Nat
  | [] => 0
  | item :: later => max item.nesting (itemsNesting later)

def membersNesting : List Member → Nat
  | [] => 0
  | ⟨_, value⟩ :: later => max value.nesting (membersNesting later)

end

end Json

end CBackend
