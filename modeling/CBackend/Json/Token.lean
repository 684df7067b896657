import CBackend.Json.Value

/-!
# JSON tokens
-/

namespace CBackend.Json

inductive Token where
  | openArray
  | closeArray
  | openObject
  | closeObject
  | comma
  | colon
  | null
  | bool (value : Bool)
  | number (value : Number)
  /-- A string that spells no text has none. -/
  | string (text : Option String)
deriving DecidableEq, Repr

end CBackend.Json
