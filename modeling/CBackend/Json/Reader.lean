import CBackend.Json.Scan

/-!
# Reading JSON values

Tokens are read one after the other by an automaton with a stack of the
arrays and objects that are still open.
-/

namespace CBackend.Json

/-- An open array or object, with what it holds so far in reverse, and the
key whose value is being read. -/
inductive Frame where
  | array (before : List Json)
  | object (before : List Member) (key : Option String)

inductive State where
  | value (stack : List Frame)
  /-- The first item of an array, or its end. -/
  | firstItem (stack : List Frame)
  /-- The first key of an object, or its end. -/
  | firstKey (stack : List Frame)
  /-- A key, after the members read before. -/
  | key (before : List Member) (stack : List Frame)
  | colon (before : List Member) (key : Option String) (stack : List Frame)
  /-- After a value: whatever goes on with what is open. -/
  | complete (value : Json) (stack : List Frame)

def begin (stack : List Frame) : Token → Option State
  | .null => some (.complete .null stack)
  | .bool value => some (.complete (.bool value) stack)
  | .number value => some (.complete (.number value) stack)
  | .string text => some (.complete (.string text) stack)
  | .openArray => some (.firstItem stack)
  | .openObject => some (.firstKey stack)
  | .closeArray | .closeObject | .comma | .colon => none

def step : State → Token → Option State
  | .value stack, token => begin stack token
  | .firstItem stack, .closeArray => some (.complete (.array []) stack)
  | .firstItem stack, token => begin (.array [] :: stack) token
  | .firstKey stack, .closeObject => some (.complete (.object []) stack)
  | .firstKey stack, .string key => some (.colon [] key stack)
  | .key before stack, .string key => some (.colon before key stack)
  | .colon before key stack, .colon => some (.value (.object before key :: stack))
  | .complete value (.array before :: stack), .comma =>
    some (.value (.array (value :: before) :: stack))
  | .complete value (.array before :: stack), .closeArray =>
    some (.complete (.array (value :: before).reverse) stack)
  | .complete value (.object before key :: stack), .comma =>
    some (.key (⟨key, value⟩ :: before) stack)
  | .complete value (.object before key :: stack), .closeObject =>
    some (.complete (.object (⟨key, value⟩ :: before).reverse) stack)
  | _, _ => none

/-- The single value that a sequence of tokens spells. -/
def ofTokens? (tokens : List Token) : Option Json := do
  match ← tokens.foldlM step (.value []) with
  | .complete value [] => some value
  | _ => none

def ofText? (text : String) : Option Json := do
  ofTokens? (← Scan.tokens text.toList)

end CBackend.Json
