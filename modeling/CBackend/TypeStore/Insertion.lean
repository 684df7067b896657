import CBackend.TypeStore.Embedding
import CBackend.TypeStore.Layout

/-!
# Inserting types and fields

A type is inserted only when everything it mentions is there and its name is
free.  A field is given to a struct only when the struct would not come to
hold itself by value.  A failed insertion gives no new store.
-/

namespace CBackend

/-- The first element that also stands earlier in the list. -/
def firstRepeat [DecidableEq α] (seen : List α) : List α → Option α
  | [] => none
  | item :: later => if item ∈ seen then some item else firstRepeat (item :: seen) later

namespace TypeStore

/-- Gives a struct one more field, and appends the layout of the field to
the layout of the struct. -/
def extend (store : TypeStore) (number : TypeNumber) (field : Field) :
    Except StoreError TypeStore := do
  match ← store.shapeAt number with
  | .struct name fields signature =>
    if fields.any (·.name == field.name) then
      throw (.fieldTaken name field.name)
    discard (store.shapeAt field.type)
    if let some walk ← store.walk? field.type number then
      throw (.selfEmbedding name field.name walk)
    let added ← store.signature field.type
    return store.replace number (.struct name (fields ++ [field]) (signature ++ added))
  | other => throw (.notStruct number other.word)

/-- Inserts a struct field by field, so that its layout is always derived. -/
def insertStruct (store : TypeStore) (name : String) (fields : List Field) :
    Except StoreError (TypeNumber × TypeStore) := do
  if let some field := firstRepeat [] (fields.map Field.name) then
    throw (.fieldTaken name field)
  let (number, announced) ← store.announce name
  let filled ← fields.foldlM (fun store field => store.extend number field) announced
  return (number, filled)

/-- Inserts a type that mentions only existing ones.  A basic code is shared;
the given signature of a struct is not used. -/
def insert (store : TypeStore) (shape : Shape) : Except StoreError (TypeNumber × TypeStore) := do
  shape.mentions.forM fun number => discard (store.shapeAt number)
  match shape with
  | .struct name fields _ => store.insertStruct name fields
  | .basic code => return store.internBasic code
  | other => store.appendNamed other

end TypeStore

end CBackend
