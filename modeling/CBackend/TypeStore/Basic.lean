import CBackend.TypeStore.Error

/-!
# Stores of types

A store holds the types of one program in the order in which they came, and
that order is the order of everything generated from it.  A new type
mentions only types that are already there; the one exception is a struct
that was announced, whose fields come later.

Names and basic codes are found by searching the store from its beginning.
An index of names and one of codes, kept beside the store, find the same:
`Proofs.Program.Indexes` has the operations with indexes and shows that they
give the same answers.
-/

namespace CBackend

structure TypeStore where
  pointerSize : PointerSize
  shapes : List Shape
deriving DecidableEq, Repr

namespace TypeStore

def empty (pointerSize : PointerSize) : TypeStore := ⟨pointerSize, []⟩

def size (store : TypeStore) : Nat := store.shapes.length

def shapeAt (store : TypeStore) (number : TypeNumber) : Except StoreError Shape :=
  match store.shapes[number]? with
  | some shape => .ok shape
  | none => .error (.missing number)

theorem shapeAt_ok_iff {store : TypeStore} {number : TypeNumber} {shape : Shape} :
    store.shapeAt number = .ok shape ↔ store.shapes[number]? = some shape := by
  unfold shapeAt
  cases store.shapes[number]? with
  | none => simp
  | some found => simp

def find? (store : TypeStore) (name : String) : Option TypeNumber :=
  store.shapes.findIdx? fun shape => shape.name? = some name

/-- Puts a shape at the end, without any check. -/
def append (store : TypeStore) (shape : Shape) : TypeNumber × TypeStore :=
  (store.size, { store with shapes := store.shapes ++ [shape] })

/-- The type of a basic code, which is added if it is not there yet. -/
def internBasic (store : TypeStore) (code : BasicCode) : TypeNumber × TypeStore :=
  match store.shapes.findIdx? (· = .basic code) with
  | some number => (number, store)
  | none => store.append (.basic code)

/-- Puts a shape at the end if its name, supposing it has one, is free. -/
def appendNamed (store : TypeStore) (shape : Shape) : Except StoreError (TypeNumber × TypeStore) :=
  match shape.name? with
  | none => .ok (store.append shape)
  | some name =>
    if (store.find? name).isSome then .error (.nameTaken name)
    else .ok (store.append shape)

def announce (store : TypeStore) (name : String) : Except StoreError (TypeNumber × TypeStore) :=
  store.appendNamed (.struct name [] [])

def replace (store : TypeStore) (number : TypeNumber) (shape : Shape) : TypeStore :=
  { store with shapes := store.shapes.set number shape }

end TypeStore

end CBackend
