import CBackend.PointerSize

/-!
# Basic codes

A basic type is one byte.  The high bits choose a family and the low three
bits a size: zero means no bytes at all, and `n + 1` means `2 ^ n` bytes.

Ten codes are defined, in three bands: four unsigned, four signed and two
floating ones.  The code of a pointer depends on the target and lies outside
the bands; the code zero ends the signature of what a pointer points to.
-/

namespace CBackend

structure BasicCode where
  code : UInt8
deriving DecidableEq, Repr

inductive Band where
  | unsigned
  | signed
  | float
deriving DecidableEq, Repr

namespace BasicCode

/-- Ends the part of a signature that a pointer points to. -/
def terminator : BasicCode := ⟨0⟩

/-- The pointer-sized code of a target. -/
def pointer : PointerSize → BasicCode
  | .four => ⟨0o43⟩
  | .eight => ⟨0o44⟩

def family (basic : BasicCode) : Nat := basic.code.toNat / 8

def sizeBits (basic : BasicCode) : Nat := basic.code.toNat % 8

/-- The number of bytes that the low bits stand for. -/
def bytes (basic : BasicCode) : Nat :=
  match basic.sizeBits with
  | 0 => 0
  | log + 1 => Nat.pow 2 log

/-- The band of a defined code.  Floating numbers of one and two bytes are
reserved and belong to none. -/
def band? (basic : BasicCode) : Option Band :=
  match basic.family, basic.sizeBits with
  | 1, 1 | 1, 2 | 1, 3 | 1, 4 => some .unsigned
  | 2, 1 | 2, 2 | 2, 3 | 2, 4 => some .signed
  | 3, 3 | 3, 4 => some .float
  | _, _ => none

/-- Whether a code stands for a pointer of some target, of four bytes or
more. -/
def isPointer (basic : BasicCode) : Bool :=
  basic.family == 4 && 3 ≤ basic.sizeBits

/-- The defined codes, each with its mnemonic and its name in C. -/
def spellings : List (BasicCode × String × String) :=
  [(⟨0o11⟩, "u8", "uint8_t"), (⟨0o12⟩, "u16", "uint16_t"), (⟨0o13⟩, "u32", "uint32_t"),
   (⟨0o14⟩, "u64", "uint64_t"), (⟨0o21⟩, "i8", "int8_t"), (⟨0o22⟩, "i16", "int16_t"),
   (⟨0o23⟩, "i32", "int32_t"), (⟨0o24⟩, "i64", "int64_t"), (⟨0o33⟩, "f32", "float"),
   (⟨0o34⟩, "f64", "double")]

/-- The short name of a code in identifiers and listings.  Only the defined
codes have one of their own. -/
def mnemonic (basic : BasicCode) : String :=
  match spellings.lookup basic with
  | some (name, _) => name
  | none =>
    if basic = terminator then "end"
    else if basic.isPointer then "uptr"
    else "?"

def ofMnemonic? (name : String) : Option BasicCode :=
  (spellings.find? fun (_, short, _) => short == name).map (·.1)

def cName? (basic : BasicCode) : Option String :=
  (spellings.lookup basic).map (·.2)

end BasicCode

end CBackend
