import CBackend.Report

/-!
# Sizes of pointers

The size of a pointer is the only property of the target machine that the
type model depends on.  It is given, never taken from the host.
-/

namespace CBackend

/-- The size of a pointer on the target machine. -/
inductive PointerSize where
  | four
  | eight
deriving DecidableEq, Repr

namespace PointerSize

instance : Inhabited PointerSize := ⟨.eight⟩

def bytes : PointerSize → Nat
  | .four => 4
  | .eight => 8

/-- The size of a pointer of the given number of bytes, if there is one. -/
def ofBytes? : Nat → Option PointerSize
  | 4 => some .four
  | 8 => some .eight
  | _ => none

/-- The size of a pointer of the given number of bytes, or the report of an
unsupported one. -/
def ofBytes (bytes : Nat) : Except Report PointerSize :=
  match ofBytes? bytes with
  | some size => .ok size
  | none => .error (.internal s!"unsupported pointer width {bytes}, expected 4 or 8")

end PointerSize

end CBackend
