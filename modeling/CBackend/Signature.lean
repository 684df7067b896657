import CBackend.BasicCode

/-!
# Signatures

A signature is the flattened layout of a type: the codes it consists of, in
order.  A pointer is written as the pointer code of the target, the
signature of what it points to, and the terminator.
-/

namespace CBackend

abbrev Signature := List BasicCode

namespace Signature

/-- The signature of a pointer to something of signature `pointee`. -/
def pointer (size : PointerSize) (pointee : Signature) : Signature :=
  BasicCode.pointer size :: pointee ++ [BasicCode.terminator]

/-- Mnemonics between brackets. -/
def text (signature : Signature) : String :=
  "[" ++ " ".intercalate (signature.map BasicCode.mnemonic) ++ "]"

end Signature

end CBackend
