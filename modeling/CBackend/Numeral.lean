/-!
# Numerals

Spellings of natural numbers in the bases the outputs use, and the numbers
that decimal digits spell.
-/

namespace CBackend.Numeral

/-- Lower-case hexadecimal digits, without a mark of the base. -/
def hex (n : Nat) : String := String.ofList (Nat.toDigits 16 n)

/-- Octal digits after the mark of the base. -/
def octal (n : Nat) : String := "0o" ++ String.ofList (Nat.toDigits 8 n)

def digitValue (digit : Char) : Nat := digit.toNat - '0'.toNat

def ofDigits (digits : List Char) : Nat :=
  digits.foldl (fun value digit => 10 * value + digitValue digit) 0

end CBackend.Numeral
