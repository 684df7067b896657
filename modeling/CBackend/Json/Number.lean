import CBackend.DoublePrecision
import CBackend.Numeral

/-!
# JSON numbers

A number keeps the digits it is written with.  It can be taken as a natural
number, or as a number in double precision.

In double precision a number is a significand times a power of ten.  The
significand is a word of 64 bits: it takes the digits in order as long as it
has room for them.  Significand and power are rounded first, and then their
product is rounded once more, so that the number found need not be the one
nearest to what is written.
-/

namespace CBackend.Json

/-- A number as it is written, in decimal digits. -/
structure Number where
  negative : Bool
  whole : List Char
  /-- The digits after the point, of which there is at least one if there is
  a point. -/
  fraction : List Char
  exponent : Option Int
deriving DecidableEq, Repr

namespace Number

/-- Whether a number is written with neither a fraction nor an exponent. -/
def isInteger (number : Number) : Bool := number.fraction.isEmpty && number.exponent.isNone

/-- The value of an unsigned integer below a bound. -/
def natural? (bound : Nat) (number : Number) : Option Nat :=
  let value := Numeral.ofDigits number.whole
  if number.isInteger && !number.negative && value < bound then some value else none

def significandBound : Nat := UInt64.size

/-- The greatest exponent of a power of ten that is finite in double
precision. -/
def greatestPower : Nat := 308

/-- Takes digits into a significand as long as it has room for them.  Gives
the significand and the number of digits that were left over. -/
def gather (significand : Nat) : List Char → Nat × Nat
  | [] => (significand, 0)
  | digit :: later =>
    let extended := 10 * significand + Numeral.digitValue digit
    if extended < significandBound then gather extended later
    else (significand, later.length + 1)

/-- The significand of a number and the exponent of its power of ten.  A
digit left over from the whole part still makes the power greater by one;
one from the fraction has no effect. -/
def scaled (number : Number) : Nat × Int :=
  let (upper, wholeLeft) := gather 0 number.whole
  let (significand, fractionLeft) := gather upper number.fraction
  let shift : Int := wholeLeft + fractionLeft - number.fraction.length
  (significand, shift + number.exponent.getD 0)

def isFinite (number : Number) : Bool :=
  match number.scaled with
  | (_, .negSucc _) => true
  | (significand, .ofNat power) =>
    significand == 0 || (power ≤ greatestPower &&
      DoublePrecision.round significand * DoublePrecision.round (Nat.pow 10 power) <
        DoublePrecision.overflow)

end Number

end CBackend.Json
