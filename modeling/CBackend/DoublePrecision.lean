/-!
# Double precision

A number in double precision has 53 significant bits.  Rounding goes to the
nearest such number, and from halfway between two of them to the one whose
last bit is zero.  There is a greatest finite number, and whatever would be
rounded beyond it is infinite.

Only natural numbers are needed here, so that rounding stays exact.
-/

namespace CBackend.DoublePrecision

def significantBits : Nat := 53

/-- The least number that is rounded to infinity: it lies halfway between
the greatest finite number and the next power of two. -/
def overflow : Nat := Nat.pow 2 1024 - Nat.pow 2 970

/-- The multiple of a unit that is nearest to a number; of two equally near
ones, the even multiple. -/
def nearestMultiple (unit value : Nat) : Nat :=
  let quotient := value / unit
  let rest := value % unit
  let roundsUp := unit < 2 * rest ∨ unit = 2 * rest ∧ quotient % 2 = 1
  (if roundsUp then quotient + 1 else quotient) * unit

/-- A natural number rounded to double precision, as if there were no
greatest finite number. -/
def round (value : Nat) : Nat :=
  nearestMultiple (Nat.pow 2 (value.log2 + 1 - significantBits)) value

theorem nearestMultiple_one (value : Nat) : nearestMultiple 1 value = value := by
  simp [nearestMultiple, Nat.mod_one]

/-- Numbers that fit into the significant bits are kept. -/
theorem round_of_lt {value : Nat} (small : value < Nat.pow 2 significantBits) :
    round value = value := by
  have bits : value.log2 + 1 - significantBits = 0 := by
    by_cases zero : value = 0
    · subst zero
      decide
    · have few := (Nat.log2_lt zero).mpr small
      omega
  rw [round, bits]
  exact nearestMultiple_one value

end CBackend.DoublePrecision
