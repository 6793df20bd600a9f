/-!
# Rounding a quotient

Every conversion between decimal text and binary64 numbers comes down to rounding
a quotient of natural numbers to a nearest integer, with a half going to the even
neighbour.
-/

namespace RegionalCalculator
namespace Number

/-- The integer nearest to `num / den`; a half goes to the even neighbour. -/
def nearestEven (num den : Nat) : Nat :=
  let quotient := num / den
  let remainder := num % den
  if 2 * remainder < den ∨ (2 * remainder = den ∧ quotient % 2 = 0) then
    quotient
  else
    quotient + 1

theorem nearestEven_mul_left {den : Nat} (hden : 0 < den) (n : Nat) :
    nearestEven (den * n) den = n := by
  simp [nearestEven, Nat.mul_div_cancel_left n hden, hden]

theorem nearestEven_le (num den : Nat) : nearestEven num den <= num / den + 1 := by
  simp only [nearestEven]
  split <;> omega

end Number
end RegionalCalculator
