import Mathlib.Algebra.Order.Field.Rat
import Mathlib.Algebra.Ring.Int.Parity
import Mathlib.Tactic.FieldSimp
import Mathlib.Tactic.Linarith
import RegionalCalculator.Proofs.Number.Shortest
import RegionalCalculator.Proofs.Number.SignMagnitude

/-!
# Integers among the numbers

The exact value of a finite number is a quotient with the denominator `2 ^ 1074`. The integer
nearest to it, a half going to the even one, is again the value of a finite number: from a
certain size on all numbers are integers, and below that size all integers are numbers.
-/

namespace RegionalCalculator
namespace Number

/-!
# Exact values
-/

/-- The exact value of a finite number. -/
def toRat (x : Float) : Rat :=
  (if isNegative x then -1 else 1) * (units (magnitudeBits x) / unitsPerOne)

def nearestInteger (x : Float) : Int :=
  (if isNegative x then -1 else 1) * nearestEven (units (magnitudeBits x)) unitsPerOne

/-- No integer is nearer to `q`, and if another one is as near, then `n` is the even one. -/
structure IsNearestInteger (q : Rat) (n : Int) : Prop where
  nearest : forall m : Int, |q - n| <= |q - m|
  even : forall m : Int, m ≠ n -> |q - m| = |q - n| -> Even n

theorem unitsPerOne_pos : 0 < unitsPerOne := by
  unfold unitsPerOne
  generalize 1074 = n
  rw [Nat.shiftLeft_eq, Nat.one_mul]
  exact Nat.two_pow_pos n

theorem units_inj {a b : Nat} (ha : a <= infinityBits) (hb : b <= infinityBits)
    (h : units a = units b) : a = b := by
  have hread (bits : Nat) (hbits : bits <= infinityBits) :
      nearest (units bits) unitsPerOne = bits :=
    nearest_of_exact hbits unitsPerOne_pos (Nat.mul_comm _ _)
  rw [← hread a ha, ← hread b hb, h]

theorem eq_of_toRat {x y : Float} (hx : magnitudeBits x <= infinityBits)
    (hy : magnitudeBits y <= infinityBits) (hsign : isNegative x = isNegative y)
    (h : toRat x = toRat y) : x = y := by
  have hone : (unitsPerOne : Rat) ≠ 0 := Nat.cast_ne_zero.mpr (Nat.ne_of_gt unitsPerOne_pos)
  apply eq_of_sign_of_magnitude hsign
  apply units_inj hx hy
  unfold toRat at h
  rw [hsign] at h
  have hfactor : (if isNegative y then -1 else 1 : Rat) ≠ 0 := by
    split <;> norm_num
  have hquotient := mul_left_cancel₀ hfactor h
  exact Nat.cast_injective ((div_left_inj' hone).mp hquotient)

/-!
# Nearest integers
-/

section

variable {q : Rat} {n m : Int}

theorem one_le_abs_add_abs (h : m ≠ n) : 1 <= |q - n| + |q - m| := by
  have hint : 1 <= |n - m| := Int.one_le_abs (sub_ne_zero.mpr h.symm)
  have hrat : (1 : Rat) <= |(n : Rat) - m| := by
    exact_mod_cast hint
  have htriangle := abs_sub_le (n : Rat) q m
  rw [abs_sub_comm (n : Rat) q] at htriangle
  linarith

theorem isNearestInteger_of_abs_sub_le (h : |q - n| <= 1 / 2)
    (heven : |q - n| = 1 / 2 -> Even n) : IsNearestInteger q n := by
  constructor
  · intro m
    by_cases hm : m = n
    · rw [hm]
    · have hapart := one_le_abs_add_abs (q := q) hm
      linarith
  · intro m hm htie
    have hapart := one_le_abs_add_abs (q := q) hm
    apply heven
    linarith

theorem IsNearestInteger.neg (h : IsNearestInteger q n) : IsNearestInteger (-q) (-n) := by
  have hmirror (k : Int) : |-q - ((-k : Int) : Rat)| = |q - k| := by
    rw [Int.cast_neg, ← abs_neg (q - k)]
    congr 1
    ring
  constructor
  · intro m
    rw [hmirror, ← neg_neg m, hmirror]
    exact h.nearest (-m)
  · intro m hm htie
    rw [hmirror, ← neg_neg m, hmirror] at htie
    have hother : -m ≠ n := fun heq => hm (by rw [← heq, neg_neg])
    exact (h.even (-m) hother htie).neg

theorem IsNearestInteger.eq_of_integer (h : IsNearestInteger q n) (hq : q = m) : n = m := by
  have hle := h.nearest m
  rw [hq, sub_self, abs_zero] at hle
  have hzero := abs_eq_zero.mp (le_antisymm hle (abs_nonneg _))
  exact Int.cast_injective (sub_eq_zero.mp hzero).symm

end

theorem nearestEven_cases (num den : Nat) :
    (nearestEven num den = num / den ∧
        (2 * (num % den) < den ∨ 2 * (num % den) = den ∧ num / den % 2 = 0)) ∨
      (nearestEven num den = num / den + 1 ∧
        (den < 2 * (num % den) ∨ 2 * (num % den) = den ∧ num / den % 2 = 1)) := by
  simp only [nearestEven]
  split
  · rename_i hdown
    exact Or.inl ⟨rfl, hdown⟩
  · rename_i hup
    refine Or.inr ⟨rfl, ?_⟩
    omega

theorem two_mul_abs_nearestEven_le (num : Nat) {den : Nat} (hden : 0 < den) :
    2 * |(num : Int) - nearestEven num den * den| <= den ∧
      (2 * |(num : Int) - nearestEven num den * den| = den -> Even (nearestEven num den)) := by
  have hdiv : (den : Int) * (num / den : Nat) + (num % den : Nat) = num := by
    exact_mod_cast Nat.div_add_mod num den
  have hlt := Nat.mod_lt num hden
  rcases nearestEven_cases num den with ⟨hround, hcase⟩ | ⟨hround, hcase⟩
  · have hdist : (num : Int) - nearestEven num den * den = (num % den : Nat) := by
      rw [hround]
      linarith
    rw [hdist, abs_of_nonneg (Int.natCast_nonneg _), hround, Nat.even_iff]
    omega
  · have hdist : (num : Int) - nearestEven num den * den = (num % den : Nat) - den := by
      rw [hround, Nat.cast_add, Nat.cast_one]
      linarith
    have hneg : ((num % den : Nat) : Int) - den <= 0 := by omega
    rw [hdist, abs_of_nonpos hneg, hround, Nat.even_iff]
    omega

theorem isNearestInteger_nearestEven (num : Nat) {den : Nat} (hden : 0 < den) :
    IsNearestInteger (num / den) (nearestEven num den : Nat) := by
  rcases two_mul_abs_nearestEven_le num hden with ⟨hle, heven⟩
  have hpos : (0 : Rat) < den := Nat.cast_pos.mpr hden
  have hscale : |(num : Rat) / den - ((nearestEven num den : Nat) : Int)| =
      (|(num : Int) - nearestEven num den * den| : Int) / den := by
    rw [Int.cast_abs, ← abs_of_pos hpos, ← abs_div, abs_of_pos hpos]
    congr 1
    push_cast
    field_simp
  apply isNearestInteger_of_abs_sub_le
  · rw [hscale, div_le_div_iff₀ hpos two_pos, mul_comm, one_mul]
    exact_mod_cast hle
  · rw [hscale, div_eq_div_iff hpos.ne' two_ne_zero, mul_comm, one_mul]
    intro htie
    exact (Int.even_coe_nat _).mpr (heven (by exact_mod_cast htie))

theorem isNearestInteger_nearestInteger (x : Float) :
    IsNearestInteger (toRat x) (nearestInteger x) := by
  have hround := isNearestInteger_nearestEven (units (magnitudeBits x)) unitsPerOne_pos
  unfold toRat nearestInteger
  cases isNegative x with
  | true => simpa using hround.neg
  | false => simpa using hround

/-!
# Integers as magnitudes
-/

theorem shiftLeft_eq_mul_unitsPerOne (n : Nat) : n <<< 1074 = n * unitsPerOne := by
  unfold unitsPerOne
  generalize 1074 = k
  rw [Nat.shiftLeft_eq, Nat.shiftLeft_eq, Nat.one_mul]

theorem units_of_mantissa (e : Nat) {m : Nat} (hlow : 1 <<< 52 <= m) (hhigh : m < 1 <<< 53) :
    units (e <<< 52 + m) = m <<< e := by
  have hexponent : exponent (e <<< 52 + m) = e := by
    rw [Nat.shiftLeft_eq] at hlow hhigh
    unfold exponent
    rw [Nat.shiftRight_eq_div_pow, Nat.shiftLeft_eq]
    omega
  unfold units mantissa
  rw [hexponent, Nat.add_sub_cancel_left]

theorem shiftLeft_full {n : Nat} (hzero : n ≠ 0) (h : n < 1 <<< 53) :
    1 <<< 52 <= n <<< (52 - n.log2) ∧ n <<< (52 - n.log2) < 1 <<< 53 := by
  have hlog : n.log2 < 53 := (Nat.log2_lt hzero).mpr h
  have hshift (k : Nat) (hk : n.log2 + k = 52) :
      2 ^ 52 <= n * 2 ^ k ∧ n * 2 ^ k < 2 ^ 53 := by
    constructor
    · rw [← hk, Nat.pow_add]
      exact Nat.mul_le_mul_right _ (Nat.log2_self_le hzero)
    · have hlt : n * 2 ^ k < 2 ^ (n.log2 + 1) * 2 ^ k :=
        Nat.mul_lt_mul_of_pos_right Nat.lt_log2_self (Nat.two_pow_pos k)
      rw [← Nat.pow_add, Nat.add_right_comm, hk] at hlt
      exact hlt
  rw [Nat.shiftLeft_eq, Nat.shiftLeft_eq, Nat.shiftLeft_eq, Nat.one_mul, Nat.one_mul]
  exact hshift (52 - n.log2) (by omega)

theorem exists_units_eq {n : Nat} (h : n < 1 <<< 53) :
    exists bits, bits < infinityBits ∧ units bits = n * unitsPerOne := by
  by_cases hzero : n = 0
  · refine ⟨0, by decide, ?_⟩
    rw [hzero, Nat.zero_mul]
    rfl
  · have hlog : n.log2 < 53 := (Nat.log2_lt hzero).mpr h
    rcases shiftLeft_full hzero h with ⟨hlow, hhigh⟩
    refine ⟨(1022 + n.log2) <<< 52 + n <<< (52 - n.log2), ?_, ?_⟩
    · generalize n <<< (52 - n.log2) = m at hhigh
      unfold infinityBits
      rw [Nat.shiftLeft_eq] at hhigh ⊢
      rw [Nat.shiftLeft_eq]
      omega
    · have hplaces : 52 - n.log2 + (1022 + n.log2) = 1074 := by omega
      rw [units_of_mantissa _ hlow hhigh, ← Nat.shiftLeft_add, hplaces,
        shiftLeft_eq_mul_unitsPerOne]

theorem units_div_unitsPerOne_lt {bits : Nat} (h : exponent bits < 1074) :
    units bits / unitsPerOne < 1 <<< 52 := by
  have hmantissa := mantissa_lt bits
  unfold units unitsPerOne
  generalize mantissa bits = m at hmantissa
  generalize exponent bits = e at h
  generalize 1074 = k at h
  rw [Nat.shiftLeft_eq] at hmantissa
  rw [Nat.shiftLeft_eq, Nat.shiftLeft_eq, Nat.shiftLeft_eq, Nat.one_mul, Nat.one_mul,
    Nat.div_lt_iff_lt_mul (Nat.two_pow_pos k)]
  calc
    m * 2 ^ e < 1 * 2 ^ 53 * 2 ^ e := Nat.mul_lt_mul_of_pos_right hmantissa (Nat.two_pow_pos e)
    _ = 2 ^ 52 * 2 ^ (e + 1) := by rw [Nat.pow_succ 2 e]; omega
    _ <= 2 ^ 52 * 2 ^ k := Nat.mul_le_mul_left _ (Nat.pow_le_pow_right two_pos h)

/-- The magnitude of a number, rounded to an integer, is the magnitude of a number. -/
theorem exists_units_eq_nearestEven {bits : Nat} (h : bits < infinityBits) :
    exists whole, whole < infinityBits ∧
      units whole = nearestEven (units bits) unitsPerOne * unitsPerOne := by
  by_cases hexponent : 1074 <= exponent bits
  · -- Without binary places the magnitude is an integer already.
    have hwhole : units bits = mantissa bits <<< (exponent bits - 1074) * unitsPerOne := by
      rw [← shiftLeft_eq_mul_unitsPerOne, ← Nat.shiftLeft_add, Nat.sub_add_cancel hexponent]
      rfl
    refine ⟨bits, h, ?_⟩
    have hround := nearestEven_mul_left unitsPerOne_pos (mantissa bits <<< (exponent bits - 1074))
    rw [Nat.mul_comm, ← hwhole] at hround
    rw [hround, hwhole]
  · -- With at least one of them, the integer next to it fits into a mantissa.
    apply exists_units_eq
    have hquotient := units_div_unitsPerOne_lt (Nat.lt_of_not_le hexponent)
    have hround := nearestEven_le (units bits) unitsPerOne
    rw [Nat.shiftLeft_eq] at hquotient ⊢
    omega

theorem toRat_negateIf {x : Float} {whole : Nat} (h : whole <= infinityBits)
    (hwhole : units whole =
      nearestEven (units (magnitudeBits x)) unitsPerOne * unitsPerOne) :
    toRat (negateIf (isNegative x) (ofMagnitudeBits whole)) = nearestInteger x := by
  have hone : (unitsPerOne : Rat) ≠ 0 := Nat.cast_ne_zero.mpr (Nat.ne_of_gt unitsPerOne_pos)
  unfold toRat nearestInteger
  rw [isNegative_negateIf _ h, magnitudeBits_negateIf _ h, hwhole, Nat.cast_mul,
    mul_div_cancel_right₀ _ hone]
  cases isNegative x <;> simp

end Number
end RegionalCalculator
