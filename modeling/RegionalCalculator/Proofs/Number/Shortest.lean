import RegionalCalculator.Number.Shortest

/-!
# The shortest decimal reads back

A magnitude counted in units of `2 ^ -1074` is a mantissa of at most 53 bits, shifted
by the exponent. A quotient that has exactly this value is rounded to it, so that the
finest decimal grid holds every finite magnitude; hence the walk over the grids ends
on a decimal whose nearest magnitude is the one that it started from.
-/

namespace RegionalCalculator
namespace Number

/-!
# Mantissa and exponent
-/

theorem exponent_shiftLeft_le (bits : Nat) : exponent bits <<< 52 <= bits := by
  unfold exponent
  rw [Nat.shiftLeft_eq, Nat.shiftRight_eq_div_pow]
  omega

theorem mantissa_lt (bits : Nat) : mantissa bits < 1 <<< 53 := by
  unfold mantissa exponent
  rw [Nat.shiftLeft_eq, Nat.shiftRight_eq_div_pow, Nat.shiftLeft_eq]
  omega

theorem le_mantissa {bits : Nat} (h : 0 < exponent bits) : 1 <<< 52 <= mantissa bits := by
  unfold mantissa
  unfold exponent at h ⊢
  rw [Nat.shiftRight_eq_div_pow] at h
  rw [Nat.shiftLeft_eq, Nat.shiftRight_eq_div_pow, Nat.shiftLeft_eq]
  omega

theorem log2_shiftLeft {n : Nat} (h : n ≠ 0) (e : Nat) : (n <<< e).log2 = n.log2 + e := by
  induction e with
  | zero => rfl
  | succ e ih =>
      have hshifted : n <<< e ≠ 0 := by
        rw [Nat.shiftLeft_eq]
        exact Nat.mul_ne_zero h (Nat.ne_of_gt (Nat.two_pow_pos e))
      rw [Nat.shiftLeft_succ, Nat.log2_two_mul hshifted, ih, Nat.add_assoc]

theorem log2_units (bits : Nat) : (units bits).log2 - 52 = exponent bits := by
  have hlt := mantissa_lt bits
  unfold units
  by_cases hexponent : exponent bits = 0
  · have hlog : (mantissa bits).log2 < 53 := by
      by_cases hzero : mantissa bits = 0
      · rw [hzero]
        decide
      · exact (Nat.log2_lt hzero).mpr hlt
    rw [hexponent, Nat.shiftLeft_zero]
    omega
  · have hle := le_mantissa (Nat.pos_of_ne_zero hexponent)
    have hzero : mantissa bits ≠ 0 := Nat.ne_of_gt (Nat.lt_of_lt_of_le (by decide) hle)
    have hlog : (mantissa bits).log2 = 52 := (Nat.log2_eq_iff hzero).mpr ⟨hle, hlt⟩
    rw [log2_shiftLeft hzero, hlog, Nat.add_sub_cancel_left]

/-!
# Exact quotients
-/

theorem nearest_eq (num den : Nat) :
    nearest num den =
      min (((num * unitsPerOne / den).log2 - 52) <<< 52 +
        nearestEven (num * unitsPerOne) (den <<< ((num * unitsPerOne / den).log2 - 52)))
        infinityBits :=
  rfl

theorem shiftLeft_mul_right (a b e : Nat) : a * b <<< e = a <<< e * b := by
  rw [Nat.shiftLeft_eq, Nat.shiftLeft_eq]
  ac_rfl

/-- A quotient that is a magnitude is rounded to this magnitude. -/
theorem nearest_of_exact {bits num den : Nat} (h : bits <= infinityBits) (hden : 0 < den)
    (hexact : num * unitsPerOne = den * units bits) : nearest num den = bits := by
  have hquotient : num * unitsPerOne / den = units bits := by
    rw [hexact, Nat.mul_div_cancel_left _ hden]
  have hround : nearestEven (num * unitsPerOne) (den <<< exponent bits) = mantissa bits := by
    rw [hexact]
    unfold units
    rw [shiftLeft_mul_right]
    apply nearestEven_mul_left
    rw [Nat.shiftLeft_eq]
    exact Nat.mul_pos hden (Nat.two_pow_pos _)
  have hbits : exponent bits <<< 52 + mantissa bits = bits :=
    Nat.add_sub_cancel' (exponent_shiftLeft_le bits)
  rw [nearest_eq, hquotient, log2_units, hround, hbits]
  exact Nat.min_eq_left h

theorem nearestBits_writtenOut {bits n : Nat} (h : bits <= infinityBits)
    (hn : unitsPerOne = 1 <<< n) :
    ({ coefficient := units bits * Nat.pow 5 n, places := n } : Decimal).nearestBits = bits := by
  have hscale : Nat.pow 5 n * unitsPerOne = Nat.pow 10 n := by
    rw [hn, Nat.shiftLeft_eq, Nat.one_mul]
    exact (Nat.mul_pow 5 2 n).symm
  unfold Decimal.nearestBits Decimal.scale
  apply nearest_of_exact h
  · exact Nat.pow_pos (by decide)
  · rw [Nat.mul_assoc, hscale]
    exact Nat.mul_comm _ _

theorem nearestBits_exactDecimal {bits : Nat} (h : bits <= infinityBits) :
    (exactDecimal bits).nearestBits = bits := by
  have hplaces : unitsPerOne = 1 <<< 1074 := by
    unfold unitsPerOne
    rfl
  unfold exactDecimal
  generalize 1074 = n at hplaces ⊢
  exact nearestBits_writtenOut h hplaces

theorem nearestBits_shortestDecimal {bits : Nat} (h : bits <= infinityBits) :
    (shortestDecimal bits).nearestBits = bits := by
  rw [shortestDecimal]
  cases hfound : (Grid.coarseToFine bits).findSome? fun grid => grid.point? bits with
  | none => exact nearestBits_exactDecimal h
  | some d =>
      rcases List.exists_of_findSome?_eq_some hfound with ⟨grid, _, hpoint⟩
      exact Grid.nearestBits_of_point?_eq_some hpoint

end Number
end RegionalCalculator
