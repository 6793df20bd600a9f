import RegionalCalculator.Proofs.Number.Integer
import RegionalCalculator.Proofs.Writing.Canonical

/-!
# Results without their decimals

A format that hides the decimals displays a finite number as the integer nearest to it, with
all the digits that this integer has. No format has a mark among these characters, and the
integer is a number again, however large it is, so the text is read as exactly this integer.
-/

namespace RegionalCalculator

/-!
# Integers as decimals
-/

namespace Decimal

def ofNat (n : Nat) : Decimal :=
  { coefficient := n, places := 0 }

theorem canonical_figures_ofNat (n : Nat) : (ofNat n).figures.canonical = Nat.toDigits 10 n := by
  have hwhole : (ofNat n).wholeDigits = Nat.toDigits 10 n := by
    show Nat.toDigits 10 (n / 1) = Nat.toDigits 10 n
    rw [Nat.div_one]
  rw [canonical_figures, ← hwhole]
  rfl

theorem value_figures_ofNat {n bits : Nat} (h : bits <= Number.infinityBits)
    (hunits : Number.units bits = n * Number.unitsPerOne) :
    (ofNat n).figures.value = Number.ofMagnitudeBits bits := by
  have hexact : n * Number.unitsPerOne = 1 * Number.units bits := by
    rw [hunits, Nat.one_mul]
  rw [value_figures]
  exact congrArg Number.ofMagnitudeBits (Number.nearest_of_exact h Nat.one_pos hexact)

end Decimal

/-!
# Numbers without their decimals
-/

namespace Number

def wholeFigures (x : Float) : Figures :=
  (Decimal.ofNat (nearestEven (units (magnitudeBits x)) unitsPerOne)).figures

theorem isDigits_canonical_wholeFigures (x : Float) :
    Numeral.IsDigits (wholeFigures x).canonical := by
  unfold wholeFigures
  rw [Decimal.canonical_figures_ofNat]
  constructor
  · exact Nat.toDigits_ne_nil
  · intro c hc
    exact Nat.isDigit_of_mem_toDigits (by decide) (by decide) hc

theorem renderWhole_eq {x : Float} (hx : IsFinite x) :
    renderWhole x = Scan.withSign (isNegative x) (wholeFigures x).canonical := by
  rw [renderWhole, signed, if_neg (Nat.not_lt_of_gt hx), if_neg (Nat.ne_of_lt hx), wholeFigures,
    Decimal.canonical_figures_ofNat]
  rfl

theorem toRat_value_wholeFigures {x : Float} (hx : IsFinite x) :
    IsFinite (negateIf (isNegative x) (wholeFigures x).value) ∧
      isNegative (negateIf (isNegative x) (wholeFigures x).value) = isNegative x ∧
      toRat (negateIf (isNegative x) (wholeFigures x).value) = nearestInteger x := by
  rcases exists_units_eq_nearestEven hx with ⟨whole, hlt, hwhole⟩
  have hle := Nat.le_of_lt hlt
  have hvalue : (wholeFigures x).value = ofMagnitudeBits whole :=
    Decimal.value_figures_ofNat hle hwhole
  rw [hvalue]
  refine ⟨?_, isNegative_negateIf _ hle, toRat_negateIf hle hwhole⟩
  rw [IsFinite, magnitudeBits_negateIf _ hle]
  exact hlt

end Number

/-!
# Texts without marks
-/

namespace NumberFormat

theorem not_mark_of_belongs {g : NumberFormat} {c : Char} (h : g.belongs c = false) :
    g.isDecimal c = false ∧ g.isGroup c = false := by
  simp only [belongs, Bool.or_eq_false_iff] at h
  exact ⟨h.1.2, h.2⟩

theorem not_mark_of_mem_withSign {negative : Bool} {digits : List Char} {c : Char}
    (hdigits : forall c, c ∈ digits -> c.isDigit = true)
    (hc : c ∈ Scan.withSign negative digits) (g : NumberFormat) :
    g.isDecimal c = false ∧ g.isGroup c = false := by
  rcases List.mem_append.mp hc with hsign | hdigit
  · have hminus : c = '-' := by
      cases negative with
      | true => exact List.mem_singleton.mp hsign
      | false => cases hsign
    rw [hminus]
    exact not_mark_of_belongs (g.belongs_of_ofChar? rfl)
  · have hisDigit := hdigits c hdigit
    exact ⟨g.isDecimal_of_isDigit hisDigit, g.isGroup_of_isDigit hisDigit⟩

theorem display_of_hidesDecimals {f : NumberFormat} (h : f.hidesDecimals = true) {x : Float}
    (hx : Number.IsFinite x) :
    f.display x = Scan.withSign (Number.isNegative x) (Number.wholeFigures x).canonical := by
  have hdigits := (Number.isDigits_canonical_wholeFigures x).isDigit
  have hmarked : f.display x = f.withMark (Number.renderWhole x) := by
    rw [display, h]
    rfl
  rw [hmarked, Number.renderWhole_eq hx, f.withMark_withSign, f.withMark_of_all_isDigit hdigits]

end NumberFormat

theorem Number.makes_wholeFigures (f : NumberFormat) (x : Float) :
    Scan.Makes f (Scan.withSign (isNegative x) (wholeFigures x).canonical)
      [.number (negateIf (isNegative x) (wholeFigures x).value)] := by
  have hlaid := (wholeFigures x).laidOut_withMark f
  rw [f.withMark_of_all_isDigit (isDigits_canonical_wholeFigures x).isDigit] at hlaid
  exact hlaid.makes (isNegative x)

/-- A finite number on display without its decimals is a sign or none and digits, in which no
format finds a mark. Typed back, it is the integer nearest to the number, a half going to the
even one, and an integer is displayed as itself. -/
theorem evaluate_display_of_hidesDecimals {f : NumberFormat} (hhidden : f.hidesDecimals = true)
    {x : Float} (hx : Number.IsFinite x) :
    (exists digits, Numeral.IsDigits digits ∧
        f.display x = Scan.withSign (Number.isNegative x) digits) ∧
      (forall (g : NumberFormat) (c : Char), c ∈ f.display x ->
        g.isDecimal c = false ∧ g.isGroup c = false) ∧
      exists (w : Float) (n : Int), evaluate f (f.display x) = .ok w ∧
        Number.IsFinite w ∧ Number.isNegative w = Number.isNegative x ∧
        Number.toRat w = n ∧ Number.IsNearestInteger (Number.toRat x) n ∧
        ((exists m : Int, Number.toRat x = m) -> w = x) := by
  have hdisplay := NumberFormat.display_of_hidesDecimals hhidden hx
  have hdigits := Number.isDigits_canonical_wholeFigures x
  rcases Number.toRat_value_wholeFigures hx with ⟨hfinite, hsign, hvalue⟩
  have hnearest := Number.isNearestInteger_nearestInteger x
  refine ⟨⟨_, hdigits, hdisplay⟩, ?_, _, _, ?_, hfinite, hsign, hvalue, hnearest, ?_⟩
  · intro g c hc
    rw [hdisplay] at hc
    exact NumberFormat.not_mark_of_mem_withSign hdigits.isDigit hc g
  · rw [hdisplay]
    exact (Number.makes_wholeFigures f x).evaluate_eq
  · rintro ⟨m, hm⟩
    have hsame : Number.nearestInteger x = m := hnearest.eq_of_integer hm
    rw [hsame, ← hm] at hvalue
    exact Number.eq_of_toRat (Nat.le_of_lt hfinite) (Nat.le_of_lt hx) hsign hvalue

theorem evaluate_display_of_hidesDecimals_half :
    NumberFormat.display { decimal := .comma, group := some .point, hidesDecimals := true }
        (Float.ofBits 0xC004000000000000) = "-2".toList ∧
      evaluate { decimal := .comma, group := some .point, hidesDecimals := true } "-2".toList =
        .ok (Float.ofBits 0xC000000000000000) ∧
      Number.toRat (Float.ofBits 0xC004000000000000) = -5 / 2 ∧
      Number.toRat (Float.ofBits 0xC000000000000000) = (-2 : Int) ∧
      Number.IsNearestInteger (-5 / 2) (-2) := by
  have hdisplay :
      NumberFormat.display { decimal := .comma, group := some .point, hidesDecimals := true }
        (Float.ofBits 0xC004000000000000) = "-2".toList := by
    decide +kernel
  have hvalue : evaluate { decimal := .comma, group := some .point, hidesDecimals := true }
      "-2".toList = .ok (Float.ofBits 0xC000000000000000) := by
    decide +kernel
  have hhalf : Number.toRat (Float.ofBits 0xC004000000000000) = -5 / 2 := by
    decide +kernel
  have htwo : Number.toRat (Float.ofBits 0xC000000000000000) = (-2 : Int) := by
    decide +kernel
  rcases evaluate_display_of_hidesDecimals
      (f := { decimal := .comma, group := some .point, hidesDecimals := true }) rfl
      (x := Float.ofBits 0xC004000000000000) (by decide +kernel) with
    ⟨_, _, w, n, hread, _, _, hinteger, hnearest, _⟩
  rw [hdisplay, hvalue] at hread
  cases hread
  have hn : n = -2 := Int.cast_injective (hinteger.symm.trans htwo)
  rw [hn, hhalf] at hnearest
  exact ⟨hdisplay, hvalue, hhalf, htwo, hnearest⟩

end RegionalCalculator
