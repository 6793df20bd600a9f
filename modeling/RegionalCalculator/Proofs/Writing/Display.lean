import RegionalCalculator.Evaluation
import RegionalCalculator.Proofs.Number.Shortest
import RegionalCalculator.Proofs.Reading.Grammar
import RegionalCalculator.Proofs.Writing.Figures
import RegionalCalculator.Session.Display

/-!
# Typing a result back

A finite number is displayed with its sign, its shortest digits and the decimal mark
of the format. Read under the same format, this text gives the number again, bit by
bit: the digits are laid out as those of any number, and the shortest decimal of a
magnitude is nearest to no other magnitude.
-/

namespace RegionalCalculator

/-!
# The digits of a decimal
-/

namespace Decimal

theorem isDigit_wholeDigits (d : Decimal) : d.wholeDigits.all Char.isDigit = true := by
  rw [List.all_eq_true]
  intro c hc
  exact Nat.isDigit_of_mem_toDigits (by decide) (by decide) hc

theorem isDigit_fractionDigits (d : Decimal) : d.fractionDigits.all Char.isDigit = true := by
  rw [List.all_eq_true]
  intro c hc
  rcases List.mem_append.mp hc with hzero | hdigit
  · rw [List.eq_of_mem_replicate hzero]
    rfl
  · exact Nat.isDigit_of_mem_toDigits (by decide) (by decide) hdigit

theorem scale_pos (d : Decimal) : 0 < d.scale :=
  Nat.pow_pos (by decide)

theorem length_fractionDigits {d : Decimal} (h : d.places ≠ 0) :
    d.fractionDigits.length = d.places := by
  have hlt : d.coefficient % d.scale < d.scale := Nat.mod_lt _ d.scale_pos
  have hle : (Nat.toDigits 10 (d.coefficient % d.scale)).length <= d.places :=
    (Nat.length_toDigits_le_iff (by decide) (Nat.pos_of_ne_zero h)).mpr hlt
  rw [fractionDigits, List.leftpad, List.length_append, List.length_replicate,
    Nat.sub_add_cancel hle]

theorem ofDigitChars_fractionDigits (d : Decimal) (n : Nat) :
    Nat.ofDigitChars 10 d.fractionDigits n =
      Nat.pow 10 d.fractionDigits.length * n + d.coefficient % d.scale := by
  have hvalue : Nat.ofDigitChars 10 d.fractionDigits 0 = d.coefficient % d.scale := by
    rw [fractionDigits, List.leftpad, Nat.ofDigitChars_append, Nat.ofDigitChars_replicate_zero,
      Nat.mul_zero, Nat.ofDigitChars_ten_toDigits]
  rw [Nat.ofDigitChars_eq_ofDigitChars_zero, hvalue]
  rfl

def decimals? (d : Decimal) : Option (List Char) :=
  if d.places = 0 then none else some d.fractionDigits

theorem isDigit_decimals? (d : Decimal) : (d.decimals?.getD []).all Char.isDigit = true := by
  rw [decimals?]
  by_cases h : d.places = 0
  · rw [if_pos h]
    rfl
  · rw [if_neg h]
    exact d.isDigit_fractionDigits

theorem wholeDigits_ne_nil (d : Decimal) : d.wholeDigits ≠ [] :=
  Nat.toDigits_ne_nil

def figures (d : Decimal) : Figures :=
  { whole := d.wholeDigits
    decimals := d.decimals?
    whole_ne_nil := d.wholeDigits_ne_nil
    all_isDigit_whole := d.isDigit_wholeDigits
    all_isDigit_decimals := d.isDigit_decimals? }

theorem fraction_figures (d : Decimal) :
    d.figures.fraction = if d.places = 0 then [] else d.fractionDigits := by
  change d.decimals?.getD [] = _
  rw [decimals?]
  by_cases h : d.places = 0
  · rw [if_pos h, if_pos h]
    rfl
  · rw [if_neg h, if_neg h]
    rfl

theorem canonical_figures (d : Decimal) : d.figures.canonical = d.toChars := by
  rw [Figures.canonical, fraction_figures, toChars]
  by_cases h : d.places = 0
  · rw [if_pos h, if_pos h]
    exact List.append_nil _
  · have hsome : d.fractionDigits.isEmpty = false := by
      rw [List.isEmpty_eq_false_iff, ← List.length_pos_iff, length_fractionDigits h]
      exact Nat.pos_of_ne_zero h
    rw [if_neg h, if_neg h, hsome]
    rfl

theorem ofChars?_toChars (d : Decimal) : ofChars? d.toChars = some d := by
  rw [← canonical_figures, Figures.ofChars?_canonical, fraction_figures]
  rcases d with ⟨coefficient, places⟩
  by_cases h : places = 0
  · subst h
    have hdigits : Nat.ofDigitChars 10 (Nat.toDigits 10 (coefficient / 1)) 0 = coefficient := by
      rw [Nat.ofDigitChars_ten_toDigits, Nat.div_one]
    rw [if_pos rfl, List.append_nil]
    exact congrArg (fun n => some (Decimal.mk n 0)) hdigits
  · let d : Decimal := { coefficient := coefficient, places := places }
    have hlength : d.fractionDigits.length = places := length_fractionDigits h
    have hdigits : Nat.ofDigitChars 10 (d.wholeDigits ++ d.fractionDigits) 0 = coefficient := by
      rw [Nat.ofDigitChars_append, ofDigitChars_fractionDigits, hlength, wholeDigits,
        Nat.ofDigitChars_ten_toDigits]
      exact Nat.div_add_mod coefficient d.scale
    rw [if_neg h]
    change some (Decimal.mk (Nat.ofDigitChars 10 (d.wholeDigits ++ d.fractionDigits) 0)
      d.fractionDigits.length) = some d
    rw [hdigits, hlength]

theorem value_figures (d : Decimal) :
    d.figures.value = Number.ofMagnitudeBits d.nearestBits := by
  have hread := d.figures.read?_canonical
  rw [Figures.read?_canonical_eq, canonical_figures, Number.readUnsigned?,
    ofChars?_toChars] at hread
  exact (Option.some.inj hread).symm

end Decimal

/-!
# The digits of a number
-/

namespace Number

def IsFinite (x : Float) : Prop :=
  magnitudeBits x < infinityBits

instance (x : Float) : Decidable (IsFinite x) :=
  inferInstanceAs (Decidable (magnitudeBits x < infinityBits))

def figures (x : Float) : Figures :=
  (shortestDecimal (magnitudeBits x)).figures

theorem render_eq {x : Float} (hx : IsFinite x) :
    render x = Scan.withSign (isNegative x) (figures x).canonical := by
  rw [render, signed, if_neg (Nat.not_lt_of_gt hx), if_neg (Nat.ne_of_lt hx), figures,
    Decimal.canonical_figures]
  rfl

theorem negateIf_value_figures {x : Float} (hx : IsFinite x) :
    negateIf (isNegative x) (figures x).value = x := by
  have hle : magnitudeBits x <= infinityBits := Nat.le_of_lt hx
  rw [figures, Decimal.value_figures, nearestBits_shortestDecimal hle,
    negateIf_ofMagnitudeBits hle]

theorem isFinite_neg {x : Float} (hx : IsFinite x) : IsFinite (-x) := by
  rw [IsFinite, magnitudeBits_neg (Nat.le_of_lt hx)]
  exact hx

theorem render_neg {x : Float} (hx : IsFinite x) (hsign : isNegative x = false) :
    render (-x) = '-' :: render x := by
  rw [render_eq (isFinite_neg hx), render_eq hx, isNegative_neg (Nat.le_of_lt hx), hsign, figures,
    magnitudeBits_neg (Nat.le_of_lt hx)]
  rfl

end Number

/-!
# Digits with the mark of a format
-/

def NumberFormat.withMark (f : NumberFormat) (text : List Char) : List Char :=
  text.map fun c => if c = '.' then f.decimal.toChar else c

namespace NumberFormat

theorem withMark_of_all_isDigit (f : NumberFormat) {digits : List Char}
    (h : forall c, c ∈ digits -> c.isDigit = true) : f.withMark digits = digits := by
  have hsame : forall c, c ∈ digits -> (if c = '.' then f.decimal.toChar else c) = c := by
    intro c hc
    apply if_neg
    intro hpoint
    have hdigit := h c hc
    rw [hpoint] at hdigit
    cases hdigit
  rw [withMark, List.map_congr_left hsame, List.map_id']

theorem withMark_of_point {f : NumberFormat} (h : f.decimal = .point) (text : List Char) :
    f.withMark text = text := by
  have hsame : forall c, c ∈ text -> (if c = '.' then f.decimal.toChar else c) = c := by
    intro c _
    rw [h]
    split
    · rename_i hc
      exact hc.symm
    · rfl
  rw [withMark, List.map_congr_left hsame, List.map_id']

theorem withMark_withSign (f : NumberFormat) (negative : Bool) (text : List Char) :
    f.withMark (Scan.withSign negative text) = Scan.withSign negative (f.withMark text) := by
  cases negative with
  | true => rfl
  | false => rfl

end NumberFormat

theorem Figures.laidOut_withMark (f : NumberFormat) (n : Figures) :
    n.LaidOut f (f.withMark n.canonical) := by
  have hgrouped := n.grouped_whole f
  have hsame : f.withMark n.whole = n.whole := f.withMark_of_all_isDigit n.isDigit_whole
  rw [Figures.canonical, NumberFormat.withMark, List.map_append]
  change n.LaidOut f (f.withMark n.whole ++ f.withMark _)
  rw [hsame]
  cases hfraction : n.fraction.isEmpty with
  | true =>
      rw [if_pos rfl]
      change n.LaidOut f (n.whole ++ [])
      rw [List.append_nil]
      apply LaidOut.unmarked hgrouped (List.isEmpty_iff.mp hfraction)
      intro c hc
      exact f.isDecimal_of_isDigit (n.isDigit_whole c hc)
  | false =>
      rw [if_neg Bool.false_ne_true]
      change n.LaidOut f (n.whole ++ f.decimal.toChar :: f.withMark n.fraction)
      rw [f.withMark_of_all_isDigit n.isDigit_fraction]
      exact LaidOut.marked hgrouped

theorem Number.yields_withMark_render (f : NumberFormat) {x : Float} (hx : IsFinite x)
    {awaitsOperand : Bool} (hsign : isNegative x = true -> awaitsOperand = true) (position : Nat)
    {rest : List Char} (hrest : Scan.spanRun f rest = ([], rest)) :
    exists after,
      TokenStream.Yields
        (Scan.tokensFrom f awaitsOperand position (f.withMark (render x) ++ rest)) [.number x]
        (Scan.tokensFrom f false after rest) := by
  have hyields := ((figures x).laidOut_withMark f).yields hsign position hrest
  rw [negateIf_value_figures hx] at hyields
  rw [render_eq hx, f.withMark_withSign]
  exact hyields

theorem Number.makes_withMark_render (f : NumberFormat) {x : Float} (hx : IsFinite x) :
    Scan.Makes f (f.withMark (render x)) [.number x] :=
  fun position _ hrest => yields_withMark_render f hx (fun _ => rfl) position hrest

/-!
# Entries
-/

theorem NumberFormat.display_eq_withMark {f : NumberFormat} (h : f.hidesDecimals = false)
    (x : Float) : f.display x = f.withMark (Number.render x) := by
  rw [display, h]
  rfl

theorem Scan.Makes.evaluate_eq {f : NumberFormat} {text : List Char} {x : Float}
    (h : Makes f text [.number x]) : evaluate f text = .ok x := by
  have hderives : Derives .sum [.number x] (.number x) 2 :=
    Derives.product (Derives.power (Derives.base (Derives.primary (Derives.number x))))
  rcases h.ofText with ⟨position, hyields⟩
  rw [evaluate, Expr.ofText, Expr.ofTokens_of_derives hyields hderives,
    Phrase.within_of_le _ (by decide)]
  rfl

/-- A finite number on display, typed back under the format that it is displayed with, is
the same number. -/
theorem evaluate_display {f : NumberFormat} (hshown : f.hidesDecimals = false) {x : Float}
    (hx : Number.IsFinite x) : evaluate f (f.display x) = .ok x := by
  rw [f.display_eq_withMark hshown]
  exact (Number.makes_withMark_render f hx).evaluate_eq

theorem evaluate_display_comma :
    evaluate { decimal := .comma, group := some .point } "-1234,5".toList =
      .ok (Float.ofBits 0xC0934A0000000000) := by
  have hdisplay : NumberFormat.display { decimal := .comma, group := some .point }
      (Float.ofBits 0xC0934A0000000000) = "-1234,5".toList := by
    decide +kernel
  rw [← hdisplay]
  exact evaluate_display rfl (by decide +kernel)

end RegionalCalculator
