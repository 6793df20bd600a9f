import RegionalCalculator.Proofs.Number.Normalization
import RegionalCalculator.Proofs.Writing.Display

/-!
# The canonical text of a literal

What a literal says is written down again with a point for the decimals and without grouping
marks. This canonical text keeps the sign and the digits of the literal. Wherever the point is
the decimal mark it is a literal itself, with the same value, and it is its own canonical text.
So every literal that has a canonical text has a value.
-/

namespace RegionalCalculator
namespace Numeral

/-!
# Form
-/

structure IsDigits (text : List Char) : Prop where
  ne_nil : text ≠ []
  isDigit : forall c, c ∈ text -> c.isDigit = true

inductive IsCanonical : List Char -> Prop where
  | whole {negative : Bool} {digits : List Char} :
      IsDigits digits ->
      IsCanonical (Scan.withSign negative digits)
  | decimals {negative : Bool} {digits places : List Char} :
      IsDigits digits -> IsDigits places ->
      IsCanonical (Scan.withSign negative (digits ++ '.' :: places))

/-- What the canonical text of a literal has to do with the literal. A zero is added to the
digits exactly if none of them stands before the decimal mark that the literal is cut at. -/
structure Restates (f : NumberFormat) (text canonical : List Char) : Prop where
  form : IsCanonical canonical
  sign : canonical.head? = some '-' <-> text.head? = some '-'
  digits : exists before after, Cut f (body text) before after ∧
    canonical.filter Char.isDigit =
      (if before.any Char.isDigit then [] else ['0']) ++ text.filter Char.isDigit
  fixed : forall g : NumberFormat, g.decimal = .point ->
    (normalizeLiteral g canonical).map toChars = .ok canonical
  value : exists value, readLiteral f text = .ok value ∧
    forall g : NumberFormat, g.decimal = .point -> readLiteral g canonical = .ok value

end Numeral

/-!
# Figures
-/

namespace Figures

open Numeral

theorem isCanonical_canonical (n : Figures) (negative : Bool) :
    IsCanonical (Scan.withSign negative n.canonical) := by
  have hwhole : IsDigits n.whole := ⟨n.whole_ne_nil, n.isDigit_whole⟩
  unfold canonical
  split
  · rw [List.append_nil]
    exact IsCanonical.whole hwhole
  · rename_i hfraction
    have hplaces : IsDigits n.fraction := by
      constructor
      · intro hnil
        exact hfraction (List.isEmpty_iff.mpr hnil)
      · exact n.isDigit_fraction
    exact IsCanonical.decimals hwhole hplaces

theorem filter_isDigit_canonical (n : Figures) :
    n.canonical.filter Char.isDigit = n.whole ++ n.fraction := by
  have hwhole := List.filter_eq_self.mpr n.isDigit_whole
  have hfraction := List.filter_eq_self.mpr n.isDigit_fraction
  unfold canonical
  rw [List.filter_append, hwhole]
  split
  · rename_i hempty
    rw [List.isEmpty_iff.mp hempty]
    rfl
  · rw [List.filter_cons_of_neg (by decide), hfraction]

theorem head?_canonical_ne_minus (n : Figures) : n.canonical.head? ≠ some '-' := by
  rcases n.whole_eq_cons with ⟨digit, rest, hwhole, hdigit⟩
  rw [canonical, hwhole]
  intro hminus
  cases hminus
  cases hdigit

theorem laidOut_canonical (n : Figures) {g : NumberFormat} (h : g.decimal = .point) :
    n.LaidOut g n.canonical := by
  have hlaid := n.laidOut_withMark g
  rw [g.withMark_of_point h] at hlaid
  exact hlaid

theorem normalizeLiteral_canonical (n : Figures) {g : NumberFormat} (h : g.decimal = .point)
    (negative : Bool) :
    (normalizeLiteral g (Scan.withSign negative n.canonical)).map toChars =
      .ok (Scan.withSign negative n.canonical) := by
  rw [normalizeLiteral, (n.laidOut_canonical h).ofLiteral negative, ← n.toChars_numeral negative]
  rfl

def wholeOf (before : List Char) : List Char :=
  if before.any Char.isDigit then before.filter Char.isDigit else ['0']

theorem wholeOf_eq_append (before : List Char) :
    wholeOf before =
      (if before.any Char.isDigit then [] else ['0']) ++ before.filter Char.isDigit := by
  unfold wholeOf
  cases hany : before.any Char.isDigit with
  | true => rfl
  | false =>
      have hnone : before.filter Char.isDigit = [] := by
        simpa using hany
      rw [hnone]
      rfl

theorem wholeOf_ne_nil (before : List Char) : wholeOf before ≠ [] := by
  rw [wholeOf]
  split
  · rename_i hany
    rw [any_isDigit_eq_not_isEmpty] at hany
    simpa using hany
  · exact List.cons_ne_nil _ _

theorem all_isDigit_wholeOf (before : List Char) :
    (wholeOf before).all Char.isDigit = true := by
  rw [wholeOf]
  split
  · simp
  · rfl

theorem all_isDigit_filter (after : List Char) :
    ((some (after.filter Char.isDigit)).getD []).all Char.isDigit = true := by
  simp

def ofCut (before after : List Char) : Figures :=
  { whole := wholeOf before
    decimals := some (after.filter Char.isDigit)
    whole_ne_nil := wholeOf_ne_nil before
    all_isDigit_whole := all_isDigit_wholeOf before
    all_isDigit_decimals := all_isDigit_filter after }

theorem canonicalText_eq (negative : Bool) (before after : List Char) :
    canonicalText negative before after =
      Scan.withSign negative (ofCut before after).canonical := by
  have hfraction : (ofCut before after).fraction = after.filter Char.isDigit := rfl
  unfold canonicalText Scan.withSign canonical
  rw [hfraction, List.append_assoc, any_isDigit_eq_not_isEmpty after]
  cases (after.filter Char.isDigit).isEmpty <;> rfl

end Figures

theorem Scan.filter_isDigit_withSign (negative : Bool) (run : List Char) :
    (withSign negative run).filter Char.isDigit = run.filter Char.isDigit := by
  cases negative <;> rfl

/-!
# Literals
-/

namespace Numeral

variable {f : NumberFormat} {text before after canonical : List Char}

theorem filter_isDigit_body (text : List Char) :
    (body text).filter Char.isDigit = text.filter Char.isDigit := by
  unfold body
  split <;> rfl

theorem Cut.filter_isDigit (h : Cut f text before after) :
    text.filter Char.isDigit = before.filter Char.isDigit ++ after.filter Char.isDigit := by
  cases h with
  | marked _ =>
      have hmark : ¬ f.decimal.toChar.isDigit = true := by
        simp [f.isDigit_toChar_decimal]
      rw [List.filter_append, List.filter_cons_of_neg hmark]
  | unmarked _ => simp

theorem exists_cut_of_normalizeLiteral
    (h : (normalizeLiteral f text).map toChars = .ok canonical) :
    exists before after, Cut f (body text) before after ∧
      canonical =
        Scan.withSign (text.head? == some '-') (Figures.ofCut before after).canonical := by
  rcases exists_normalizes f text with ⟨outcome, houtcome⟩
  rw [map_toChars_of_normalizes houtcome] at h
  subst h
  cases houtcome with
  | canonical _ _ _ hcut => exact ⟨_, _, hcut, Figures.canonicalText_eq _ _ _⟩

theorem exists_of_normalizeLiteral (h : (normalizeLiteral f text).map toChars = .ok canonical) :
    exists n, ofLiteral f text = .ok n ∧ n.toChars = canonical := by
  unfold normalizeLiteral at h
  cases hnumeral : ofLiteral f text with
  | error fault =>
      rw [hnumeral] at h
      cases h
  | ok n =>
      rw [hnumeral] at h
      exact ⟨n, rfl, Except.ok.inj h⟩

theorem exists_value_of_normalizeLiteral
    (h : (normalizeLiteral f text).map toChars = .ok canonical) :
    exists value, readLiteral f text = .ok value ∧
      forall g : NumberFormat, g.decimal = .point -> readLiteral g canonical = .ok value := by
  rcases exists_cut_of_normalizeLiteral h with ⟨before, after, _, hcanonical⟩
  rcases exists_of_normalizeLiteral h with ⟨n, hnumeral, hchars⟩
  have hread := (Figures.ofCut before after).read?_withSign_canonical (text.head? == some '-')
  rw [← hcanonical, ← hchars] at hread
  have hvalue := readLiteral_eq_ok_iff.mpr (literalValue_eq_ok_iff.mpr ⟨n, hnumeral, hread⟩)
  refine ⟨_, hvalue, ?_⟩
  intro g hpoint
  rw [hcanonical]
  exact (Figures.laidOut_canonical _ hpoint).readLiteral _

theorem normalizeLiteral_of_readLiteral {error : EntryError}
    (h : readLiteral f text = .error error) : normalizeLiteral f text = .error error := by
  cases hnumeral : ofLiteral f text with
  | error fault =>
      rw [readLiteral, literalValue, hnumeral] at h
      rw [normalizeLiteral, hnumeral]
      cases h
      rfl
  | ok n =>
      have hcanonical : (normalizeLiteral f text).map toChars = .ok n.toChars := by
        rw [normalizeLiteral, hnumeral]
        rfl
      rcases exists_value_of_normalizeLiteral hcanonical with ⟨value, hvalue, _⟩
      rw [h] at hvalue
      cases hvalue

/-- Every format that accepts a literal says the same of it in one form, which all formats
with a decimal point take as it is. -/
theorem restates_of_normalizeLiteral
    (h : (normalizeLiteral f text).map toChars = .ok canonical) : Restates f text canonical := by
  rcases exists_cut_of_normalizeLiteral h with ⟨before, after, hcut, hcanonical⟩
  have hminus := (Figures.ofCut before after).head?_canonical_ne_minus
  constructor
  case form =>
    rw [hcanonical]
    exact Figures.isCanonical_canonical _ _
  case sign =>
    have hsign := Scan.head?_withSign (text.head? == some '-') hminus
    rw [← hcanonical, Bool.eq_iff_iff, beq_iff_eq, beq_iff_eq] at hsign
    exact hsign
  case digits =>
    refine ⟨before, after, hcut, ?_⟩
    rw [hcanonical, Scan.filter_isDigit_withSign, Figures.filter_isDigit_canonical,
      ← filter_isDigit_body text, hcut.filter_isDigit, ← List.append_assoc,
      ← Figures.wholeOf_eq_append]
    rfl
  case fixed =>
    intro g hpoint
    rw [hcanonical]
    exact Figures.normalizeLiteral_canonical _ hpoint _
  case value => exact exists_value_of_normalizeLiteral h

theorem restates_of_normalizeLiteral_commas :
    (normalizeLiteral NamedFormat.commaComma.format "-,,25".toList).map toChars =
        .ok "-0.25".toList ∧
      Restates NamedFormat.commaComma.format "-,,25".toList "-0.25".toList := by
  have h : (normalizeLiteral NamedFormat.commaComma.format "-,,25".toList).map toChars =
      .ok "-0.25".toList := rfl
  exact ⟨h, restates_of_normalizeLiteral h⟩

end Numeral
end RegionalCalculator
