import RegionalCalculator.Proofs.Number.SignMagnitude
import RegionalCalculator.Proofs.Scanning.Steps

/-!
# The sign of a literal

A minus sign in front of a literal turns its value around and changes nothing else: a
literal is refused with the sign exactly if it is refused without it, and for the same
fault. The value of a literal without a minus sign has no sign.
-/

namespace RegionalCalculator

theorem Number.unsigned_of_readUnsigned? {text : List Char} {x : Float}
    (h : readUnsigned? text = some x) : magnitudeBits x <= infinityBits ∧ isNegative x = false := by
  rcases Option.map_eq_some_iff.mp h with ⟨d, _, hd⟩
  have hle : d.nearestBits <= infinityBits := nearest_le_infinityBits _ _
  rw [← hd, magnitudeBits_ofMagnitudeBits hle]
  exact ⟨hle, isNegative_ofMagnitudeBits hle⟩

namespace Numeral

variable {f : NumberFormat} {text : List Char} {n : Numeral}

theorem ofLiteral_minus (h : text.head? ≠ some '-') :
    ofLiteral f ('-' :: text) =
      (ofLiteral f text).map fun n => { n with negative := true } := by
  have hsigned : body ('-' :: text) = text := rfl
  simp only [ofLiteral, hsigned, body_of_head?_ne_minus h]
  split
  · rfl
  · split
    · rfl
    · split
      · rfl
      · split
        · rfl
        · rfl

theorem unsigned_of_ofLiteral (h : text.head? ≠ some '-') (hnumeral : ofLiteral f text = .ok n) :
    n.negative = false ∧ forall c, c ∈ n.whole -> c.isDigit = true := by
  rcases ofLiteral_eq_ok_iff.mp hnumeral with ⟨_, _, _, parts, _, _, hparts⟩
  cases hparts
  exact ⟨beq_eq_false_iff_ne.mpr h, fun c hc => (List.mem_filter.mp hc).right⟩

theorem head?_toChars (hsign : n.negative = false)
    (hwhole : forall c, c ∈ n.whole -> c.isDigit = true) : n.toChars.head? ≠ some '-' := by
  rw [toChars, hsign, if_neg Bool.false_ne_true, List.nil_append]
  cases hcase : n.whole with
  | nil =>
      intro hminus
      cases hminus
  | cons digit rest =>
      intro hminus
      have hdigit := hwhole digit (by rw [hcase]; exact List.mem_cons_self)
      cases hminus
      cases hdigit

theorem toChars_negative (hsign : n.negative = false) :
    { n with negative := true }.toChars = '-' :: n.toChars := by
  rw [toChars, toChars, hsign]
  rfl

end Numeral

section

variable {f : NumberFormat} {text : List Char}

theorem literalValue_minus (h : text.head? ≠ some '-') :
    literalValue f ('-' :: text) = (literalValue f text).map fun x => -x := by
  rw [literalValue, literalValue, Numeral.ofLiteral_minus h]
  cases hnumeral : Numeral.ofLiteral f text with
  | error fault => rfl
  | ok n =>
      rcases Numeral.unsigned_of_ofLiteral h hnumeral with ⟨hsign, hwhole⟩
      have hread := Number.read?_of_head?_ne_minus (Numeral.head?_toChars hsign hwhole)
      simp only [Except.map, bind, Except.bind, Numeral.toChars_negative hsign,
        Number.read?_neg, hread]
      cases Number.readUnsigned? n.toChars with
      | none => rfl
      | some x => rfl

theorem unsigned_of_literalValue (h : text.head? ≠ some '-') {x : Float}
    (hvalue : literalValue f text = .ok x) :
    Number.magnitudeBits x <= Number.infinityBits ∧ Number.isNegative x = false := by
  rcases literalValue_eq_ok_iff.mp hvalue with ⟨n, hnumeral, hread⟩
  rcases Numeral.unsigned_of_ofLiteral h hnumeral with ⟨hsign, hwhole⟩
  rw [Number.read?_of_head?_ne_minus (Numeral.head?_toChars hsign hwhole)] at hread
  exact Number.unsigned_of_readUnsigned? hread

/-!
# Reading with and without the sign
-/

theorem magnitude_of_readLiteral_minus (h : text.head? ≠ some '-') {x : Float}
    (hread : readLiteral f ('-' :: text) = .ok x) :
    Number.isNegative x = true ∧ readLiteral f text = .ok (Number.magnitude x) := by
  have hvalue := readLiteral_eq_ok_iff.mp hread
  rw [literalValue_minus h] at hvalue
  cases hunsigned : literalValue f text with
  | error fault =>
      rw [hunsigned] at hvalue
      cases hvalue
  | ok y =>
      rcases unsigned_of_literalValue h hunsigned with ⟨hle, hsign⟩
      rw [hunsigned] at hvalue
      cases hvalue
      rw [Number.isNegative_neg hle, hsign, Number.magnitude_neg hle hsign, readLiteral, hunsigned]
      exact ⟨rfl, rfl⟩

theorem error_of_readLiteral_minus (h : text.head? ≠ some '-') {error : EntryError}
    (hread : readLiteral f ('-' :: text) = .error error) :
    exists error', readLiteral f text = .error error' ∧ error'.kind = error.kind := by
  rw [readLiteral, literalValue_minus h] at hread
  rw [readLiteral]
  cases hunsigned : literalValue f text with
  | error fault =>
      rw [hunsigned] at hread
      cases hread
      exact ⟨_, rfl, rfl⟩
  | ok y =>
      rw [hunsigned] at hread
      cases hread

end

theorem Scan.isNegative_of_readLiteral_spanRun {f : NumberFormat} {text : List Char} {x : Float}
    (h : startsNumber f text = true) (hread : readLiteral f (spanRun f text).1 = .ok x) :
    Number.isNegative x = false :=
  (unsigned_of_literalValue (head?_spanRun_ne_minus h) (readLiteral_eq_ok_iff.mp hread)).right

end RegionalCalculator
