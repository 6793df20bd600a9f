import RegionalCalculator.Numeral

/-!
# Literals in other characters

What a literal says depends only on what each of its characters is for. If a change of
characters keeps digits as they are and gives every other character one that serves the same
purpose, under a second format perhaps, then a literal keeps its numeral, and a malformed
one its fault.
-/

namespace RegionalCalculator

/-- After the change every character is for `g` what it was for `f`. -/
structure Translates (f g : NumberFormat) (change : Char -> Char) : Prop where
  digit : forall c, c.isDigit = true -> change c = c
  isDigit : forall c, (change c).isDigit = c.isDigit
  isMinus : forall c, (change c == '-') = (c == '-')
  isDecimal : forall c, g.isDecimal (change c) = f.isDecimal c
  isGroup : forall c, g.isGroup (change c) = f.isGroup c
  isAmbiguous : g.isAmbiguous = f.isAmbiguous

theorem Numeral.splitLast?_map (q : Char -> Bool) (change : Char -> Char) (text : List Char) :
    splitLast? q (text.map change) =
      (splitLast? (q ∘ change) text).map fun parts =>
        (parts.1.map change, parts.2.map change) := by
  induction text with
  | nil => rfl
  | cons c rest ih =>
      rw [List.map_cons, splitLast?, splitLast?, ih]
      cases splitLast? (q ∘ change) rest with
      | some parts => rfl
      | none =>
          cases hc : q (change c) with
          | true => simp [hc]
          | false => simp [hc]

namespace Translates

variable {f g : NumberFormat} {change : Char -> Char}

theorem belongs (h : Translates f g change) (c : Char) : g.belongs (change c) = f.belongs c := by
  rw [NumberFormat.belongs, NumberFormat.belongs, h.isDigit, h.isDecimal, h.isGroup]

theorem map_of_all_isDigit (h : Translates f g change) {text : List Char}
    (hdigits : text.all Char.isDigit = true) : text.map change = text := by
  have hfixed : forall c, c ∈ text -> change c = c :=
    fun c hc => h.digit c (List.all_eq_true.mp hdigits c hc)
  exact (List.map_congr_left hfixed).trans (List.map_id text)

theorem body_map (h : Translates f g change) (text : List Char) :
    Numeral.body (text.map change) = (Numeral.body text).map change := by
  cases text with
  | nil => rfl
  | cons c rest =>
      have hminus := h.isMinus c
      cases hc : c == '-' with
      | true =>
          rw [hc] at hminus
          rw [List.map_cons, eq_of_beq hminus, eq_of_beq hc]
          rfl
      | false =>
          rw [hc] at hminus
          rw [List.map_cons, Numeral.body, Numeral.body, List.map_cons]
          · intro tail heq
            cases heq
            cases hc
          · intro tail heq
            rw [(List.cons.inj heq).left] at hminus
            cases hminus

theorem all_map {q q' : Char -> Bool} (h : forall c, q' (change c) = q c) (text : List Char) :
    (text.map change).all q' = text.all q := by
  rw [List.all_map]
  exact congrArg text.all (funext h)

theorem filter_isDigit_map (h : Translates f g change) (text : List Char) :
    (text.map change).filter Char.isDigit = text.filter Char.isDigit := by
  have hsame : Char.isDigit ∘ change = Char.isDigit := funext h.isDigit
  rw [List.filter_map, hsame]
  apply h.map_of_all_isDigit
  exact List.all_eq_true.mpr fun c hc => (List.mem_filter.mp hc).right

theorem isNegative_map (h : Translates f g change) (text : List Char) :
    ((text.map change).head? == some '-') = (text.head? == some '-') := by
  cases text with
  | nil => rfl
  | cons c rest => exact h.isMinus c

theorem splitLast?_isDecimal_map (h : Translates f g change) (text : List Char) :
    (Numeral.splitLast? g.isDecimal (text.map change)).getD (text.map change, []) =
      (((Numeral.splitLast? f.isDecimal text).getD (text, [])).1.map change,
        ((Numeral.splitLast? f.isDecimal text).getD (text, [])).2.map change) := by
  have hsame : g.isDecimal ∘ change = f.isDecimal := funext h.isDecimal
  rw [Numeral.splitLast?_map, hsame]
  cases Numeral.splitLast? f.isDecimal text with
  | none => rfl
  | some parts => rfl

theorem ofLiteral_map (h : Translates f g change) (text : List Char) :
    Numeral.ofLiteral g (text.map change) = Numeral.ofLiteral f text := by
  have hany : ((Numeral.body text).map change).any Char.isDigit =
      (Numeral.body text).any Char.isDigit := by
    rw [List.any_map]
    exact congrArg (Numeral.body text).any (funext h.isDigit)
  have hcount : ((Numeral.body text).map change).countP g.isDecimal =
      (Numeral.body text).countP f.isDecimal := by
    rw [List.countP_map]
    exact congrArg (List.countP · (Numeral.body text)) (funext h.isDecimal)
  simp only [Numeral.ofLiteral, h.body_map, all_map h.belongs, hany, hcount, h.isAmbiguous,
    h.splitLast?_isDecimal_map, h.isNegative_map, h.filter_isDigit_map, all_map h.isDigit]
  generalize (Numeral.splitLast? f.isDecimal (Numeral.body text)).getD (Numeral.body text, []) =
    parts
  cases hdigits : parts.2.all Char.isDigit with
  | true => rw [h.map_of_all_isDigit hdigits]
  | false => rfl

theorem literalValue_map (h : Translates f g change) (text : List Char) :
    literalValue g (text.map change) = literalValue f text := by
  rw [literalValue, literalValue, h.ofLiteral_map]

end Translates
end RegionalCalculator
