import RegionalCalculator.Format.Basic
import RegionalCalculator.Number.Text

/-!
# Numerals

A literal is the text of a number as it stands in an entry, marks included. Its
numeral is what the literal says once the marks have done their work: a sign, the
digits of the integer part and those of the fraction. The canonical text of a
numeral uses a point, whatever the format of the literal.
-/

namespace RegionalCalculator

inductive LiteralFault where
  | foreignCharacter
  | noDigit
  | repeatedDecimal
  | groupAfterDecimal
  | unreadable
deriving DecidableEq, Repr

def LiteralFault.reason : LiteralFault -> String
  | foreignCharacter => "caractère étranger au format actif"
  | noDigit => "aucun chiffre"
  | repeatedDecimal => "séparateur décimal répété"
  | groupAfterDecimal => "séparateur de milliers après le séparateur décimal"
  | unreadable => "forme canonique illisible"

structure Numeral where
  negative : Bool
  whole : List Char
  fraction : List Char
deriving DecidableEq, Repr

namespace Numeral

/-!
# The retained decimal mark
-/

/-- The parts before and after the last character that satisfies `p`. -/
def splitLast? (p : Char -> Bool) : List Char -> Option (List Char × List Char)
  | [] => none
  | c :: rest =>
      match splitLast? p rest with
      | some (before, after) => some (c :: before, after)
      | none => if p c then some ([], rest) else none

theorem splitLast?_eq_none_iff {p : Char -> Bool} {text : List Char} :
    splitLast? p text = none <-> forall c, c ∈ text -> p c = false := by
  induction text with
  | nil => simp [splitLast?]
  | cons c rest ih =>
      cases hrest : splitLast? p rest with
      | none =>
          have hfalse := ih.mp hrest
          cases hc : p c with
          | false =>
              simp only [splitLast?, hrest, hc, List.mem_cons, Bool.false_eq_true, if_false,
                true_iff]
              intro d hd
              rcases hd with rfl | hd
              · exact hc
              · exact hfalse d hd
          | true => simp [splitLast?, hrest, hc]
      | some parts =>
          have hsome : ¬ forall d, d ∈ rest -> p d = false := by
            intro hall
            rw [ih.mpr hall] at hrest
            cases hrest
          simp only [splitLast?, hrest, List.mem_cons, reduceCtorEq, false_iff]
          intro hall
          exact hsome fun d hd => hall d (Or.inr hd)

theorem eq_append_of_splitLast? {p : Char -> Bool} {text before after : List Char}
    (h : splitLast? p text = some (before, after)) :
    exists c, p c = true ∧ text = before ++ c :: after ∧ forall d, d ∈ after -> p d = false := by
  induction text generalizing before with
  | nil => simp [splitLast?] at h
  | cons c rest ih =>
      cases hrest : splitLast? p rest with
      | none =>
          simp only [splitLast?, hrest] at h
          split at h
          · rename_i hc
            cases h
            exact ⟨c, hc, rfl, splitLast?_eq_none_iff.mp hrest⟩
          · cases h
      | some parts =>
          simp only [splitLast?, hrest] at h
          cases h
          obtain ⟨d, hd, hsplit, hafter⟩ := ih hrest
          exact ⟨d, hd, by rw [hsplit]; rfl, hafter⟩

theorem splitLast?_append_cons {p : Char -> Bool} {c : Char} (before : List Char)
    {after : List Char} (hc : p c = true) (hafter : forall d, d ∈ after -> p d = false) :
    splitLast? p (before ++ c :: after) = some (before, after) := by
  induction before with
  | nil =>
      rw [List.nil_append, splitLast?, splitLast?_eq_none_iff.mpr hafter]
      exact if_pos hc
  | cons d before ih =>
      rw [List.cons_append, splitLast?, ih]

/-!
# Reading a literal
-/

def body : List Char -> List Char
  | '-' :: rest => rest
  | text => text

theorem body_of_head?_ne_minus {text : List Char} (h : text.head? ≠ some '-') :
    body text = text := by
  rw [body]
  intro rest heq
  rw [heq] at h
  exact h rfl

/-- The numeral of a literal. Grouping marks are dropped from the integer part; where
one character plays both roles, only its last occurrence is the decimal mark. -/
def ofLiteral (f : NumberFormat) (text : List Char) : Except LiteralFault Numeral :=
  let digitsAndMarks := body text
  if !digitsAndMarks.all f.belongs then
    .error .foreignCharacter
  else if !digitsAndMarks.any Char.isDigit then
    .error .noDigit
  else if !f.isAmbiguous && 2 <= digitsAndMarks.countP f.isDecimal then
    .error .repeatedDecimal
  else
    let parts := (splitLast? f.isDecimal digitsAndMarks).getD (digitsAndMarks, [])
    if !parts.2.all Char.isDigit then
      .error .groupAfterDecimal
    else
      .ok { negative := text.head? == some '-'
            whole := parts.1.filter Char.isDigit
            fraction := parts.2 }

/-- A literal has a numeral exactly if it passes every check, and then the numeral is put
together from its two parts. -/
theorem ofLiteral_eq_ok_iff {f : NumberFormat} {text : List Char} {n : Numeral} :
    ofLiteral f text = .ok n <->
      (body text).all f.belongs = true ∧ (body text).any Char.isDigit = true ∧
        (!f.isAmbiguous && 2 <= (body text).countP f.isDecimal) = false ∧
          exists parts, (splitLast? f.isDecimal (body text)).getD (body text, []) = parts ∧
            parts.2.all Char.isDigit = true ∧
              { negative := text.head? == some '-'
                whole := parts.1.filter Char.isDigit
                fraction := parts.2 } = n := by
  constructor
  · intro h
    unfold ofLiteral at h
    dsimp only at h
    split at h
    · cases h
    · rename_i hbelongs
      split at h
      · cases h
      · rename_i hdigit
        split at h
        · cases h
        · rename_i hrepeated
          split at h
          · cases h
          · rename_i hfraction
            rw [Bool.not_eq_true, Bool.not_eq_false'] at hbelongs hdigit hfraction
            exact ⟨hbelongs, hdigit, Bool.eq_false_iff.mpr hrepeated, _, rfl, hfraction,
              Except.ok.inj h⟩
  · rintro ⟨hbelongs, hdigit, hrepeated, parts, hparts, hfraction, rfl⟩
    simp only [ofLiteral, hbelongs, hdigit, hrepeated, hparts, hfraction]
    rfl

/-- An empty integer part is written `0`; an empty fraction leaves no point. -/
def toChars (n : Numeral) : List Char :=
  (if n.negative then ['-'] else []) ++
    (if n.whole.isEmpty then ['0'] else n.whole) ++
    (if n.fraction.isEmpty then [] else '.' :: n.fraction)

end Numeral

def literalValue (f : NumberFormat) (text : List Char) : Except LiteralFault Float := do
  let numeral <- Numeral.ofLiteral f text
  match Number.read? numeral.toChars with
  | some value => .ok value
  | none => .error .unreadable

theorem literalValue_eq_ok_iff {f : NumberFormat} {text : List Char} {value : Float} :
    literalValue f text = .ok value <->
      exists numeral, Numeral.ofLiteral f text = .ok numeral ∧
        Number.read? numeral.toChars = some value := by
  rw [literalValue]
  constructor
  · intro h
    cases hnumeral : Numeral.ofLiteral f text with
    | error fault =>
        rw [hnumeral] at h
        cases h
    | ok numeral =>
        rw [hnumeral] at h
        simp only [bind, Except.bind] at h
        split at h
        · rename_i hread
          cases h
          exact ⟨numeral, rfl, hread⟩
        · cases h
  · rintro ⟨numeral, hnumeral, hread⟩
    rw [hnumeral]
    simp only [bind, Except.bind, hread]

end RegionalCalculator
