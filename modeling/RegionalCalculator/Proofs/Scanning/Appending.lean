import RegionalCalculator.Proofs.Reading.Stream
import RegionalCalculator.Proofs.Scanning.Steps

/-!
# Texts behind a text

What stands behind a text changes nothing in its tokens, unless it draws out a number at
the end of the text. Such a number goes on only over characters that a run of a number may
start with; in front of any others the text is scanned as it is by itself, and the rest is
scanned as what follows its last token.
-/

namespace RegionalCalculator

/-- Whether an operand is due behind the tokens, if it was or was not due in front of them. -/
def Token.awaitsBehind (awaitsOperand : Bool) (tokens : List Token) : Bool :=
  tokens.foldl (fun _ token => token.awaitsOperand) awaitsOperand

namespace Scan

open TokenStream

section

variable {f : NumberFormat} {rest : List Char}

/-!
# Runs and literals
-/

theorem startsWithDigit_of_spanRun (hrest : spanRun f rest = ([], rest)) :
    startsWithDigit rest = false := by
  cases rest with
  | nil => rfl
  | cons c rest =>
      rw [Bool.eq_false_iff]
      intro hdigit
      rw [spanRun_cons_of_isDigit f rest hdigit] at hrest
      cases hrest

theorem startsNumber_of_spanRun (hrest : spanRun f rest = ([], rest)) :
    startsNumber f rest = false := by
  rw [Bool.eq_false_iff]
  intro hstarts
  have hshorter := length_spanRun_snd_lt hstarts
  rw [hrest] at hshorter
  exact Nat.lt_irrefl _ hshorter

theorem startsWithDigit_append (hrest : spanRun f rest = ([], rest)) (text : List Char) :
    startsWithDigit (text ++ rest) = startsWithDigit text := by
  cases text with
  | nil => exact startsWithDigit_of_spanRun hrest
  | cons c text => rfl

theorem startsNumber_append (hrest : spanRun f rest = ([], rest)) (text : List Char) :
    startsNumber f (text ++ rest) = startsNumber f text := by
  cases text with
  | nil => exact startsNumber_of_spanRun hrest
  | cons c text => rw [List.cons_append, startsNumber, startsNumber, startsWithDigit_append hrest]

theorem spanRun_append_rest (hrest : spanRun f rest = ([], rest)) (text : List Char) :
    spanRun f (text ++ rest) = ((spanRun f text).1, (spanRun f text).2 ++ rest) := by
  induction text with
  | nil => exact hrest
  | cons c text ih =>
      rw [List.cons_append, spanRun, spanRun, extendsNumber, extendsNumber,
        startsWithDigit_append hrest, ih]
      split
      · rfl
      · rfl

theorem splitLiteral?_append (hrest : spanRun f rest = ([], rest)) (awaitsOperand : Bool)
    (c : Char) (text : List Char) :
    splitLiteral? f awaitsOperand (c :: (text ++ rest)) =
      (splitLiteral? f awaitsOperand (c :: text)).map fun parts => (parts.1, parts.2 ++ rest) := by
  by_cases hminus : c = '-'
  · rw [hminus, splitLiteral?_minus, splitLiteral?_minus, startsNumber_append hrest,
      spanRun_append_rest hrest]
    split
    · rfl
    · rfl
  · have hhead : forall others : List Char, (c :: others).head? ≠ some '-' :=
      fun others heq => hminus (Option.some.inj heq)
    rw [splitLiteral?_of_ne_minus f awaitsOperand (hhead _),
      splitLiteral?_of_ne_minus f awaitsOperand (hhead _), ← List.cons_append,
      startsNumber_append hrest, spanRun_append_rest hrest]
    split
    · rfl
    · rfl

theorem spanRun_blanks_append (hrest : spanRun f rest = ([], rest)) {blanks : List Char}
    (hblanks : forall c, c ∈ blanks -> Text.isBlank c = true) :
    spanRun f (blanks ++ rest) = ([], blanks ++ rest) := by
  cases blanks with
  | nil => exact hrest
  | cons c blanks =>
      rw [List.forall_mem_cons] at hblanks
      apply spanRun_blank f hblanks.left
      cases blanks with
      | nil => exact startsWithDigit_of_spanRun hrest
      | cons d blanks =>
          exact Text.isDigit_of_isBlank (hblanks.right d List.mem_cons_self)

/-!
# Tokens
-/

/-- A text without a fault keeps its tokens, wherever it stands. -/
theorem exists_yields_append (hrest : spanRun f rest = ([], rest)) {awaitsOperand : Bool}
    {position last : Nat} {text : List Char} {tokens : List Token}
    (h : Yields (tokensFrom f awaitsOperand position text) tokens (.finish last))
    (position' : Nat) :
    exists after, Yields (tokensFrom f awaitsOperand position' (text ++ rest)) tokens
      (tokensFrom f (Token.awaitsBehind awaitsOperand tokens) after rest) := by
  fun_induction tokensFrom f awaitsOperand position text generalizing tokens position' with
  | case1 awaitsOperand position =>
      cases h
      exact ⟨position', Yields.nil _⟩
  | case2 awaitsOperand position c text hblank ih =>
      rw [List.cons_append, tokensFrom_blank f awaitsOperand position' _ hblank]
      exact ih h _
  | case3 awaitsOperand position c text hblank found hfound value hvalue ih =>
      cases h with
      | cons htail =>
          have hsplit := splitLiteral?_append hrest awaitsOperand c text
          rw [splitLiteral?_of_literal? hfound] at hsplit
          rcases ih htail (position' + byteLength found.literal) with ⟨after, hyields⟩
          rw [List.cons_append,
            tokensFrom_number position' (Bool.eq_false_iff.mpr hblank) hsplit hvalue]
          exact ⟨after, Yields.cons hyields⟩
  | case4 => cases h
  | case5 awaitsOperand position c text hblank hfound token htoken ih =>
      cases h with
      | cons htail =>
          have hsplit := splitLiteral?_append hrest awaitsOperand c text
          rw [splitLiteral?_eq_none_iff.mpr hfound] at hsplit
          rcases ih htail (position' + c.utf8Size) with ⟨after, hyields⟩
          rw [List.cons_append,
            tokensFrom_single position' (Bool.eq_false_iff.mpr hblank) hsplit htoken]
          exact ⟨after, Yields.cons hyields⟩
  | case6 => cases h

end

end Scan
end RegionalCalculator
