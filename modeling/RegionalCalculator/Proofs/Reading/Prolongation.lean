import RegionalCalculator.Proofs.Reading.Cause
import RegionalCalculator.Proofs.Scanning.Appending

/-!
# Prolonged entries

An entry is read no further than the item that makes it wrong. If it is prolonged behind a
character that no number can contain, the tokens and the fault in front of that character
stay what they were, and so does every error that is not about the end of the entry.
-/

namespace RegionalCalculator

open TokenStream

/-- The second stream goes on where the first one comes to the end of the entry. -/
inductive TokenStream.Prolonged : TokenStream -> TokenStream -> Prop where
  | finish {position : Nat} {s : TokenStream} : Prolonged (.finish position) s
  | fault {error : EntryError} : Prolonged (.fault error) (.fault error)
  | next {position : Nat} {token : Token} {s s' : TokenStream} :
      Prolonged s s' ->
      Prolonged (.next position token s) (.next position token s')

/-!
# Scanning a prolonged text
-/

namespace Scan

/-- Up to the end of the text nothing depends on what is written behind it. -/
theorem prolonged_tokensFrom {f : NumberFormat} {w : Char} (hw : f.belongs w = false)
    (awaitsOperand : Bool) (position : Nat) (text tail : List Char) :
    (tokensFrom f awaitsOperand position text).Prolonged
      (tokensFrom f awaitsOperand position (text ++ w :: tail)) := by
  have hrest := spanRun_of_belongs_eq_false tail hw
  fun_induction tokensFrom f awaitsOperand position text with
  | case1 => exact TokenStream.Prolonged.finish
  | case2 awaitsOperand position c text hblank ih =>
      rw [List.cons_append, tokensFrom_blank f awaitsOperand position _ hblank]
      exact ih
  | case3 awaitsOperand position c text hblank found hfound value hvalue ih =>
      have hsplit := splitLiteral?_append hrest awaitsOperand c text
      rw [splitLiteral?_of_literal? hfound] at hsplit
      rw [List.cons_append,
        tokensFrom_number position (Bool.eq_false_iff.mpr hblank) hsplit hvalue]
      exact TokenStream.Prolonged.next ih
  | case4 awaitsOperand position c text hblank found hfound error herror =>
      have hsplit := splitLiteral?_append hrest awaitsOperand c text
      rw [splitLiteral?_of_literal? hfound] at hsplit
      rw [List.cons_append,
        tokensFrom_malformed position (Bool.eq_false_iff.mpr hblank) hsplit herror]
      exact TokenStream.Prolonged.fault
  | case5 awaitsOperand position c text hblank hfound token htoken ih =>
      have hsplit := splitLiteral?_append hrest awaitsOperand c text
      rw [splitLiteral?_eq_none_iff.mpr hfound] at hsplit
      rw [List.cons_append,
        tokensFrom_single position (Bool.eq_false_iff.mpr hblank) hsplit htoken]
      exact TokenStream.Prolonged.next ih
  | case6 awaitsOperand position c text hblank hfound htoken =>
      have hsplit := splitLiteral?_append hrest awaitsOperand c text
      rw [splitLiteral?_eq_none_iff.mpr hfound] at hsplit
      rw [List.cons_append,
        tokensFrom_foreign position (Bool.eq_false_iff.mpr hblank) hsplit htoken]
      exact TokenStream.Prolonged.fault

end Scan

/-!
# Errors that are not about the end
-/

open Scan

/-- The error is about something in the entry, and not about its end: a parenthesis without
its partner must be a closing one, because an opening one could still be closed. Depth is
judged only once the next item has been scanned. -/
def EntryError.FoundInside (entry : List Char) : EntryError -> Prop
  | .unexpectedCharacter _ _ => True
  | .malformedLiteral _ _ => True
  | .trailingInput _ => True
  | .unmatchedParen position => exists rest, StandsAt entry position (')' :: rest)
  | .unexpectedToken token _ => token ≠ .finish
  | .emptyEntry => False
  | .tooDeep _ => False

namespace Nesting

variable {f : NumberFormat} {entry text : List Char} {due : Prop} {place : Nesting}
  {next : Due} {position : Nat} {error : EntryError} {s s' : TokenStream}

theorem InStep.not_foundInside (h : InStep entry due place next)
    (hstep : place.step position next .finish = .error error) : ¬ error.FoundInside entry := by
  intro hinside
  cases next with
  | operand minuses =>
      rw [Nesting.step] at hstep
      split at hstep
      · cases hstep
        exact hinside
      · cases hstep
        exact hinside rfl
  | operator =>
      have hopened := h.opened
      rw [Nesting.step, Nesting.takeOperator] at hstep
      cases hcase : place.opened with
      | nil =>
          rw [hcase] at hstep
          cases hstep
      | cons paren opened =>
          rw [hcase] at hstep hopened
          cases hstep
          rcases (List.forall_mem_cons.mp hopened).left with ⟨rest, hopening⟩
          rcases hinside with ⟨rest', hclosing⟩
          cases hopening.unique hclosing

theorem run_prolonged (hprolonged : s.Prolonged s') (htiled : Tiled f due position text s.items)
    (h : InStep entry due place next) (hat : StandsAt entry position text)
    (hrun : place.run next s.items = .error error) (hinside : error.FoundInside entry) :
    place.run next s'.items = .error error := by
  induction hprolonged generalizing due place next position text with
  | finish =>
      rcases run_cons_error hrun with hstep | ⟨after, _, hnil⟩
      · exact absurd hinside (h.not_foundInside hstep)
      · cases hnil
  | fault => exact hrun
  | @next _ _ s _ _ ih =>
      rw [items] at htiled
      generalize hitems : s.items = items at htiled
      cases htiled with
      | last _ _ =>
          have hlength := length_items s
          rw [hitems] at hlength
          cases hlength
      | token _ hspells hrest =>
          subst hitems
          rw [List.append_assoc] at hat
          have hbehind := hat.behind
          rcases run_cons_error hrun with hstep | ⟨after, hstep, hlater⟩
          · exact run_next_error hstep
          · rw [run_next hstep]
            apply ih hrest (h.step hspells hbehind hstep) _ hlater
            rw [byteLength_append, ← Nat.add_assoc]
            exact hbehind.behind

end Nesting

variable {f : NumberFormat} {text : List Char} {error : EntryError}

theorem Expr.ofTokens_prolonged {s s' : TokenStream} (hprolonged : s.Prolonged s')
    (hends : s.EndsOnce) (hends' : s'.EndsOnce) (htiled : Tiled f True 0 text s.items)
    (h : ofTokens s = .error error) (hinside : error.FoundInside text) :
    ofTokens s' = .error error := by
  have hverdict : Nesting.verdict s.items = .error error := by
    rw [← Nesting.verdict_items hends, h]
    rfl
  apply ofTokens_of_verdict hends'
  rcases s.finish_or_ne with ⟨position, rfl⟩ | hs
  · cases hverdict
    exact hinside.elim
  · have hs' : forall position, s' ≠ .finish position := by
      intro position heq
      subst heq
      cases hprolonged
      exact hs _ rfl
    rw [Nesting.verdict_eq_run hends hs] at hverdict
    rw [Nesting.verdict_eq_run hends' hs']
    exact Nesting.run_prolonged hprolonged htiled (Nesting.InStep.start text True)
      ⟨[], rfl, rfl⟩ hverdict hinside

/-- An error that is not about the end of the entry stays the same error, whatever is written
behind the entry after a blank that groups no digits. -/
theorem Expr.ofText_prolonged (h : ofText f text = .error error)
    (hinside : error.FoundInside text) {w : Char} (hblank : Text.isBlank w = true)
    (hspace : w ∉ GroupMark.spaces) (tail : List Char) :
    ofText f (text ++ w :: tail) = .error error := by
  have hw : f.belongs w = false := by
    rw [Bool.eq_false_iff]
    intro hbelongs
    exact hspace ((f.belongs_of_isBlank hblank).mp hbelongs).right
  exact ofTokens_prolonged (prolonged_tokensFrom hw true 0 text tail)
    (endsOnce_tokensFrom f true 0 text) (endsOnce_tokensFrom f true 0 _)
    (tiled_tokensFrom f 0 text (iff_of_true True.intro rfl)) h hinside

theorem Expr.ofText_prolonged_closing :
    EntryError.FoundInside "(1)) ".toList (.unmatchedParen 3) ∧
      ofText .standard "(1)) \n((§".toList = .error (.unmatchedParen 3) := by
  have hinside : EntryError.FoundInside "(1)) ".toList (.unmatchedParen 3) :=
    ⟨[' '], "(1)".toList, rfl, rfl⟩
  have h : ofText .standard "(1)) ".toList = .error (.unmatchedParen 3) := by
    decide +kernel
  exact ⟨hinside, @ofText_prolonged .standard _ _ h hinside '\n' rfl (by decide) "((§".toList⟩

end RegionalCalculator
