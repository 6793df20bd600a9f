import RegionalCalculator.Evaluation
import RegionalCalculator.Format.Named
import RegionalCalculator.Proofs.Reading.Grammar

/-!
# The working of a computation

An entry is scanned twice when the working of its value is wanted: once token by token
while it is read, and once as a whole for the list of its tokens. Reading an expression
goes to the end of the entry, so that it meets every fault that the second pass could
meet, and the list holds the tokens that were read, in order.
-/

namespace RegionalCalculator

open TokenStream

variable {f : NumberFormat} {entry : List Char} {e : Expr}

/-- What is listed behind an expression was taken off the stream when it was read. -/
theorem Expr.consumed_of_ofText (h : ofText f entry = .ok e) :
    exists consumed position,
      (Reader.sum (Reader.power maxDepth)).outcome (TokenStream.ofText f entry) =
          .ok (e, .finish position) ∧
        Yields (TokenStream.ofText f entry) consumed (.finish position) ∧
        (TokenStream.ofText f entry).tokens = .ok (consumed ++ [.finish]) := by
  rcases outcome_of_ofTokens h with ⟨position, hread⟩
  rcases Phrase.sound_sum (Phrase.sound_power_and_signed maxDepth).left _ _ _ hread with
    ⟨consumed, _, hyields, _, _⟩
  exact ⟨consumed, position, hread, hyields, tokens_eq_ok_iff.mpr ⟨position, hyields⟩⟩

theorem evaluateWithWorking_of_tokens {tokens : List Token} (h : Expr.ofText f entry = .ok e)
    (htokens : (TokenStream.ofText f entry).tokens = .ok tokens) :
    evaluateWithWorking f entry =
      .ok (e.eval, { format := f.summary, tokens := Token.renderAll tokens, tree := e.render }) := by
  rw [evaluateWithWorking, h, htokens]
  rfl

theorem evaluateWithWorking_of_error {error : EntryError}
    (h : Expr.ofText f entry = .error error) : evaluateWithWorking f entry = .error error := by
  rw [evaluateWithWorking, h]
  rfl

/-- The value with its working is the value alone, and both are refused with the same error.
Where there is a value, listing the tokens cannot fail: the list holds what was read, up to
the end of the entry. -/
theorem evaluateWithWorking_agrees (f : NumberFormat) (entry : List Char) :
    (evaluateWithWorking f entry).map Prod.fst = evaluate f entry ∧
    (forall e, Expr.ofText f entry = .ok e ->
      exists consumed position,
        (Reader.sum (Reader.power maxDepth)).outcome (TokenStream.ofText f entry) =
            .ok (e, .finish position) ∧
          Yields (TokenStream.ofText f entry) consumed (.finish position) ∧
          (TokenStream.ofText f entry).tokens = .ok (consumed ++ [.finish]) ∧
          evaluateWithWorking f entry =
            .ok (e.eval,
              { format := f.summary
                tokens := Token.renderAll (consumed ++ [.finish])
                tree := e.render })) := by
  constructor
  · rw [evaluate]
    cases h : Expr.ofText f entry with
    | error error =>
        rw [evaluateWithWorking_of_error h]
        rfl
    | ok e =>
        rcases Expr.consumed_of_ofText h with ⟨_, _, _, _, htokens⟩
        rw [evaluateWithWorking_of_tokens h htokens]
        rfl
  · intro e h
    rcases Expr.consumed_of_ofText h with ⟨consumed, position, hread, hyields, htokens⟩
    exact ⟨consumed, position, hread, hyields, htokens, evaluateWithWorking_of_tokens h htokens⟩

theorem evaluateWithWorking_agrees_minus :
    (Reader.sum (Reader.power maxDepth)).outcome (TokenStream.ofText .standard "2 - -1".toList) =
        .ok (.binary .minus (.number (Float.ofBits 0x4000000000000000))
          (.number (Float.ofBits 0xBFF0000000000000)), .finish 6) ∧
      (TokenStream.ofText .standard "2 - -1".toList).tokens =
        .ok [.number (Float.ofBits 0x4000000000000000), .operator .minus,
          .number (Float.ofBits 0xBFF0000000000000), .finish] ∧
      evaluateWithWorking .standard "2 - -1".toList =
        .ok (Float.ofBits 0x4008000000000000,
          { format := NumberFormat.standard.summary
            tokens := "2 - -1".toList
            tree := "(2--1)".toList }) := by
  have h : Expr.ofText .standard "2 - -1".toList =
      .ok (.binary .minus (.number (Float.ofBits 0x4000000000000000))
        (.number (Float.ofBits 0xBFF0000000000000))) := by
    decide +kernel
  have hstream : TokenStream.ofText .standard "2 - -1".toList =
      .next 0 (.number (Float.ofBits 0x4000000000000000))
        (.next 2 (.operator .minus)
          (.next 4 (.number (Float.ofBits 0xBFF0000000000000)) (.finish 6))) := by
    decide +kernel
  rcases (evaluateWithWorking_agrees .standard "2 - -1".toList).right _ h with
    ⟨consumed, position, hread, hyields, htokens, hworking⟩
  rw [hstream] at hyields
  cases hyields with
  | cons hbehind =>
      cases hbehind with
      | cons hlast =>
          cases hlast with
          | cons hend =>
              cases hend with
              | nil =>
                  refine ⟨hread, htokens, hworking.trans ?_⟩
                  decide +kernel

end RegionalCalculator
