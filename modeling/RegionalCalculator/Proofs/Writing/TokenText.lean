import RegionalCalculator.Proofs.Number.LiteralSign
import RegionalCalculator.Proofs.Writing.Display

/-!
# The text of the tokens

The working of a computation lists tokens with single spaces between. Read under any format
with a point for the decimals that does not group digits by spaces, the list gives the same
tokens again. This is not so for tokens in any order: behind a value, a number with a sign
would be taken for a subtraction. The scanner never makes such a list.
-/

namespace RegionalCalculator

open TokenStream

/-!
# Tokens that the scanner makes
-/

namespace Token

/-- Tokens in an order in which the scanner makes them. A number has a sign only where an
operand is awaited. -/
inductive Scannable : Bool -> List Token -> Prop where
  | nil {awaitsOperand : Bool} : Scannable awaitsOperand []
  | number {awaitsOperand : Bool} {value : Float} {tokens : List Token} :
      (Number.isNegative value = true -> awaitsOperand = true) ->
      Scannable false tokens ->
      Scannable awaitsOperand (.number value :: tokens)
  | single {awaitsOperand : Bool} {c : Char} {token : Token} {tokens : List Token} :
      ofChar? c = some token ->
      Scannable token.awaitsOperand tokens ->
      Scannable awaitsOperand (token :: tokens)

theorem Scannable.tail {awaitsOperand : Bool} {token : Token} {tokens : List Token}
    (h : Scannable awaitsOperand (token :: tokens)) : Scannable token.awaitsOperand tokens := by
  cases h with
  | number _ htail => exact htail
  | single _ htail => exact htail

end Token

theorem Scan.scannable_of_yields {f : NumberFormat} {awaitsOperand : Bool} {position last : Nat}
    {text : List Char} {tokens : List Token}
    (h : Yields (tokensFrom f awaitsOperand position text) tokens (.finish last)) :
    Token.Scannable awaitsOperand tokens := by
  fun_induction tokensFrom f awaitsOperand position text generalizing tokens with
  | case1 awaitsOperand position =>
      cases h
      exact Token.Scannable.nil
  | case2 awaitsOperand position c rest hblank ih => exact ih h
  | case3 awaitsOperand position c rest hblank found hfound value hvalue ih =>
      cases h with
      | cons htail =>
          apply Token.Scannable.number _ (ih htail)
          intro hnegative
          rcases splitLiteral?_cases (splitLiteral?_of_literal? hfound) with
            ⟨_, hawaits, _, _, _⟩ | ⟨_, hstarts, hliteral, _⟩
          · exact hawaits
          · rw [hliteral] at hvalue
            rw [isNegative_of_readLiteral_spanRun hstarts hvalue] at hnegative
            cases hnegative
  | case4 => cases h
  | case5 awaitsOperand position c rest hblank hfound token htoken ih =>
      cases h with
      | cons htail => exact Token.Scannable.single htoken (ih htail)
  | case6 => cases h

/-!
# Text of tokens
-/

namespace Token

theorem render_of_ofChar? {c : Char} {token : Token} (h : ofChar? c = some token) :
    token.render = [c] := by
  rcases cases_of_ofChar? h with ⟨hc, htoken⟩ | ⟨hc, htoken⟩ | ⟨op, hc, htoken⟩
  · rw [hc, htoken, render]
  · rw [hc, htoken, render]
  · rw [hc, htoken, render]

theorem isFinish_of_ofChar? {c : Char} {token : Token} (h : ofChar? c = some token) :
    token.isFinish = false := by
  cases token with
  | finish => exact absurd rfl (ne_finish_of_ofChar? h)
  | number value => rfl
  | operator op => rfl
  | openParen => rfl
  | closeParen => rfl

def renderBehind (tokens : List Token) : List Char :=
  tokens.flatMap fun token => ' ' :: token.render

theorem renderBehind_cons (token : Token) (tokens : List Token) :
    renderBehind (token :: tokens) = ' ' :: (token.render ++ renderBehind tokens) :=
  rfl

theorem intercalate_render (token : Token) (tokens : List Token) :
    [' '].intercalate ((token :: tokens).map render) = token.render ++ renderBehind tokens := by
  induction tokens generalizing token with
  | nil =>
      rw [List.map_singleton, List.intercalate_singleton]
      exact (List.append_nil _).symm
  | cons next tokens ih =>
      rw [List.map_cons, List.map_cons, List.intercalate_cons_cons, ← List.map_cons, ih,
        renderBehind_cons, List.append_assoc]
      rfl

theorem Scannable.filter_isFinish {awaitsOperand : Bool} {tokens : List Token}
    (h : Scannable awaitsOperand tokens) :
    (tokens ++ [finish]).filter (fun token => !token.isFinish) = tokens := by
  induction h with
  | nil => rfl
  | number _ _ ih => rw [List.cons_append, List.filter_cons_of_pos rfl, ih]
  | single htoken _ ih =>
      rw [List.cons_append, List.filter_cons_of_pos, ih]
      rw [isFinish_of_ofChar? htoken]
      rfl

end Token

/-!
# Reading the text back
-/

theorem NumberFormat.belongs_space {f : NumberFormat} (h : f.group ≠ some .space) :
    f.belongs ' ' = false := by
  rw [Bool.eq_false_iff]
  intro hspace
  exact h ((f.belongs_of_isBlank rfl).mp hspace).left

section

variable {g : NumberFormat} {awaitsOperand : Bool} {token : Token} {tokens : List Token}

theorem Scan.spanRun_renderBehind (hgroup : g.group ≠ some .space) (tokens : List Token) :
    spanRun g (Token.renderBehind tokens) = ([], Token.renderBehind tokens) := by
  cases tokens with
  | nil => rfl
  | cons token tokens => exact spanRun_of_belongs_eq_false _ (NumberFormat.belongs_space hgroup)

theorem Scan.startsNumber_renderBehind (hgroup : g.group ≠ some .space) (tokens : List Token) :
    startsNumber g (Token.renderBehind tokens) = false := by
  cases tokens with
  | nil => rfl
  | cons token tokens =>
      exact startsNumber_of_belongs_eq_false _ (NumberFormat.belongs_space hgroup)

namespace Token.Scannable

theorem yields_first (h : Scannable awaitsOperand (token :: tokens))
    (hfinite : forall value, token = .number value -> Number.IsFinite value)
    (hdecimal : g.decimal = .point) (hgroup : g.group ≠ some .space) (position : Nat) :
    exists after,
      Yields (Scan.tokensFrom g awaitsOperand position (token.render ++ renderBehind tokens))
        [token] (Scan.tokensFrom g token.awaitsOperand after (renderBehind tokens)) := by
  cases h with
  | number hsign _ =>
      have hyields := Number.yields_withMark_render g (hfinite _ rfl) hsign position
        (Scan.spanRun_renderBehind hgroup tokens)
      rw [NumberFormat.withMark_of_point hdecimal] at hyields
      exact hyields
  | single htoken _ =>
      rw [render_of_ofChar? htoken, List.singleton_append,
        Scan.tokensFrom_token position htoken fun _ => Scan.startsNumber_renderBehind hgroup tokens]
      exact ⟨_, Yields.single position token _⟩

theorem yields_render (h : Scannable awaitsOperand (token :: tokens))
    (hfinite : forall value, .number value ∈ token :: tokens -> Number.IsFinite value)
    (hdecimal : g.decimal = .point) (hgroup : g.group ≠ some .space) (position : Nat) :
    exists last,
      Yields (Scan.tokensFrom g awaitsOperand position (token.render ++ renderBehind tokens))
        (token :: tokens) (.finish last) := by
  induction tokens generalizing awaitsOperand token position with
  | nil =>
      have hfirst : forall value, token = .number value -> Number.IsFinite value :=
        fun value heq => hfinite value (List.mem_singleton.mpr heq.symm)
      rcases h.yields_first hfirst hdecimal hgroup position with ⟨after, hyields⟩
      have hend :
          Scan.tokensFrom g token.awaitsOperand after (renderBehind []) = .finish after := by
        rw [renderBehind, List.flatMap_nil, Scan.tokensFrom]
      rw [hend] at hyields
      exact ⟨after, hyields⟩
  | cons next tokens ih =>
      have hfirst : forall value, token = .number value -> Number.IsFinite value := by
        intro value heq
        apply hfinite value
        rw [heq]
        exact List.mem_cons_self
      have hothers : forall value, .number value ∈ next :: tokens -> Number.IsFinite value :=
        fun value hmem => hfinite value (List.mem_cons_of_mem _ hmem)
      rcases h.yields_first hfirst hdecimal hgroup position with ⟨after, hfront⟩
      -- The next token starts one byte further on, behind the space.
      rcases ih h.tail hothers (after + ' '.utf8Size) with ⟨last, hback⟩
      rw [← Scan.tokensFrom_blank g token.awaitsOperand after _ rfl] at hback
      exact ⟨last, hfront.append hback⟩

end Token.Scannable

end

/-- The text of the tokens of any entry, if its numbers are finite, is read as these tokens,
bit by bit, under every format with a point for the decimals that does not group by spaces. -/
theorem TokenStream.tokens_renderAll {f g : NumberFormat} {text : List Char}
    {tokens : List Token} (h : (TokenStream.ofText f text).tokens = .ok tokens)
    (hfinite : forall value, .number value ∈ tokens -> Number.IsFinite value)
    (hdecimal : g.decimal = .point) (hgroup : g.group ≠ some .space) :
    (TokenStream.ofText g (Token.renderAll tokens)).tokens = .ok tokens := by
  rcases exists_front_of_tokens h with ⟨front, position, htokens, hyields⟩
  have hscannable : Token.Scannable true front := Scan.scannable_of_yields hyields
  rw [htokens, tokens_eq_ok_iff, Token.renderAll, hscannable.filter_isFinish]
  cases front with
  | nil =>
      rw [List.map_nil, List.intercalate_nil, TokenStream.ofText, Scan.tokensFrom]
      exact ⟨0, Yields.nil _⟩
  | cons token front =>
      rw [Token.intercalate_render]
      apply hscannable.yields_render _ hdecimal hgroup
      intro value hmem
      apply hfinite value
      rw [htokens]
      exact List.mem_append_left _ hmem

theorem TokenStream.tokens_renderAll_points :
    (TokenStream.ofText { decimal := .comma, group := some .point } "3 -2,5)--1".toList).tokens =
        .ok [.number (Float.ofBits 0x4008000000000000), .operator .minus,
          .number (Float.ofBits 0x4004000000000000), .closeParen, .operator .minus,
          .number (Float.ofBits 0xBFF0000000000000), .finish] ∧
      Token.renderAll [.number (Float.ofBits 0x4008000000000000), .operator .minus,
          .number (Float.ofBits 0x4004000000000000), .closeParen, .operator .minus,
          .number (Float.ofBits 0xBFF0000000000000), .finish] =
        "3 - 2.5 ) - -1".toList ∧
      (TokenStream.ofText { decimal := .point, group := some .point }
          "3 - 2.5 ) - -1".toList).tokens =
        .ok [.number (Float.ofBits 0x4008000000000000), .operator .minus,
          .number (Float.ofBits 0x4004000000000000), .closeParen, .operator .minus,
          .number (Float.ofBits 0xBFF0000000000000), .finish] := by
  obtain ⟨tokens, htokens⟩ : exists tokens : List Token, tokens =
      [.number (Float.ofBits 0x4008000000000000), .operator .minus,
        .number (Float.ofBits 0x4004000000000000), .closeParen, .operator .minus,
        .number (Float.ofBits 0xBFF0000000000000), .finish] := ⟨_, rfl⟩
  rw [← htokens]
  have h : (TokenStream.ofText { decimal := .comma, group := some .point }
      "3 -2,5)--1".toList).tokens = .ok tokens := by
    rw [htokens]
    decide +kernel
  have hfinite : forall value, .number value ∈ tokens -> Number.IsFinite value := by
    intro value hmem
    simp only [htokens, List.mem_cons, Token.number.injEq, reduceCtorEq, List.not_mem_nil,
      false_or, or_false] at hmem
    rcases hmem with hvalue | hvalue | hvalue
    · rw [hvalue]
      decide +kernel
    · rw [hvalue]
      decide +kernel
    · rw [hvalue]
      decide +kernel
  have hshown : Token.renderAll tokens = "3 - 2.5 ) - -1".toList := by
    rw [htokens]
    decide +kernel
  have hread := tokens_renderAll (g := { decimal := .point, group := some .point }) h hfinite rfl
    (by decide)
  rw [hshown] at hread
  exact ⟨h, hshown, hread⟩

end RegionalCalculator
