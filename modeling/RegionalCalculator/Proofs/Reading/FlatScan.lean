import RegionalCalculator.Proofs.Reading.Grammar

/-!
# Judging an entry in one pass

Whether an entry is an expression, and which fault is found first if it is not, can
be told without any recursion: one pass over the items of the entry, a stack of the
parentheses that are open and three counters are enough. This module defines that
pass and shows that the descent gives the same verdict on every entry.
-/

namespace RegionalCalculator

open TokenStream

structure OpenParen where
  position : Nat
  base : Nat
  carets : Nat

/-- The place of the pass among the parentheses: the level at which the innermost one
starts, the carets of the current chain of powers, and the open parentheses, the
innermost first. -/
structure Nesting where
  base : Nat := 0
  carets : Nat := 0
  opened : List OpenParen := []

/-- What is due: an operand, after so many unary minus signs, or what may follow a
value. -/
inductive Due where
  | operand (minuses : Nat)
  | operator

namespace Nesting

def level (place : Nesting) (minuses : Nat) : Nat :=
  place.base + 2 + place.carets + minuses

def takeOperand (place : Nesting) (minuses position : Nat) :
    Token -> Except EntryError (Option (Nesting × Due))
  | .number _ => .ok (some (place, .operator))
  | .operator .minus => .ok (some (place, .operand (minuses + 1)))
  | .openParen =>
      let paren : OpenParen :=
        { position := position, base := place.base, carets := place.carets }
      .ok (some ({ base := place.level minuses, opened := paren :: place.opened }, .operand 0))
  | token => .error (.unexpectedToken token position)

/-- What a token makes of the pass behind a value. Nothing is left to do once the end
is met where it may stand. -/
def takeOperator (place : Nesting) (position : Nat) :
    Token -> Except EntryError (Option (Nesting × Due))
  | .operator .power => .ok (some ({ place with carets := place.carets + 1 }, .operand 0))
  | .operator _ => .ok (some ({ place with carets := 0 }, .operand 0))
  | .closeParen =>
      match place.opened with
      | [] => .error (.unmatchedParen position)
      | paren :: opened =>
          let outside : Nesting :=
            { base := paren.base, carets := paren.carets, opened := opened }
          .ok (some (outside, .operator))
  | .finish =>
      match place.opened with
      | [] => .ok none
      | paren :: _ => .error (.unmatchedParen paren.position)
  | _ => .error (.trailingInput position)

def step (place : Nesting) (position : Nat) :
    Due -> Token -> Except EntryError (Option (Nesting × Due))
  | .operand minuses, token =>
      if maxDepth < place.level minuses then
        .error (.tooDeep maxDepth)
      else
        place.takeOperand minuses position token
  | .operator, token => place.takeOperator position token

def run (place : Nesting) (due : Due) :
    List (Except EntryError (Nat × Token)) -> Except EntryError Unit
  | [] => .ok ()
  | .error error :: _ => .error error
  | .ok (position, token) :: items =>
      match place.step position due token with
      | .error error => .error error
      | .ok none => .ok ()
      | .ok (some (place, due)) => place.run due items

def verdict : List (Except EntryError (Nat × Token)) -> Except EntryError Unit
  | .ok (_, .finish) :: _ => .error .emptyEntry
  | items => run {} (.operand 0) items

/-!
# Steps of the pass
-/

theorem run_next {place : Nesting} {due : Due} {position : Nat} {token : Token}
    {rest : TokenStream} {next : Nesting × Due}
    (h : place.step position due token = .ok (some next)) :
    place.run due (TokenStream.next position token rest).items =
      next.1.run next.2 rest.items := by
  rw [items, run, h]

theorem run_next_error {place : Nesting} {due : Due} {position : Nat} {token : Token}
    {rest : TokenStream} {error : EntryError}
    (h : place.step position due token = .error error) :
    place.run due (TokenStream.next position token rest).items = .error error := by
  rw [items, run, h]

theorem run_eq_of_ready {place : Nesting} {due : Due} {s : TokenStream}
    {o : Except EntryError Unit} (h : s.ready = .ok () -> place.run due s.items = o) :
    place.run due s.items = s.ready.bind fun _ => o := by
  cases s with
  | fault error => rfl
  | finish position => exact h rfl
  | next position token rest => exact h rfl

theorem step_operand {place : Nesting} {minuses : Nat}
    (h : place.level minuses <= maxDepth) (position : Nat) (token : Token) :
    place.step position (.operand minuses) token =
      place.takeOperand minuses position token := by
  rw [step, if_neg (Nat.not_lt_of_le h)]

theorem step_operator {place : Nesting} {op : Operator} (hcarets : place.carets = 0)
    (hop : op ≠ .power) (position : Nat) :
    place.step position .operator (.operator op) = .ok (some (place, .operand 0)) := by
  have hsame : { place with carets := 0 } = place := by
    rw [← hcarets]
  rw [step, takeOperator, hsame]
  exact hop

theorem run_operand_tooDeep {place : Nesting} {minuses : Nat} {s : TokenStream}
    (hready : s.ready = .ok ()) (h : maxDepth < place.level minuses) :
    place.run (.operand minuses) s.items = .error (.tooDeep maxDepth) := by
  cases s with
  | fault error => cases hready
  | finish position => simp [items, run, step, h]
  | next position token rest => exact run_next_error (by simp [step, h])

/-- The carets of the current chain of powers count only if the chain goes on. -/
theorem run_operator_carets {place : Nesting} {s : TokenStream} (carets : Nat)
    (h : Reader.continues (· == .power) s = false) :
    { place with carets := carets }.run .operator s.items = place.run .operator s.items := by
  cases s with
  | fault error => rfl
  | finish position => rfl
  | next position token rest =>
      cases token with
      | operator op =>
          cases op with
          | power => cases h
          | plus => rfl
          | minus => rfl
          | times => rfl
          | divide => rfl
      | number value => rfl
      | openParen => rfl
      | closeParen => rfl
      | finish => rfl

/-!
# The pass follows the descent

A reader is followed from some place in the nest if the pass over a stream comes to
what the reader leaves of it, at the same place with a value behind it, and stops
with the same fault if the reader does.
-/

def Follows (place : Nesting) (minuses : Nat) (r : Reader) : Prop :=
  forall s, s.ready = .ok () -> s.EndsOnce ->
    place.run (.operand minuses) s.items =
      (r.outcome s).bind fun read => place.run .operator read.2.items

theorem follows_chain {place : Nesting} {phrase : Phrase} {levels : Nat}
    {joins : Operator -> Bool} {operand : Reader} (hcarets : place.carets = 0)
    (hjoins : joins .power = false) (hsound : Phrase.Sound phrase levels operand)
    (h : Follows place 0 operand) : Follows place 0 (Reader.chain joins operand) := by
  have hextend : forall left rest, rest.EndsOnce ->
      place.run .operator rest.items =
        (Reader.extend joins operand left rest).bind fun read =>
          place.run .operator read.2.items := by
    refine Reader.extend_induction joins operand ?_ ?_
    · intro left rest hstop _
      rw [Reader.extend_stop left hstop]
      rfl
    · intro left position op rest hop ih hends
      have hpower : op ≠ .power := by
        intro heq
        rw [heq, hjoins] at hop
        cases hop
      have hstep := step_operator hcarets hpower position
      rw [Reader.extend_next left hop, run_next hstep,
        run_eq_of_ready fun hready => h rest hready hends.right, bind_of_bind]
      apply bind_congr_of_eq_ok
      intro _ _
      rw [bind_of_bind]
      apply bind_congr_of_eq_ok
      intro right hright
      exact ih right.1 right.2 hright (hsound.endsOnce hright hends.right)
  intro s hready hends
  rw [h s hready hends, Reader.outcome_chain, bind_of_bind]
  apply bind_congr_of_eq_ok
  intro first hfirst
  exact hextend first.1 first.2 (hsound.endsOnce hfirst hends)

def FollowsPower (levels : Nat) (power : Reader) : Prop :=
  forall place : Nesting, place.base + place.carets + levels = maxDepth ->
    Follows place 0 power

theorem follows_sum {place : Nesting} {levels : Nat} {power : Reader}
    (hcarets : place.carets = 0) (hlevels : place.base + levels = maxDepth)
    (hsound : Phrase.Sound .power levels power) (h : FollowsPower levels power) :
    Follows place 0 (Reader.sum power) := by
  have hpower : Follows place 0 power := h place (by omega)
  have hproduct : Phrase.Sound .product levels (Reader.chain Operator.isMultiplicative power) :=
    Phrase.sound_chain hsound Derives.power Derives.multiply
  exact follows_chain hcarets rfl hproduct (follows_chain hcarets rfl hsound hpower)

theorem run_close {place : Nesting} {paren : OpenParen} {opened : List OpenParen}
    {inner : Expr} {s : TokenStream} (hopened : place.opened = paren :: opened)
    (hends : s.EndsOnce) (hstop : Reader.continues (fun _ => true) s = false) :
    place.run .operator s.items =
      (Reader.close paren.position inner s).bind fun read =>
        { base := paren.base, carets := paren.carets, opened := opened : Nesting }.run
          .operator read.2.items := by
  cases s with
  | fault error => rfl
  | finish position =>
      rw [items, run, step, takeOperator, hopened]
      rfl
  | next position token rest =>
      cases token with
      | operator op => cases hstop
      | closeParen =>
          have hstep : place.step position .operator .closeParen =
              .ok (some ({ base := paren.base, carets := paren.carets, opened := opened },
                .operator)) := by
            rw [step, takeOperator, hopened]
          rw [run_next hstep, Reader.close, run_eq_of_ready fun _ => rfl]
          cases rest.ready <;> rfl
      | number value => exact run_next_error rfl
      | openParen => exact run_next_error rfl
      | finish => exact absurd rfl hends.left

theorem run_raise {place : Nesting} {levels : Nat}
    (h : FollowsPower levels (Reader.power levels))
    (hlevels : place.base + (place.carets + 1) + levels = maxDepth) (base : Expr)
    {s : TokenStream} (hends : s.EndsOnce) :
    place.run .operator s.items =
      (Reader.raise (Reader.power levels) base s).bind fun read =>
        place.run .operator read.2.items := by
  cases hcontinues : Reader.continues (· == .power) s with
  | false =>
      rw [Reader.raise_stop _ _ hcontinues]
      rfl
  | true =>
      rcases Reader.exists_of_continues hcontinues with ⟨position, op, rest, hnext, hop⟩
      cases eq_of_beq hop
      subst hnext
      have hexponent := h { place with carets := place.carets + 1 } hlevels
      have hstep : place.step position .operator (.operator .power) =
          .ok (some ({ place with carets := place.carets + 1 }, .operand 0)) := rfl
      rw [run_next hstep, Reader.raise,
        run_eq_of_ready fun hready => hexponent rest hready hends.right, bind_of_bind]
      apply bind_congr_of_eq_ok
      intro _ _
      rw [bind_of_map]
      apply bind_congr_of_eq_ok
      intro raised hraised
      exact run_operator_carets _ (Reader.continues_of_outcome_power hraised)

theorem run_conclude (e : Expr) {s : TokenStream} (hends : s.EndsOnce)
    (hstop : Reader.continues (fun _ => true) s = false) :
    (e.conclude s).map (fun _ => ()) = run {} .operator s.items := by
  cases s with
  | fault error => rfl
  | finish position => rfl
  | next position token rest =>
      cases token with
      | operator op => cases hstop
      | closeParen => rfl
      | number value => rfl
      | openParen => rfl
      | finish => exact absurd rfl hends.left

theorem follows_primary {place : Nesting} {levels minuses : Nat}
    (hlevel : place.level minuses + levels = maxDepth)
    (h : FollowsPower levels (Reader.power levels)) {s : TokenStream}
    (hminus : forall position rest, s ≠ .next position (.operator .minus) rest)
    (hready : s.ready = .ok ()) (hends : s.EndsOnce) :
    place.run (.operand minuses) s.items =
      ((Reader.primary (Reader.power levels)).outcome s).bind fun read =>
        place.run .operator read.2.items := by
  have hdepth : place.level minuses <= maxDepth := by omega
  have hsound := (Phrase.sound_power_and_signed levels).left
  cases s with
  | fault error => cases hready
  | finish position =>
      rw [items, run, step_operand hdepth]
      rfl
  | next position token rest =>
      have hstep := step_operand hdepth position token
      cases token with
      | number value =>
          rw [run_next hstep, Reader.outcome_primary_number, run_eq_of_ready fun _ => rfl]
          cases rest.ready <;> rfl
      | openParen =>
          let paren : OpenParen :=
            { position := position, base := place.base, carets := place.carets }
          let inside : Nesting :=
            { base := place.level minuses, opened := paren :: place.opened }
          have hsum : Follows inside 0 (Reader.sum (Reader.power levels)) :=
            follows_sum rfl hlevel hsound h
          have hopened : inside.opened = paren :: place.opened := rfl
          rw [run_next hstep, Reader.outcome_primary_openParen,
            run_eq_of_ready fun hready => hsum rest hready hends.right, bind_of_bind]
          apply bind_congr_of_eq_ok
          intro _ _
          rw [bind_of_bind]
          apply bind_congr_of_eq_ok
          intro inner hinner
          exact run_close hopened ((Phrase.sound_sum hsound).endsOnce hinner hends.right)
            (Reader.continues_of_outcome_sum hinner)
      | operator op =>
          cases op with
          | minus => exact absurd rfl (hminus position rest)
          | plus => exact run_next_error hstep
          | times => exact run_next_error hstep
          | divide => exact run_next_error hstep
          | power => exact run_next_error hstep
      | closeParen => exact run_next_error hstep
      | finish => exact absurd rfl hends.left

theorem follows_power_and_signed (levels : Nat) :
    FollowsPower levels (Reader.power levels) ∧
      forall (place : Nesting) (minuses : Nat), place.level minuses + levels = maxDepth + 1 ->
        Follows place minuses (Reader.signed levels) := by
  induction levels with
  | zero =>
      constructor
      · intro place hlevels s hready hends
        rw [Reader.outcome_power_zero]
        exact run_operand_tooDeep hready (by rw [level]; omega)
      · intro place minuses hlevels s hready hends
        rw [Reader.outcome_signed_zero]
        exact run_operand_tooDeep hready (by omega)
  | succ levels ih =>
      rcases ih with ⟨hpower, hsigned⟩
      constructor
      · intro place hlevels s hready hends
        have hbase := hsigned place 0 (by rw [level]; omega) s hready hends
        have hsound := (Phrase.sound_power_and_signed levels).right
        rw [hbase, Reader.outcome_power_succ, bind_of_bind]
        apply bind_congr_of_eq_ok
        intro base hfirst
        exact run_raise hpower (by omega) base.1 (hsound.endsOnce hfirst hends)
      · intro place minuses hlevels s hready hends
        by_cases hminus : exists position rest, s = .next position (.operator .minus) rest
        · rcases hminus with ⟨position, rest, hnext⟩
          subst hnext
          have hdepth : place.level minuses <= maxDepth := by omega
          have hstep := step_operand hdepth position (.operator .minus)
          have hoperand := hsigned place (minuses + 1) (by rw [level] at hlevels ⊢; omega)
          rw [run_next hstep, Reader.outcome_signed_minus,
            run_eq_of_ready fun hready => hoperand rest hready hends.right, bind_of_bind]
          apply bind_congr_of_eq_ok
          intro _ _
          rw [bind_of_map]
        · have hother : forall position rest, s ≠ .next position (.operator .minus) rest :=
            fun position rest hnext => hminus ⟨position, rest, hnext⟩
          rw [Reader.outcome_signed_primary levels hother]
          exact follows_primary (by omega) hpower hother hready hends

/-!
# Verdicts
-/

theorem verdict_eq_run {s : TokenStream} (hends : s.EndsOnce)
    (h : forall position, s ≠ .finish position) :
    verdict s.items = run {} (.operand 0) s.items := by
  cases s with
  | finish position => exact absurd rfl (h position)
  | fault error => rfl
  | next position token rest =>
      rw [items, verdict]
      intro position' rest' heq
      cases heq
      exact hends.left rfl

theorem verdict_items {s : TokenStream} (hends : s.EndsOnce) :
    (Expr.ofTokens s).map (fun _ => ()) = verdict s.items := by
  cases s with
  | fault error => rfl
  | finish position => rfl
  | next position token rest =>
      have hsum : Follows {} 0 (Reader.sum (Reader.power maxDepth)) :=
        follows_sum rfl (Nat.zero_add maxDepth)
          (Phrase.sound_power_and_signed maxDepth).left
          (follows_power_and_signed maxDepth).left
      have hverdict := verdict_eq_run hends fun _ => TokenStream.noConfusion
      have hsound := Phrase.sound_sum (Phrase.sound_power_and_signed maxDepth).left
      rw [hverdict, hsum _ rfl hends, Expr.ofTokens_next, map_of_bind]
      apply bind_congr_of_eq_ok
      intro read hread
      exact run_conclude _ (hsound.endsOnce hread hends)
        (Reader.continues_of_outcome_sum hread)

theorem verdict_number (position : Nat) (value : Float) (rest : TokenStream) :
    verdict (TokenStream.next position (.number value) rest).items =
      run {} .operator rest.items := by
  have hstep : ({} : Nesting).step position (.operand 0) (.number value) =
      .ok (some ({}, .operator)) := rfl
  rw [items, verdict, ← items, run_next hstep]
  intro position' rest' heq
  cases heq

end Nesting

theorem Expr.ofTokens_of_verdict {s : TokenStream} {error : EntryError} (hends : s.EndsOnce)
    (h : Nesting.verdict s.items = .error error) : Expr.ofTokens s = .error error := by
  have hverdict := Nesting.verdict_items hends
  rw [h] at hverdict
  cases hread : Expr.ofTokens s with
  | ok e =>
      rw [hread] at hverdict
      cases hverdict
  | error error' =>
      rw [hread] at hverdict
      cases hverdict
      rfl

/-- An entry is judged in one pass over its items as it is by the descent: either both
accept it, or both refuse it with the same error. -/
theorem Expr.ofText_eq_verdict (f : NumberFormat) (text : List Char) :
    (Expr.ofText f text).map (fun _ => ()) =
      Nesting.verdict (TokenStream.ofText f text).items :=
  Nesting.verdict_items (Scan.endsOnce_tokensFrom f true 0 text)

end RegionalCalculator
