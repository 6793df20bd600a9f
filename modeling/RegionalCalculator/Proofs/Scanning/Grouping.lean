import RegionalCalculator.Proofs.Reading.FlatScan
import RegionalCalculator.Proofs.Scanning.Steps

/-!
# Declaring a grouping mark

Without a grouping mark, a number consists of digits and decimal marks. If a mark is declared,
a number may go on where it ended before, at a blank or at a character that stood in no
entry. But then a number or a fault followed right behind it, and an entry is refused where
nothing stands between two values. So what was accepted before is read as before.
-/

namespace RegionalCalculator

/-!
# Numbers that are kept apart
-/

namespace TokenStream

def followsNumber : TokenStream -> Bool
  | fault _ => false
  | next _ (.number _) _ => false
  | _ => true

/-- The stream comes to its end, and no number stands right behind another. -/
def NumbersApart : TokenStream -> Prop
  | finish _ => True
  | fault _ => False
  | next _ (.number _) rest => rest.followsNumber = true ∧ rest.NumbersApart
  | next _ _ rest => rest.NumbersApart

theorem NumbersApart.rest {position : Nat} {token : Token} {rest : TokenStream}
    (h : (next position token rest).NumbersApart) : rest.NumbersApart := by
  cases token with
  | number value => exact h.right
  | openParen => exact h
  | closeParen => exact h
  | operator op => exact h
  | finish => exact h

end TokenStream

namespace Nesting

variable {place : Nesting} {due : Due} {position : Nat} {token : Token} {s rest : TokenStream}

theorem eq_finish_of_step (h : place.step position due token = .ok none) : token = .finish := by
  cases due with
  | operand minuses =>
      rw [step] at h
      split at h
      · cases h
      · cases token with
        | operator op => cases op <;> cases h
        | number value => cases h
        | openParen => cases h
        | closeParen => cases h
        | finish => rfl
  | operator =>
      cases token with
      | operator op => cases op <;> cases h
      | number value => cases h
      | openParen => cases h
      | closeParen =>
          rw [step, takeOperator] at h
          cases hopened : place.opened with
          | nil =>
              rw [hopened] at h
              cases h
          | cons paren opened =>
              rw [hopened] at h
              cases h
      | finish => rfl

theorem exists_step_of_run (hfinish : token ≠ .finish)
    (h : place.run due (TokenStream.next position token rest).items = .ok ()) :
    exists after, place.step position due token = .ok (some after) ∧
      after.1.run after.2 rest.items = .ok () := by
  cases hstep : place.step position due token with
  | error error =>
      rw [run_next_error hstep] at h
      cases h
  | ok after =>
      cases after with
      | none => exact absurd (eq_finish_of_step hstep) hfinish
      | some after =>
          rw [run_next hstep] at h
          exact ⟨after, rfl, h⟩

theorem followsNumber_of_run (h : place.run .operator s.items = .ok ()) :
    s.followsNumber = true := by
  cases s with
  | finish position => rfl
  | fault error => cases h
  | next position token rest =>
      cases token with
      | number value => cases h
      | openParen => rfl
      | closeParen => rfl
      | operator op => rfl
      | finish => rfl

theorem numbersApart_of_run (hends : s.EndsOnce) (h : place.run due s.items = .ok ()) :
    s.NumbersApart := by
  induction s generalizing place due with
  | finish position => exact True.intro
  | fault error => cases h
  | next position token rest ih =>
      rcases exists_step_of_run hends.left h with ⟨after, hstep, hrest⟩
      have hapart := ih hends.right hrest
      cases token with
      | number value =>
          refine ⟨?_, hapart⟩
          cases due with
          | operator => cases hstep
          | operand minuses =>
              rw [step] at hstep
              split at hstep
              · cases hstep
              · cases hstep
                exact followsNumber_of_run hrest
      | openParen => exact hapart
      | closeParen => exact hapart
      | operator op => exact hapart
      | finish => exact hapart

end Nesting

theorem Expr.numbersApart_of_ofTokens {s : TokenStream} {e : Expr} (hends : s.EndsOnce)
    (h : Expr.ofTokens s = .ok e) : s.NumbersApart := by
  have hverdict := Nesting.verdict_items hends
  rw [h] at hverdict
  rcases s.finish_or_ne with ⟨position, rfl⟩ | hs
  · exact True.intro
  · rw [Nesting.verdict_eq_run hends hs] at hverdict
    exact Nesting.numbersApart_of_run hends hverdict.symm

/-!
# Literals
-/

/-- The second format may declare a grouping mark, which the first does not have. -/
structure NumberFormat.AddsGroup (f g : NumberFormat) : Prop where
  group_eq_none : f.group = none
  decimal_eq : g.decimal = f.decimal

namespace NumberFormat.AddsGroup

variable {f g : NumberFormat} {text : List Char}

theorem isDecimal (h : f.AddsGroup g) : g.isDecimal = f.isDecimal :=
  isDecimal_congr h.decimal_eq

theorem isAmbiguous (h : f.AddsGroup g) : f.isAmbiguous = false := by
  rw [NumberFormat.isAmbiguous, h.group_eq_none]
  rfl

theorem belongs (h : f.AddsGroup g) {c : Char} (hc : f.belongs c = true) : g.belongs c = true := by
  rw [NumberFormat.belongs, isGroup_of_group_none h.group_eq_none, Bool.or_false] at hc
  rw [NumberFormat.belongs, h.isDecimal, hc, Bool.true_or]

theorem ofLiteral (h : f.AddsGroup g) {n : Numeral} (hnumeral : Numeral.ofLiteral f text = .ok n) :
    Numeral.ofLiteral g text = .ok n := by
  rw [Numeral.ofLiteral_eq_ok_iff] at hnumeral ⊢
  rcases hnumeral with ⟨hbelongs, hdigit, hrepeated, hparts⟩
  rw [h.isAmbiguous, Bool.not_false, Bool.true_and] at hrepeated
  rw [h.isDecimal, hrepeated, Bool.and_false]
  refine ⟨?_, hdigit, rfl, hparts⟩
  rw [List.all_eq_true] at hbelongs ⊢
  exact fun c hc => h.belongs (hbelongs c hc)

theorem readLiteral (h : f.AddsGroup g) {value : Float}
    (hread : RegionalCalculator.readLiteral f text = .ok value) :
    RegionalCalculator.readLiteral g text = .ok value :=
  readLiteral_of_ofLiteral (fun _ => h.ofLiteral) hread

end NumberFormat.AddsGroup

/-!
# Tokens
-/

namespace Scan

variable {f g : NumberFormat} {text : List Char} {c : Char} {rest : List Char}

theorem followsNumber_of_startsNumber (h : startsNumber f text = true) (position : Nat) :
    (tokensFrom f false position text).followsNumber = false := by
  have hsplit := splitLiteral?_of_startsNumber false h
  rcases exists_cons_of_startsNumber h with ⟨c, rest, htext, hblank⟩
  rw [htext] at hsplit ⊢
  cases hread : readLiteral f (spanRun f (c :: rest)).1 with
  | ok value =>
      rw [tokensFrom_number position hblank hsplit hread]
      rfl
  | error error =>
      rw [tokensFrom_malformed position hblank hsplit hread]
      rfl

theorem startsNumber_of_startsWithDigit (f : NumberFormat) (h : startsWithDigit text = true) :
    startsNumber f text = true := by
  cases text with
  | nil => cases h
  | cons c rest =>
      have hdigit : c.isDigit = true := h
      rw [startsNumber, hdigit, Bool.true_or]

variable (h : f.AddsGroup g)

include h

theorem startsNumber_of_addsGroup (text : List Char) :
    startsNumber g text = startsNumber f text := by
  cases text with
  | nil => rfl
  | cons c rest => rw [startsNumber, startsNumber, h.isDecimal]

theorem extendsNumber_of_addsGroup :
    extendsNumber g c rest =
      (extendsNumber f c rest || (g.isGroup c && startsWithDigit rest)) := by
  rw [extendsNumber, extendsNumber, NumberFormat.isGroup_of_group_none h.group_eq_none,
    Bool.false_and, Bool.or_false, h.isDecimal]

theorem followsNumber_of_extendsNumber (hstops : extendsNumber f c rest = false)
    (hextends : extendsNumber g c rest = true) (position : Nat) :
    (tokensFrom f false position (c :: rest)).followsNumber = false := by
  rw [extendsNumber_of_addsGroup h, hstops, Bool.false_or, Bool.and_eq_true] at hextends
  rcases hextends with ⟨hgroup, hdigit⟩
  cases hblank : Text.isBlank c with
  | true =>
      rw [tokensFrom_blank f false position rest hblank]
      exact followsNumber_of_startsNumber (startsNumber_of_startsWithDigit f hdigit) _
  | false =>
      have htoken : Token.ofChar? c = none :=
        NumberFormat.ofChar?_of_belongs (NumberFormat.belongs_of_isGroup hgroup)
      have hstarts : startsNumber f (c :: rest) = false := by
        rw [extendsNumber, Bool.or_eq_false_iff, Bool.or_eq_false_iff] at hstops
        rw [startsNumber, hstops.left.left, hstops.left.right]
        rfl
      rw [tokensFrom_stray position hblank hstarts htoken]
      rfl

theorem spanRun_of_followsNumber {position : Nat}
    (hfollows : (tokensFrom f false position (spanRun f text).2).followsNumber = true) :
    spanRun g text = spanRun f text := by
  induction text with
  | nil => rfl
  | cons c rest ih =>
      cases hstops : extendsNumber f c rest with
      | true =>
          have hextends : extendsNumber g c rest = true := by
            rw [extendsNumber_of_addsGroup h, hstops, Bool.true_or]
          rw [spanRun_cons hstops] at hfollows ⊢
          rw [spanRun_cons hextends, ih hfollows]
      | false =>
          rw [spanRun_stop hstops] at hfollows ⊢
          cases hextends : extendsNumber g c rest with
          | true =>
              rw [followsNumber_of_extendsNumber h hstops hextends] at hfollows
              cases hfollows
          | false => exact spanRun_stop hextends

theorem splitLiteral?_of_followsNumber {awaitsOperand : Bool} {literal after : List Char}
    {position : Nat} (hsplit : splitLiteral? f awaitsOperand text = some (literal, after))
    (hfollows : (tokensFrom f false position after).followsNumber = true) :
    splitLiteral? g awaitsOperand text = some (literal, after) := by
  rcases exists_cons_of_splitLiteral? hsplit with ⟨c, rest, htext, _⟩
  rw [htext] at hsplit ⊢
  rcases splitLiteral?_cases hsplit with
    ⟨hminus, hawaits, hstarts, hliteral, hafter⟩ | ⟨_, hstarts, hliteral, hafter⟩
  · rw [hafter] at hfollows
    rw [← startsNumber_of_addsGroup h] at hstarts
    rw [hminus, splitLiteral?_minus, if_pos ⟨hawaits, hstarts⟩,
      spanRun_of_followsNumber h hfollows, hliteral, hafter]
  · rw [hafter] at hfollows
    rw [← startsNumber_of_addsGroup h] at hstarts
    rw [splitLiteral?_of_startsNumber awaitsOperand hstarts,
      spanRun_of_followsNumber h hfollows, hliteral, hafter]

theorem splitLiteral?_eq_none_of_addsGroup {awaitsOperand : Bool}
    (hsplit : splitLiteral? f awaitsOperand text = none) :
    splitLiteral? g awaitsOperand text = none := by
  by_cases hminus : text.head? = some '-'
  · rcases List.head?_eq_some_iff.mp hminus with ⟨rest, htext⟩
    rw [htext, splitLiteral?_minus] at hsplit ⊢
    rw [startsNumber_of_addsGroup h]
    split at hsplit
    · cases hsplit
    · rename_i hunsigned
      rw [if_neg hunsigned]
  · rw [splitLiteral?_of_ne_minus _ awaitsOperand hminus] at hsplit ⊢
    rw [startsNumber_of_addsGroup h]
    split at hsplit
    · cases hsplit
    · rename_i hnot
      rw [if_neg hnot]

/-- A text whose numbers are kept apart has the same tokens once the mark is declared. -/
theorem tokensFrom_of_numbersApart {awaitsOperand : Bool} {position : Nat}
    (hapart : (tokensFrom f awaitsOperand position text).NumbersApart) :
    tokensFrom g awaitsOperand position text = tokensFrom f awaitsOperand position text := by
  fun_induction tokensFrom f awaitsOperand position text with
  | case1 awaitsOperand position => rw [tokensFrom]
  | case2 awaitsOperand position c rest hblank ih =>
      rw [tokensFrom_blank g awaitsOperand position rest hblank, ih hapart]
  | case3 awaitsOperand position c rest hblank found hfound value hvalue ih =>
      have hc : Text.isBlank c = false := Bool.eq_false_iff.mpr hblank
      have hsplit := splitLiteral?_of_followsNumber h (splitLiteral?_of_literal? hfound) hapart.left
      rw [tokensFrom_number position hc hsplit (h.readLiteral hvalue), ih hapart.right]
  | case4 => exact False.elim hapart
  | case5 awaitsOperand position c rest hblank hfound token htoken ih =>
      have hc : Text.isBlank c = false := Bool.eq_false_iff.mpr hblank
      have hsplit :=
        splitLiteral?_eq_none_of_addsGroup h (splitLiteral?_eq_none_iff.mpr hfound)
      rw [tokensFrom_single position hc hsplit htoken, ih hapart.rest]
  | case6 => exact False.elim hapart

end Scan

theorem Expr.ofText_of_addsGroup {f g : NumberFormat} (h : f.AddsGroup g) {text : List Char}
    {e : Expr} (hread : Expr.ofText f text = .ok e) : Expr.ofText g text = .ok e := by
  have hapart := Expr.numbersApart_of_ofTokens (Scan.endsOnce_tokensFrom f true 0 text) hread
  rw [Expr.ofText, TokenStream.ofText, Scan.tokensFrom_of_numbersApart h hapart]
  exact hread

theorem NumberFormat.addsGroup_of_ofChars {decimal : Char} {group : Option Char}
    {f g : NumberFormat} (hf : NumberFormat.ofChars decimal none = .ok f)
    (hg : NumberFormat.ofChars decimal group = .ok g) : f.AddsGroup g := by
  rcases ofChars_eq_ok hf with ⟨hdecimal, hgroup⟩
  rcases ofChars_eq_ok hg with ⟨hdecimal', _⟩
  rw [hdecimal] at hdecimal'
  exact ⟨hgroup, (Option.some.inj hdecimal').symm⟩

/-- Whatever character is declared to group digits, even the one that separates decimals, an
entry that was accepted without it has the same tree. -/
theorem Expr.ofText_ofChars_group {decimal : Char} {group : Option Char} {f g : NumberFormat}
    (hf : NumberFormat.ofChars decimal none = .ok f)
    (hg : NumberFormat.ofChars decimal group = .ok g) {text : List Char} {e : Expr}
    (hread : Expr.ofText f text = .ok e) : Expr.ofText g text = .ok e :=
  Expr.ofText_of_addsGroup (NumberFormat.addsGroup_of_ofChars hf hg) hread

theorem Expr.ofText_ofChars_group_comma_space :
    Expr.ofText { decimal := .comma, group := none } "2,5 *\u202f1".toList =
        .ok (.binary .times (.number (Float.ofBits 0x4004000000000000))
          (.number (Float.ofBits 0x3FF0000000000000))) ∧
      Expr.ofText { decimal := .comma, group := some .comma } "2,5 *\u202f1".toList =
        .ok (.binary .times (.number (Float.ofBits 0x4004000000000000))
          (.number (Float.ofBits 0x3FF0000000000000))) ∧
      Expr.ofText { decimal := .comma, group := some .space } "2,5 *\u202f1".toList =
        .ok (.binary .times (.number (Float.ofBits 0x4004000000000000))
          (.number (Float.ofBits 0x3FF0000000000000))) := by
  have hread : Expr.ofText { decimal := .comma, group := none } "2,5 *\u202f1".toList =
      .ok (.binary .times (.number (Float.ofBits 0x4004000000000000))
        (.number (Float.ofBits 0x3FF0000000000000))) := by
    decide +kernel
  have hplain : NumberFormat.ofChars ',' none = .ok { decimal := .comma, group := none } := rfl
  have hcomma : NumberFormat.ofChars ',' (some ',') =
      .ok { decimal := .comma, group := some .comma } := rfl
  have hspace : NumberFormat.ofChars ',' (some '\u00a0') =
      .ok { decimal := .comma, group := some .space } := rfl
  exact ⟨hread, Expr.ofText_ofChars_group hplain hcomma hread,
    Expr.ofText_ofChars_group hplain hspace hread⟩

end RegionalCalculator
