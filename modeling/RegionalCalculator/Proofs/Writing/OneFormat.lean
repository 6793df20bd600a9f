import RegionalCalculator.Proofs.Reading.FlatScan
import RegionalCalculator.Proofs.Scanning.Tiling
import RegionalCalculator.Proofs.Writing.Display

/-!
# Numbers of one format

A number in which both marks of its format occur belongs to this format alone: every
format with other marks refuses it. Either the other format does not take it for one
literal, and then something other than an operator stands behind the literal that it
does take; or it takes the whole number, and finds a mark that is foreign to it or a
grouping mark among the decimals.
-/

namespace RegionalCalculator

/-!
# Marks that two formats share
-/

theorem GroupMark.ofChar?_of_covers {mark : GroupMark} {c : Char} (h : mark.covers c = true) :
    ofChar? c = some mark := by
  by_cases hspace : mark = space
  · have hspaces : spaces.all (fun c => ofChar? c == some space) = true := rfl
    rw [hspace] at h ⊢
    exact eq_of_beq (List.all_eq_true.mp hspaces c (List.contains_iff_mem.mp h))
  · rw [covers_eq_beq hspace] at h
    rw [eq_of_beq h, ofChar?_toChar]

namespace NumberFormat

variable {f g : NumberFormat} {mark : Char}

theorem isBlank_toChar_decimal (f : NumberFormat) : Text.isBlank f.decimal.toChar = false := by
  cases f.decimal <;> rfl

theorem group_eq_of_isGroup (hf : f.isGroup mark = true) (hg : g.isGroup mark = true) :
    f.group = g.group := by
  rcases isGroup_eq_true_iff.mp hf with ⟨left, hleft, hcovers⟩
  rcases isGroup_eq_true_iff.mp hg with ⟨right, hright, hcovers'⟩
  rw [hleft, hright, ← GroupMark.ofChar?_of_covers hcovers, GroupMark.ofChar?_of_covers hcovers']

theorem isGroup_of_belongs (hdigit : mark.isDigit = false) (hdecimal : f.isDecimal mark = false)
    (h : f.belongs mark = true) : f.isGroup mark = true := by
  rw [belongs, hdigit, hdecimal] at h
  exact h

theorem sameMarks_or_isDecimal (hambiguous : f.isAmbiguous = false) (hmark : f.isGroup mark = true)
    (hgroup : g.belongs mark = true) (hdecimal : g.belongs f.decimal.toChar = true) :
    f.sameMarks g = true ∨
      g.isDecimal mark = true ∧ g.isDecimal f.decimal.toChar = false := by
  have hdigit : mark.isDigit = false := isDigit_of_isGroup hmark
  cases hsame : g.isDecimal f.decimal.toChar with
  | true =>
      have hdecimals : f.decimal = g.decimal :=
        DecimalMark.toChar_inj.mp (isDecimal_eq_true_iff.mp hsame)
      have hother : g.isDecimal mark = false := by
        rw [isDecimal, ← hdecimals]
        exact isDecimal_of_isGroup hambiguous hmark
      have hgroups := group_eq_of_isGroup hmark (isGroup_of_belongs hdigit hother hgroup)
      exact Or.inl (sameMarks_iff.mpr ⟨hdecimals, hgroups⟩)
  | false =>
      refine Or.inr ⟨?_, rfl⟩
      cases hother : g.isDecimal mark with
      | true => rfl
      | false =>
          -- Both marks would then group digits in the other format, and be the same one.
          have hgroups := group_eq_of_isGroup hmark (isGroup_of_belongs hdigit hother hgroup)
          have hpoint := isGroup_of_belongs f.isDigit_toChar_decimal hsame hdecimal
          rw [isGroup, ← hgroups] at hpoint
          have hnone := isDecimal_of_isGroup hambiguous hpoint
          rw [isDecimal_eq_true_iff.mpr rfl] at hnone
          cases hnone

end NumberFormat

/-!
# Numbers with both marks
-/

theorem Numeral.checks_of_ofLiteral {f : NumberFormat} {text : List Char} {numeral : Numeral}
    (h : ofLiteral f text = .ok numeral) :
    (forall c, c ∈ body text -> f.belongs c = true) ∧
      forall before after, splitLast? f.isDecimal (body text) = some (before, after) ->
        forall c, c ∈ after -> c.isDigit = true := by
  rcases ofLiteral_eq_ok_iff.mp h with ⟨hbelongs, _, _, parts, hparts, hdigits, _⟩
  refine ⟨List.all_eq_true.mp hbelongs, ?_⟩
  intro before after hsplit
  rw [hsplit] at hparts
  cases hparts
  exact List.all_eq_true.mp hdigits

namespace Figures

/-- The number is written with at least one grouping mark, and with the decimal mark
whether decimals follow or not. -/
def WrittenInFull (f : NumberFormat) (n : Figures) (text : List Char) : Prop :=
  exists front mark, Grouped f n.whole front ∧ mark ∈ front ∧ f.isGroup mark = true ∧
    text = front ++ f.decimal.toChar :: n.fraction

variable {f g : NumberFormat} {n : Figures} {text : List Char}

namespace WrittenInFull

theorem laidOut (h : WrittenInFull f n text) : LaidOut f n text := by
  rcases h with ⟨front, mark, hgrouped, _, _, htext⟩
  rw [htext]
  exact LaidOut.marked hgrouped

theorem sameMarks_of_ofLiteral (h : WrittenInFull f n text) (hambiguous : f.isAmbiguous = false)
    {negative : Bool} {numeral : Numeral}
    (hread : Numeral.ofLiteral g (Scan.withSign negative text) = .ok numeral) :
    f.sameMarks g = true := by
  have hchecks := Numeral.checks_of_ofLiteral hread
  rw [Scan.body_withSign negative h.laidOut.head?_ne_minus] at hchecks
  rcases h with ⟨front, mark, hgrouped, hmem, hmark, htext⟩
  rcases hchecks with ⟨hbelongs, hdigits⟩
  rw [htext] at hbelongs hdigits
  have hgroup : g.belongs mark = true := hbelongs mark (List.mem_append_left _ hmem)
  have hdecimal : g.belongs f.decimal.toChar = true :=
    hbelongs _ (List.mem_append_right _ List.mem_cons_self)
  rcases NumberFormat.sameMarks_or_isDecimal hambiguous hmark hgroup hdecimal with
    hsame | ⟨hswapped, hother⟩
  · exact hsame
  · -- The last grouping mark is the other format's decimal mark, and among the decimals
    -- behind it stands the decimal mark of this format.
    have hfree : forall c, c ∈ f.decimal.toChar :: n.fraction -> g.isDecimal c = false :=
      List.forall_mem_cons.mpr ⟨hother, n.isDecimal_of_mem_fraction g⟩
    cases hsplit : Numeral.splitLast? g.isDecimal front with
    | none =>
        rw [Numeral.splitLast?_eq_none_iff.mp hsplit mark hmem] at hswapped
        cases hswapped
    | some parts =>
        rcases Numeral.eq_append_of_splitLast? hsplit with ⟨c, hc, hfront, hafter⟩
        have hlast := Numeral.splitLast?_append_cons parts.1 hc
          (List.forall_mem_append.mpr ⟨hafter, hfree⟩)
        rw [← List.cons_append, ← List.append_assoc, ← hfront] at hlast
        have hdigit := hdigits _ _ hlast _ (List.mem_append_right _ List.mem_cons_self)
        rw [f.isDigit_toChar_decimal] at hdigit
        cases hdigit

theorem exists_not_blank (h : WrittenInFull f n text) {run rest : List Char}
    (happend : text = run ++ rest) (hrest : rest ≠ []) :
    exists c, c ∈ rest ∧ Text.isBlank c = false := by
  rcases h with ⟨front, _, _, _, _, htext⟩
  have hdecimals : forall c, c ∈ f.decimal.toChar :: n.fraction -> Text.isBlank c = false :=
    List.forall_mem_cons.mpr ⟨f.isBlank_toChar_decimal, fun c hc =>
      Text.not_isBlank_of_isDigit (n.isDigit_fraction c hc)⟩
  rcases List.exists_mem_of_ne_nil rest hrest with ⟨c, hc⟩
  rw [htext] at happend
  rcases List.append_eq_append_iff.mp happend with ⟨part, _, hpart⟩ | ⟨part, _, hpart⟩
  · exact ⟨c, hc, hdecimals c (by rw [hpart]; exact List.mem_append_right _ hc)⟩
  · refine ⟨f.decimal.toChar, ?_, f.isBlank_toChar_decimal⟩
    rw [hpart]
    exact List.mem_append_right _ List.mem_cons_self

end WrittenInFull
end Figures

/-!
# Entries that start with a number
-/

theorem Scan.Tiled.exists_error {f : NumberFormat} {due : Prop} {position : Nat}
    {text : List Char} {items : List (Except EntryError (Nat × Token))}
    (h : Tiled f due position text items)
    (hchars : forall c, c ∈ text -> Token.ofChar? c = none)
    (hblank : exists c, c ∈ text ∧ Text.isBlank c = false) (place : Nesting) :
    exists error, place.run .operator items = .error error := by
  cases h with
  | last hblanks hcloses =>
      cases hcloses with
      | finish =>
          rcases hblank with ⟨c, hc, hnot⟩
          rw [List.append_nil] at hc
          rw [hblanks c hc] at hnot
          cases hnot
      | malformed _ _ _ => exact ⟨_, rfl⟩
      | foreign _ _ _ => exact ⟨_, rfl⟩
  | @token _ _ blanks text rest _ _ _ hspells _ =>
      rcases hspells.number_or_single with ⟨value, htoken⟩ | ⟨c, htext, htoken⟩
      · rw [htoken]
        exact ⟨_, rfl⟩
      · have hmem : c ∈ blanks ++ text ++ rest := by
          rw [htext]
          exact List.mem_append_left _ (List.mem_append_right _ List.mem_cons_self)
        rw [hchars c hmem] at htoken
        cases htoken

namespace Expr

open Scan

variable {f : NumberFormat} {text literal rest : List Char}

theorem ofText_of_malformed {error : EntryError}
    (hsplit : splitLiteral? f true text = some (literal, rest))
    (hread : readLiteral f literal = .error error) : ofText f text = .error error := by
  rcases exists_cons_of_splitLiteral? hsplit with ⟨c, others, htext, hblank⟩
  rw [htext] at hsplit ⊢
  rw [ofText, TokenStream.ofText, tokensFrom_malformed 0 hblank hsplit hread]
  rfl

theorem exists_error_of_rest (hsplit : splitLiteral? f true text = some (literal, rest))
    (hchars : forall c, c ∈ rest -> Token.ofChar? c = none)
    (hblank : exists c, c ∈ rest ∧ Text.isBlank c = false) :
    exists error, ofText f text = .error error := by
  cases hread : readLiteral f literal with
  | error error => exact ⟨error, ofText_of_malformed hsplit hread⟩
  | ok value =>
      have hends := endsOnce_tokensFrom f true 0 text
      rw [ofText, TokenStream.ofText]
      rw [tokensFrom_literal 0 hsplit hread] at hends ⊢
      have htiled := tiled_tokensFrom f (0 + byteLength literal) rest
        (iff_of_false id Bool.false_ne_true)
      rcases htiled.exists_error hchars hblank {} with ⟨error, herror⟩
      exact ⟨error, ofTokens_of_verdict hends (by rw [Nesting.verdict_number, herror])⟩

end Expr

/-!
# The format of a number
-/

namespace Figures.WrittenInFull

variable {f g : NumberFormat} {n : Figures} {text : List Char}

theorem exists_error (h : WrittenInFull f n text) (hambiguous : f.isAmbiguous = false)
    (hother : f.sameMarks g = false) (negative : Bool) :
    exists error, Expr.ofText g (Scan.withSign negative text) = .error error := by
  have hstarts : Scan.startsNumber g text = true := by
    rcases h.laidOut.exists_eq_cons with ⟨digit, others, htext, hdigit⟩
    rw [htext, Scan.startsNumber, hdigit, Bool.true_or]
  have happend : (Scan.spanRun g text).1 ++ (Scan.spanRun g text).2 = text :=
    Scan.spanRun_append g text
  rcases hspan : Scan.spanRun g text with ⟨run, rest⟩
  rw [hspan] at happend
  rw [← happend] at hstarts hspan
  have hsplit := Scan.splitLiteral?_withSign negative hstarts hspan fun _ => rfl
  rw [Scan.withSign, List.append_assoc, happend, ← Scan.withSign] at hsplit
  by_cases hrest : rest = []
  · -- The whole number is one literal, which has no numeral there.
    rw [hrest, List.append_nil] at happend
    rw [happend] at hsplit
    cases hread : readLiteral g (Scan.withSign negative text) with
    | error error => exact ⟨error, Expr.ofText_of_malformed hsplit hread⟩
    | ok value =>
        rcases literalValue_eq_ok_iff.mp (readLiteral_eq_ok_iff.mp hread) with
          ⟨numeral, hnumeral, _⟩
        rw [h.sameMarks_of_ofLiteral hambiguous hnumeral] at hother
        cases hother
  · have hsuffix : forall c, c ∈ rest -> Token.ofChar? c = none := by
      intro c hc
      have hmem : c ∈ text := by
        rw [← happend]
        exact List.mem_append_right run hc
      exact NumberFormat.ofChar?_of_belongs (h.laidOut.belongs c hmem)
    exact Expr.exists_error_of_rest hsplit hsuffix (h.exists_not_blank happend.symm hrest)

theorem congr (h : WrittenInFull f n text) (hsame : f.sameMarks g = true) :
    WrittenInFull g n text := by
  rcases NumberFormat.sameMarks_iff.mp hsame with ⟨hdecimal, hgroup⟩
  rcases h with ⟨front, mark, hgrouped, hmem, hmark, htext⟩
  have hsameGroup : forall c, g.isGroup c = f.isGroup c := by
    intro c
    rw [NumberFormat.isGroup, NumberFormat.isGroup, hgroup]
  refine ⟨front, mark, hgrouped.congr hsameGroup, hmem, ?_, ?_⟩
  · rw [hsameGroup, hmark]
  · rw [← hdecimal, htext]

end Figures.WrittenInFull

/-- A number in which both marks of a format occur has its value under the formats with
these marks, and is refused under all others. -/
theorem evaluate_writtenInFull {f : NumberFormat} (hambiguous : f.isAmbiguous = false)
    {n : Figures} {text : List Char} (h : n.WrittenInFull f text) (negative : Bool)
    (g : NumberFormat) :
    (f.sameMarks g = true ->
        evaluate g (Scan.withSign negative text) = .ok (Number.negateIf negative n.value)) ∧
      (f.sameMarks g = false ->
        exists error, evaluate g (Scan.withSign negative text) = .error error) := by
  constructor
  · intro hsame
    exact ((h.congr hsame).laidOut.makes negative).evaluate_eq
  · intro hother
    rcases h.exists_error hambiguous hother negative with ⟨error, herror⟩
    exact ⟨error, by rw [evaluate, herror]; rfl⟩

theorem evaluate_writtenInFull_comma_point :
    evaluate { decimal := .point, group := some .comma } "-1,234.5".toList =
        .ok (Float.ofBits 0xC0934A0000000000) ∧
      evaluate { decimal := .comma, group := some .point } "-1,234.5".toList =
        .error (.malformedLiteral "-1,234.5".toList .groupAfterDecimal) := by
  have hgrouped : Grouped { decimal := .point, group := some .comma } ['1', '2', '3', '4']
      "1,234".toList :=
    Grouped.mark '1' rfl (Grouped.plain '2' ['3', '4'])
  have hwritten : (Figures.mk ['1', '2', '3', '4'] (some ['5']) (by decide) rfl rfl).WrittenInFull
      { decimal := .point, group := some .comma } "1,234.5".toList :=
    ⟨_, ',', hgrouped, by decide, rfl, rfl⟩
  have hread := evaluate_writtenInFull rfl hwritten true
  constructor
  · refine Eq.trans ((hread { decimal := .point, group := some .comma }).left rfl) ?_
    decide +kernel
  · rcases (hread { decimal := .comma, group := some .point }).right rfl with ⟨error, herror⟩
    have hfault : evaluate { decimal := .comma, group := some .point } "-1,234.5".toList =
        .error (.malformedLiteral "-1,234.5".toList .groupAfterDecimal) := by
      decide +kernel
    change evaluate _ "-1,234.5".toList = .error error at herror
    rw [herror] at hfault ⊢
    exact hfault

end RegionalCalculator
