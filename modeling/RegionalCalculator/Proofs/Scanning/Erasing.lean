import RegionalCalculator.Format.Named
import RegionalCalculator.Proofs.Number.Normalization
import RegionalCalculator.Proofs.Reading.Relocation
import RegionalCalculator.Proofs.Scanning.Steps

/-!
# Erasing grouping marks

A grouping mark that is neither a blank nor the decimal mark stands in an entry without a
fault only between the digits of an integer part. In front of anything else it ends the
number, and then nothing can be read from it on. So the marks may be erased: every number says
what it said before and ends where it ended, and nothing else becomes one.
-/

namespace RegionalCalculator

/-!
# Formats and texts
-/

/-- The grouping marks of the first format are neither blanks nor decimal marks. The second
format has the same decimal mark, and no grouping mark that the first has not. -/
structure NumberFormat.Drops (f g : NumberFormat) : Prop where
  unambiguous : f.isAmbiguous = false
  isBlank : forall c, f.isGroup c = true -> Text.isBlank c = false
  decimal_eq : g.decimal = f.decimal
  isGroup : forall c, g.isGroup c = true -> f.isGroup c = true

namespace NumberFormat

def ungrouped (f : NumberFormat) (text : List Char) : List Char :=
  text.filter fun c => !f.isGroup c

section

variable {f : NumberFormat} {c : Char} {text : List Char}

theorem ungrouped_cons_of_isGroup (h : f.isGroup c = true) :
    f.ungrouped (c :: text) = f.ungrouped text := by
  rw [ungrouped, List.filter_cons, h]
  rfl

theorem ungrouped_cons (h : f.isGroup c = false) :
    f.ungrouped (c :: text) = c :: f.ungrouped text := by
  rw [ungrouped, List.filter_cons, h]
  rfl

theorem mem_ungrouped_iff : c ∈ f.ungrouped text <-> c ∈ text ∧ f.isGroup c = false := by
  rw [ungrouped, List.mem_filter, Bool.not_eq_true']

theorem ungrouped_of_all_isDigit (h : text.all Char.isDigit = true) : f.ungrouped text = text := by
  apply List.filter_eq_self.mpr
  intro c hc
  rw [f.isGroup_of_isDigit (List.all_eq_true.mp h c hc), Bool.not_false]

theorem filter_isDigit_ungrouped :
    (f.ungrouped text).filter Char.isDigit = text.filter Char.isDigit := by
  rw [ungrouped, List.filter_filter]
  apply List.filter_congr
  intro c _
  cases hdigit : c.isDigit with
  | true => rw [f.isGroup_of_isDigit hdigit, Bool.not_false, Bool.and_true]
  | false => rw [Bool.false_and]

theorem body_ungrouped (hbelongs : (Numeral.body text).all f.belongs = true) :
    Numeral.body (f.ungrouped text) = f.ungrouped (Numeral.body text) ∧
      ((f.ungrouped text).head? == some '-') = (text.head? == some '-') := by
  have hminus : f.isGroup '-' = false := f.isGroup_of_ofChar? rfl
  by_cases hsign : text.head? = some '-'
  · rcases List.head?_eq_some_iff.mp hsign with ⟨rest, rfl⟩
    rw [ungrouped_cons hminus]
    exact ⟨rfl, rfl⟩
  · rw [Numeral.body_of_head?_ne_minus hsign] at hbelongs ⊢
    have hunsigned : (f.ungrouped text).head? ≠ some '-' := by
      intro hhead
      have hmem := (mem_ungrouped_iff.mp (List.mem_of_mem_head? hhead)).left
      have hforeign : f.belongs '-' = false := f.belongs_of_ofChar? rfl
      rw [List.all_eq_true.mp hbelongs _ hmem] at hforeign
      cases hforeign
    rw [Numeral.body_of_head?_ne_minus hunsigned, beq_eq_false_iff_ne.mpr hsign,
      beq_eq_false_iff_ne.mpr hunsigned]
    exact ⟨rfl, rfl⟩

end

namespace Drops

variable {f g : NumberFormat} {text before after : List Char}

theorem isDecimal (h : f.Drops g) : g.isDecimal = f.isDecimal :=
  isDecimal_congr h.decimal_eq

theorem isGroup_of_isDecimal (h : f.Drops g) {c : Char} (hdecimal : f.isDecimal c = true) :
    f.isGroup c = false := by
  rw [Bool.eq_false_iff]
  intro hgroup
  rw [isDecimal_of_isGroup h.unambiguous hgroup] at hdecimal
  cases hdecimal

theorem isGroup_of_isBlank (h : f.Drops g) {c : Char} (hblank : Text.isBlank c = true) :
    f.isGroup c = false := by
  rw [Bool.eq_false_iff]
  intro hgroup
  rw [h.isBlank c hgroup] at hblank
  cases hblank

theorem isAmbiguous (h : f.Drops g) : g.isAmbiguous = false := by
  rw [Bool.eq_false_iff]
  intro hambiguous
  rcases (Option.any_eq_true _ _).mp hambiguous with ⟨mark, hmark, hsame⟩
  have hgroup : f.isGroup mark.toChar = true :=
    h.isGroup _ (isGroup_eq_true_iff.mpr ⟨mark, hmark, mark.covers_toChar⟩)
  have hnot := isDecimal_of_isGroup h.unambiguous hgroup
  rw [eq_of_beq hsame, h.decimal_eq, isDecimal_eq_true_iff.mpr rfl] at hnot
  cases hnot

theorem belongs (h : f.Drops g) {c : Char} (hbelongs : f.belongs c = true)
    (hgroup : f.isGroup c = false) : g.belongs c = true := by
  rw [NumberFormat.belongs, hgroup, Bool.or_false] at hbelongs
  rw [NumberFormat.belongs, h.isDecimal, hbelongs, Bool.true_or]

/-!
# Literals
-/

theorem cut (h : f.Drops g) (hcut : Numeral.Cut f text before after) :
    Numeral.Cut g (f.ungrouped text) (f.ungrouped before) (f.ungrouped after) := by
  have hfree : forall {part : List Char}, f.decimal.toChar ∉ part ->
      g.decimal.toChar ∉ f.ungrouped part := by
    intro part hpart hmem
    rw [h.decimal_eq] at hmem
    exact hpart (mem_ungrouped_iff.mp hmem).left
  cases hcut with
  | marked hafter =>
      have hmark := h.isGroup_of_isDecimal (isDecimal_eq_true_iff.mpr rfl)
      have hparts : f.ungrouped (before ++ f.decimal.toChar :: after) =
          f.ungrouped before ++ g.decimal.toChar :: f.ungrouped after := by
        rw [ungrouped, List.filter_append, h.decimal_eq]
        exact congrArg (f.ungrouped before ++ ·) (ungrouped_cons hmark)
      rw [hparts]
      exact Numeral.Cut.marked (hfree hafter)
  | unmarked htext => exact Numeral.Cut.unmarked (hfree htext)

theorem ofLiteral (h : f.Drops g) {n : Numeral} (hnumeral : Numeral.ofLiteral f text = .ok n) :
    Numeral.ofLiteral g (f.ungrouped text) = .ok n := by
  rw [Numeral.ofLiteral_eq_ok_iff] at hnumeral ⊢
  rcases hnumeral with ⟨hbelongs, hdigit, hrepeated, ⟨before, after⟩, hparts, hfraction, rfl⟩
  rcases body_ungrouped hbelongs with ⟨hbody, hsign⟩
  rw [h.unambiguous, Bool.not_false, Bool.true_and, decide_eq_false_iff_not] at hrepeated
  rw [hbody, hsign, h.isAmbiguous, Bool.not_false, Bool.true_and, decide_eq_false_iff_not,
    h.isDecimal]
  have hfraction' : f.ungrouped after = after := ungrouped_of_all_isDigit hfraction
  refine ⟨?_, ?_, ?_, (f.ungrouped before, after), ?_, hfraction, ?_⟩
  · rw [List.all_eq_true] at hbelongs ⊢
    intro c hc
    rcases mem_ungrouped_iff.mp hc with ⟨hmem, hgroup⟩
    exact h.belongs (hbelongs c hmem) hgroup
  · rcases List.any_eq_true.mp hdigit with ⟨c, hc, hcdigit⟩
    exact List.any_eq_true.mpr
      ⟨c, mem_ungrouped_iff.mpr ⟨hc, f.isGroup_of_isDigit hcdigit⟩, hcdigit⟩
  · have hfewer : (f.ungrouped (Numeral.body text)).countP f.isDecimal <=
        (Numeral.body text).countP f.isDecimal :=
      List.filter_sublist.countP_le
    omega
  · have hcut := Numeral.cut_iff.mp (h.cut (Numeral.cut_iff.mpr hparts))
    rw [h.isDecimal, hfraction'] at hcut
    exact hcut
  · rw [filter_isDigit_ungrouped]

theorem readLiteral (h : f.Drops g) {value : Float}
    (hread : RegionalCalculator.readLiteral f text = .ok value) :
    RegionalCalculator.readLiteral g (f.ungrouped text) = .ok value :=
  readLiteral_of_ofLiteral (fun _ => h.ofLiteral) hread

end Drops
end NumberFormat

/-!
# Runs of a number
-/

namespace Scan

section

variable {f g : NumberFormat} {text : List Char} {awaitsOperand : Bool} {position : Nat}
  (h : f.Drops g)

include h

theorem isGroup_head_of_ready
    (hready : (tokensFrom f awaitsOperand position text).ready = .ok ()) :
    forall c, text.head? = some c -> f.isGroup c = false := by
  intro c hhead
  rcases List.head?_eq_some_iff.mp hhead with ⟨rest, rfl⟩
  rw [Bool.eq_false_iff]
  intro hgroup
  have hstarts : startsNumber f (c :: rest) = false := by
    rw [startsNumber, NumberFormat.isDigit_of_isGroup hgroup,
      NumberFormat.isDecimal_of_isGroup h.unambiguous hgroup]
    rfl
  have htoken := NumberFormat.ofChar?_of_belongs (NumberFormat.belongs_of_isGroup hgroup)
  rw [tokensFrom_stray position (h.isBlank c hgroup) hstarts htoken] at hready
  cases hready

theorem startsNumber_ungrouped (hstarts : startsNumber f text = true) :
    startsNumber g (f.ungrouped text) = true := by
  cases text with
  | nil => cases hstarts
  | cons c rest =>
      rw [startsNumber, Bool.or_eq_true, Bool.and_eq_true] at hstarts
      rcases hstarts with hdigit | ⟨hdecimal, hrest⟩
      · rw [NumberFormat.ungrouped_cons (f.isGroup_of_isDigit hdigit), startsNumber,
          hdigit, Bool.true_or]
      · cases rest with
        | nil => cases hrest
        | cons digit rest =>
            have hdigit : digit.isDigit = true := hrest
            rw [NumberFormat.ungrouped_cons (h.isGroup_of_isDecimal hdecimal),
              NumberFormat.ungrouped_cons (f.isGroup_of_isDigit hdigit), startsNumber,
              h.isDecimal, hdecimal, startsWithDigit, List.head?_cons, Option.any_some, hdigit,
              Bool.and_true, Bool.or_true]

theorem startsNumber_of_ungrouped
    (hready : (tokensFrom f awaitsOperand position text).ready = .ok ())
    (hstarts : startsNumber g (f.ungrouped text) = true) : startsNumber f text = true := by
  cases text with
  | nil => cases hstarts
  | cons c rest =>
      have hgroup := isGroup_head_of_ready h hready c rfl
      rw [NumberFormat.ungrouped_cons hgroup, startsNumber, h.isDecimal, Bool.or_eq_true,
        Bool.and_eq_true] at hstarts
      rcases hstarts with hdigit | ⟨hdecimal, _⟩
      · rw [startsNumber, hdigit, Bool.true_or]
      · rw [← Bool.not_eq_false]
        intro hnone
        have htoken := NumberFormat.ofChar?_of_belongs (NumberFormat.belongs_of_isDecimal hdecimal)
        have hblank : Text.isBlank c = false := by
          rw [Bool.eq_false_iff]
          intro hblank
          rw [f.isDecimal_of_isBlank hblank] at hdecimal
          cases hdecimal
        rw [tokensFrom_stray position hblank hnone htoken] at hready
        cases hready

theorem spanRun_ungrouped
    (hrest : forall c, (spanRun f text).2.head? = some c -> f.isGroup c = false) :
    spanRun g (f.ungrouped text) =
      (f.ungrouped (spanRun f text).1, f.ungrouped (spanRun f text).2) := by
  induction text with
  | nil => rfl
  | cons c rest ih =>
      cases hextends : extendsNumber f c rest with
      | true =>
          rw [spanRun_cons hextends] at hrest ⊢
          have hspan := ih hrest
          cases hgroup : f.isGroup c with
          | true =>
              rw [NumberFormat.ungrouped_cons_of_isGroup hgroup,
                NumberFormat.ungrouped_cons_of_isGroup hgroup, hspan]
          | false =>
              have hplain : extendsNumber g c (f.ungrouped rest) = true := by
                rw [extendsNumber, hgroup, Bool.false_and, Bool.or_false] at hextends
                rw [extendsNumber, h.isDecimal, hextends, Bool.true_or]
              rw [NumberFormat.ungrouped_cons hgroup, NumberFormat.ungrouped_cons hgroup,
                spanRun_cons hplain, hspan]
      | false =>
          rw [spanRun_stop hextends] at hrest ⊢
          have hgroup := hrest c rfl
          have hstops : extendsNumber g c (f.ungrouped rest) = false := by
            have hnone : g.isGroup c = false :=
              Bool.eq_false_iff.mpr fun hmark => Bool.false_ne_true (hgroup ▸ h.isGroup c hmark)
            rw [extendsNumber, hgroup, Bool.false_and, Bool.or_false] at hextends
            rw [extendsNumber, h.isDecimal, hextends, hnone]
            rfl
          rw [NumberFormat.ungrouped_cons hgroup, spanRun_stop hstops]
          rfl

theorem splitLiteral?_ungrouped {literal after : List Char}
    (hsplit : splitLiteral? f awaitsOperand text = some (literal, after))
    (hready : (tokensFrom f false position after).ready = .ok ()) :
    splitLiteral? g awaitsOperand (f.ungrouped text) =
      some (f.ungrouped literal, f.ungrouped after) := by
  have hminus : f.isGroup '-' = false := f.isGroup_of_ofChar? rfl
  rcases exists_cons_of_splitLiteral? hsplit with ⟨c, rest, rfl, _⟩
  rcases splitLiteral?_cases hsplit with
    ⟨rfl, hawaits, hstarts, rfl, rfl⟩ | ⟨_, hstarts, rfl, rfl⟩
  · rw [NumberFormat.ungrouped_cons hminus, NumberFormat.ungrouped_cons hminus,
      splitLiteral?_minus, if_pos ⟨hawaits, startsNumber_ungrouped h hstarts⟩,
      spanRun_ungrouped h (isGroup_head_of_ready h hready)]
  · rw [splitLiteral?_of_startsNumber awaitsOperand (startsNumber_ungrouped h hstarts),
      spanRun_ungrouped h (isGroup_head_of_ready h hready)]

/-!
# Tokens
-/

/-- A text without a fault has the same tokens once its marks are erased; only their places
move. -/
theorem relocate_tokensFrom_ungrouped {tokens : List Token}
    (htokens : (tokensFrom f awaitsOperand position text).tokens = .ok tokens)
    (position' : Nat) :
    (tokensFrom g awaitsOperand position' (f.ungrouped text)).relocate (fun _ => 0)
        (EntryError.moved fun _ => 0) =
      (tokensFrom f awaitsOperand position text).relocate (fun _ => 0)
        (EntryError.moved fun _ => 0) := by
  fun_induction tokensFrom f awaitsOperand position text generalizing tokens position' with
  | case1 awaitsOperand position =>
      have hnil : f.ungrouped [] = [] := rfl
      rw [hnil, tokensFrom]
      rfl
  | case2 awaitsOperand position c rest hblank ih =>
      rw [NumberFormat.ungrouped_cons (h.isGroup_of_isBlank hblank),
        tokensFrom_blank g awaitsOperand position' _ hblank]
      exact ih htokens _
  | case3 awaitsOperand position c rest hblank found hfound value hvalue ih =>
      rcases TokenStream.exists_tokens_rest htokens with ⟨others, hothers, _⟩
      have hsplit := splitLiteral?_ungrouped h (splitLiteral?_of_literal? hfound)
        (TokenStream.ready_of_tokens hothers)
      rw [tokensFrom_literal position' hsplit (h.readLiteral hvalue)]
      exact congrArg (TokenStream.next 0 (.number value)) (ih hothers _)
  | case4 => cases htokens
  | case5 awaitsOperand position c rest hblank hfound token htoken ih =>
      rcases TokenStream.exists_tokens_rest htokens with ⟨others, hothers, _⟩
      -- a number behind the minus sign would start there with the marks as well, since nothing
      -- behind the sign is refused
      have hsign : c = '-' ->
          ¬ (awaitsOperand = true ∧ startsNumber g (f.ungrouped rest) = true) := by
        rintro rfl ⟨hawaits, hstarts⟩
        have hstarts' := startsNumber_of_ungrouped h (TokenStream.ready_of_tokens hothers) hstarts
        have hnone := splitLiteral?_eq_none_iff.mpr hfound
        rw [splitLiteral?_minus, if_pos ⟨hawaits, hstarts'⟩] at hnone
        cases hnone
      rw [NumberFormat.ungrouped_cons (f.isGroup_of_ofChar? htoken),
        tokensFrom_unsigned position' htoken hsign]
      exact congrArg (TokenStream.next 0 token) (ih hothers _)
  | case6 => cases htokens

end

end Scan

theorem NumberFormat.drops_of_group {f g : NumberFormat} {mark : GroupMark}
    (hgroup : f.group = some mark) (hspace : mark ≠ .space) (hambiguous : f.isAmbiguous = false)
    (hdecimal : g.decimal = f.decimal) (hkept : g.group = some mark ∨ g.group = none) :
    f.Drops g where
  unambiguous := hambiguous
  isBlank c hc := by
    rw [isGroup_of_group_some hgroup, GroupMark.covers_eq_beq hspace] at hc
    rw [eq_of_beq hc]
    cases mark with
    | space => exact absurd rfl hspace
    | comma => rfl
    | point => rfl
    | apostrophe => rfl
  decimal_eq := hdecimal
  isGroup c hc := by
    rcases hkept with hsame | hnone
    · rw [isGroup_of_group_some hsame] at hc
      rw [isGroup_of_group_some hgroup, hc]
    · rw [isGroup_of_group_none hnone] at hc
      cases hc

/-- Grouping marks carry no meaning: where commas, points or apostrophes group digits and another
mark separates decimals, they may all be erased from an entry without a fault. Whether the format
still has the mark then or none at all, the tokens are the same, and so are the tree or, up to its
position, the error. -/
theorem Expr.ofText_ungrouped {f : NumberFormat} {mark : GroupMark}
    (hgroup : f.group = some mark) (hspace : mark ≠ .space) (hambiguous : f.isAmbiguous = false)
    {text : List Char} {tokens : List Token}
    (htokens : (TokenStream.ofText f text).tokens = .ok tokens) {g : NumberFormat}
    (hdecimal : g.decimal = f.decimal) (hkept : g.group = some mark ∨ g.group = none) :
    (TokenStream.ofText g (text.filter (· != mark.toChar))).tokens = .ok tokens ∧
      (Expr.ofText g (text.filter (· != mark.toChar))).mapError (EntryError.moved fun _ => 0) =
        (Expr.ofText f text).mapError (EntryError.moved fun _ => 0) := by
  have herase : text.filter (· != mark.toChar) = f.ungrouped text := by
    apply List.filter_congr
    intro c _
    rw [NumberFormat.isGroup_of_group_some hgroup, GroupMark.covers_eq_beq hspace]
    rfl
  have hdrops := NumberFormat.drops_of_group hgroup hspace hambiguous hdecimal hkept
  have hstream := Scan.relocate_tokensFrom_ungrouped hdrops htokens 0
  rw [herase]
  constructor
  · have hsame := congrArg TokenStream.tokens hstream
    rw [TokenStream.tokens_relocate, TokenStream.tokens_relocate] at hsame
    rw [TokenStream.ofText] at htokens ⊢
    rw [htokens] at hsame
    cases herased : (Scan.tokensFrom g true 0 (f.ungrouped text)).tokens with
    | error error =>
        rw [herased] at hsame
        cases hsame
    | ok others =>
        rw [herased] at hsame
        cases hsame
        rfl
  · have hread : forall (h : NumberFormat) (entry : List Char),
        (Expr.ofText h entry).mapError (EntryError.moved fun _ => 0) =
          Expr.ofTokens ((TokenStream.ofText h entry).relocate (fun _ => 0)
            (EntryError.moved fun _ => 0)) :=
      Expr.mapError_ofText fun _ _ => rfl
    rw [hread, hread]
    exact congrArg Expr.ofTokens hstream

theorem Expr.ofText_ungrouped_commas :
    (TokenStream.ofText { decimal := .point, group := none } "1234.5/(20".toList).tokens =
        .ok [.number (Number.ofMagnitudeBits 0x40934a0000000000), .operator .divide, .openParen,
          .number (Number.ofMagnitudeBits 0x4034000000000000), .finish] ∧
      (Expr.ofText { decimal := .point, group := none }
          "1234.5/(20".toList).mapError (EntryError.moved fun _ => 0) =
        .error (.unmatchedParen 0) := by
  have htokens : (TokenStream.ofText .standard "1,234.5/(2,0".toList).tokens =
      .ok [.number (Number.ofMagnitudeBits 0x40934a0000000000), .operator .divide, .openParen,
        .number (Number.ofMagnitudeBits 0x4034000000000000), .finish] := by
    decide +kernel
  have herased : "1,234.5/(2,0".toList.filter (· != GroupMark.comma.toChar) =
      "1234.5/(20".toList := by
    decide
  have hrefused : Expr.ofText .standard "1,234.5/(2,0".toList = .error (.unmatchedParen 8) := by
    decide +kernel
  rcases Expr.ofText_ungrouped rfl (by decide) rfl htokens
      (g := { decimal := .point, group := none }) rfl (Or.inr rfl) with ⟨hsame, hresult⟩
  rw [herased] at hsame hresult
  rw [hrefused] at hresult
  exact ⟨hsame, hresult⟩

end RegionalCalculator
