import RegionalCalculator.Error
import RegionalCalculator.Format.Named

/-!
# What becomes of a literal

Any text may be taken for a literal. Four things can be wrong with it; they are looked for
in a fixed order, and the first one found is reported together with the text. If there is
none, the text is put into canonical form: the digits on both sides of its last decimal mark,
with a point between. In an ambiguous format only the first two things can be wrong.
-/

namespace RegionalCalculator
namespace Numeral

/-!
# Rules
-/

def HasForeign (f : NumberFormat) (text : List Char) : Prop :=
  exists c, c ∈ text ∧ c.isDigit = false ∧ c ≠ f.decimal.toChar ∧ f.isGroup c = false

def HasDigit (text : List Char) : Prop :=
  exists c, c ∈ text ∧ c.isDigit = true

def RepeatsDecimal (f : NumberFormat) (text : List Char) : Prop :=
  List.Sublist [f.decimal.toChar, f.decimal.toChar] text

def GroupsDecimals (f : NumberFormat) (text : List Char) : Prop :=
  exists mark, f.isGroup mark = true ∧ List.Sublist [f.decimal.toChar, mark] text

/-- What stands before and behind the last decimal mark. Without a mark everything stands
before it. -/
inductive Cut (f : NumberFormat) : List Char -> List Char -> List Char -> Prop where
  | marked {before after : List Char} :
      f.decimal.toChar ∉ after ->
      Cut f (before ++ f.decimal.toChar :: after) before after
  | unmarked {text : List Char} :
      f.decimal.toChar ∉ text ->
      Cut f text text []

/-- The digits of both parts with a point between. A zero stands for missing digits before
it, and without digits behind it there is no point. -/
def canonicalText (negative : Bool) (before after : List Char) : List Char :=
  (if negative then ['-'] else []) ++
    (if before.any Char.isDigit then before.filter Char.isDigit else ['0']) ++
    (if after.any Char.isDigit then '.' :: after.filter Char.isDigit else [])

/-- The outcome for a literal is what the first rule that applies says. -/
inductive Normalizes (f : NumberFormat) (text : List Char) :
    Except EntryError (List Char) -> Prop where
  | foreign :
      HasForeign f (body text) ->
      Normalizes f text (.error (.malformedLiteral text .foreignCharacter))
  | noDigit :
      ¬ HasForeign f (body text) -> ¬ HasDigit (body text) ->
      Normalizes f text (.error (.malformedLiteral text .noDigit))
  | repeated :
      ¬ HasForeign f (body text) -> HasDigit (body text) ->
      f.isAmbiguous = false -> RepeatsDecimal f (body text) ->
      Normalizes f text (.error (.malformedLiteral text .repeatedDecimal))
  | grouped :
      ¬ HasForeign f (body text) -> HasDigit (body text) ->
      f.isAmbiguous = false -> ¬ RepeatsDecimal f (body text) -> GroupsDecimals f (body text) ->
      Normalizes f text (.error (.malformedLiteral text .groupAfterDecimal))
  | canonical {before after : List Char} :
      ¬ HasForeign f (body text) -> HasDigit (body text) ->
      (f.isAmbiguous = false ->
        ¬ RepeatsDecimal f (body text) ∧ ¬ GroupsDecimals f (body text)) ->
      Cut f (body text) before after ->
      Normalizes f text (.ok (canonicalText (text.head? == some '-') before after))

/-!
# The checks
-/

section

variable {f : NumberFormat} {text before after : List Char}

theorem all_belongs_iff : text.all f.belongs = true <-> ¬ HasForeign f text := by
  rw [List.all_eq_true]
  constructor
  · rintro hbelongs ⟨c, hc, hdigit, hdecimal, hgroup⟩
    have hforeign := hbelongs c hc
    rw [NumberFormat.belongs, hdigit, hgroup, Bool.false_or, Bool.or_false,
      NumberFormat.isDecimal_eq_true_iff] at hforeign
    exact hdecimal hforeign
  · intro hforeign c hc
    rw [← Bool.not_eq_false, NumberFormat.belongs, Bool.or_eq_false_iff, Bool.or_eq_false_iff]
    rintro ⟨⟨hdigit, hdecimal⟩, hgroup⟩
    refine hforeign ⟨c, hc, hdigit, fun heq => ?_, hgroup⟩
    rw [NumberFormat.isDecimal_eq_true_iff.mpr heq] at hdecimal
    cases hdecimal

theorem any_isDigit_iff : text.any Char.isDigit = true <-> HasDigit text :=
  List.any_eq_true

theorem two_le_countP_iff : 2 <= text.countP f.isDecimal <-> RepeatsDecimal f text :=
  (List.replicate_sublist_iff (n := 2) (a := f.decimal.toChar)).symm

theorem cut_iff :
    Cut f text before after <->
      (splitLast? f.isDecimal text).getD (text, []) = (before, after) := by
  have hfree : forall part : List Char,
      (forall c, c ∈ part -> f.isDecimal c = false) <-> f.decimal.toChar ∉ part := by
    intro part
    constructor
    · intro hpart hmem
      have hnone := hpart _ hmem
      rw [NumberFormat.isDecimal_eq_true_iff.mpr rfl] at hnone
      cases hnone
    · intro hpart c hc
      rw [Bool.eq_false_iff, ne_eq, NumberFormat.isDecimal_eq_true_iff]
      intro heq
      rw [heq] at hc
      exact hpart hc
  constructor
  · intro h
    cases h with
    | marked hafter =>
        rw [splitLast?_append_cons before (NumberFormat.isDecimal_eq_true_iff.mpr rfl)
          ((hfree after).mpr hafter)]
        rfl
    | unmarked htext =>
        rw [splitLast?_eq_none_iff.mpr ((hfree text).mpr htext)]
        rfl
  · intro h
    cases hsplit : splitLast? f.isDecimal text with
    | none =>
        rw [hsplit] at h
        cases h
        exact Cut.unmarked ((hfree text).mp (splitLast?_eq_none_iff.mp hsplit))
    | some parts =>
        rw [hsplit] at h
        cases h
        rcases eq_append_of_splitLast? hsplit with ⟨c, hc, htext, hafter⟩
        rw [htext, NumberFormat.isDecimal_eq_true_iff.mp hc]
        exact Cut.marked ((hfree after).mp hafter)

theorem exists_cut (f : NumberFormat) (text : List Char) :
    exists before after, Cut f text before after :=
  ⟨_, _, cut_iff.mpr rfl⟩

theorem Cut.unique {before' after' : List Char} (h : Cut f text before after)
    (h' : Cut f text before' after') : before = before' ∧ after = after' := by
  have hparts := (cut_iff.mp h).symm.trans (cut_iff.mp h')
  cases hparts
  exact ⟨rfl, rfl⟩

theorem Cut.grouped_of_not_all (hcut : Cut f text before after) (hforeign : ¬ HasForeign f text)
    (hdigits : after.all Char.isDigit = false) :
    f.isAmbiguous = false ∧ GroupsDecimals f text := by
  rcases List.all_eq_false.mp hdigits with ⟨c, hc, hdigit⟩
  rw [Bool.not_eq_true] at hdigit
  cases hcut with
  | unmarked _ => cases hc
  | marked hafter =>
      have hother : c ≠ f.decimal.toChar := fun heq => hafter (heq ▸ hc)
      have hgroup : f.isGroup c = true := by
        rw [← Bool.not_eq_false]
        intro hnone
        have hmem := List.mem_append_right before (List.mem_cons_of_mem f.decimal.toChar hc)
        exact hforeign ⟨c, hmem, hdigit, hother, hnone⟩
      refine ⟨?_, c, hgroup, ?_⟩
      · rw [Bool.eq_false_iff]
        intro hambiguous
        exact hother (NumberFormat.eq_toChar_of_isAmbiguous hambiguous hgroup)
      · have htail := List.Sublist.cons_cons f.decimal.toChar (List.singleton_sublist.mpr hc)
        exact htail.trans (List.sublist_append_right before _)

theorem Cut.not_all_of_grouped (hcut : Cut f text before after)
    (hrepeated : ¬ RepeatsDecimal f text) (hgrouped : GroupsDecimals f text) :
    after.all Char.isDigit = false := by
  rcases hgrouped with ⟨mark, hmark, hsublist⟩
  rcases List.cons_sublist_iff.mp hsublist with ⟨front, back, htext, hfront, hback⟩
  rcases List.append_of_mem hfront with ⟨whole, between, rfl⟩
  rw [List.append_assoc, List.cons_append] at htext
  -- the only decimal mark is the one in front of the grouping mark, so the cut is made there
  have honly : f.decimal.toChar ∉ between ++ back := by
    intro hmem
    refine hrepeated ?_
    rw [RepeatsDecimal, htext]
    have htail := List.Sublist.cons_cons f.decimal.toChar (List.singleton_sublist.mpr hmem)
    exact htail.trans (List.sublist_append_right whole _)
  have hafter : after = between ++ back :=
    (hcut.unique (htext ▸ Cut.marked honly)).right
  refine List.all_eq_false.mpr ⟨mark, ?_, ?_⟩
  · rw [hafter]
    exact List.mem_append_right between (List.singleton_sublist.mp hback)
  · rw [NumberFormat.isDigit_of_isGroup hmark]
    exact Bool.false_ne_true

/-!
# The outcome
-/

theorem any_isDigit_eq_not_isEmpty (part : List Char) :
    part.any Char.isDigit = !(part.filter Char.isDigit).isEmpty := by
  rw [Bool.eq_iff_iff]
  simp

theorem toChars_eq_canonicalText (negative : Bool) (before : List Char)
    (hdigits : after.all Char.isDigit = true) :
    (Numeral.mk negative (before.filter Char.isDigit) after).toChars =
      canonicalText negative before after := by
  have hfraction : after.filter Char.isDigit = after :=
    List.filter_eq_self.mpr (List.all_eq_true.mp hdigits)
  rw [canonicalText, any_isDigit_eq_not_isEmpty, any_isDigit_eq_not_isEmpty, hfraction]
  cases hwhole : (before.filter Char.isDigit).isEmpty <;> cases hempty : after.isEmpty <;>
    simp only [toChars, hwhole, hempty] <;> rfl

theorem map_toChars_of_normalizes {outcome : Except EntryError (List Char)}
    (h : Normalizes f text outcome) : (normalizeLiteral f text).map toChars = outcome := by
  have herror : forall {fault : LiteralFault}, ofLiteral f text = .error fault ->
      (normalizeLiteral f text).map toChars = .error (.malformedLiteral text fault) := by
    intro fault hfault
    rw [normalizeLiteral, hfault]
    rfl
  have hrepeated_iff : (!f.isAmbiguous && decide (2 <= (body text).countP f.isDecimal)) = true <->
      f.isAmbiguous = false ∧ RepeatsDecimal f (body text) := by
    rw [Bool.and_eq_true, Bool.not_eq_true', decide_eq_true_iff, two_le_countP_iff]
  cases h with
  | foreign hforeign =>
      have hbelongs : (body text).all f.belongs = false :=
        Bool.eq_false_iff.mpr fun hall => all_belongs_iff.mp hall hforeign
      apply herror
      rw [ofLiteral, hbelongs]
      rfl
  | noDigit hforeign hdigit =>
      have hany : (body text).any Char.isDigit = false :=
        Bool.eq_false_iff.mpr fun hany => hdigit (any_isDigit_iff.mp hany)
      apply herror
      rw [ofLiteral, all_belongs_iff.mpr hforeign, hany]
      rfl
  | repeated hforeign hdigit hambiguous hrepeated =>
      apply herror
      rw [ofLiteral, all_belongs_iff.mpr hforeign, any_isDigit_iff.mpr hdigit,
        hrepeated_iff.mpr ⟨hambiguous, hrepeated⟩]
      rfl
  | grouped hforeign hdigit hambiguous hrepeated hgrouped =>
      have hcount := Bool.eq_false_iff.mpr fun htwice => hrepeated (hrepeated_iff.mp htwice).right
      rcases exists_cut f (body text) with ⟨before, after, hcut⟩
      have hother : (!after.all Char.isDigit) = true := by
        rw [hcut.not_all_of_grouped hrepeated hgrouped, Bool.not_false]
      apply herror
      rw [ofLiteral, all_belongs_iff.mpr hforeign, any_isDigit_iff.mpr hdigit, hcount,
        cut_iff.mp hcut]
      exact if_pos hother
  | @canonical before after hforeign hdigit hpassed hcut =>
      have hcount := Bool.eq_false_iff.mpr fun htwice =>
        (hpassed (hrepeated_iff.mp htwice).left).left (hrepeated_iff.mp htwice).right
      have hdigits : after.all Char.isDigit = true := by
        rw [← Bool.not_eq_false]
        intro hother
        rcases hcut.grouped_of_not_all hforeign hother with ⟨hambiguous, hgrouped⟩
        exact (hpassed hambiguous).right hgrouped
      have hnumeral := ofLiteral_eq_ok_iff.mpr ⟨all_belongs_iff.mpr hforeign,
        any_isDigit_iff.mpr hdigit, hcount, _, cut_iff.mp hcut, hdigits, rfl⟩
      rw [normalizeLiteral, hnumeral, ← toChars_eq_canonicalText _ _ hdigits]
      rfl

theorem exists_normalizes (f : NumberFormat) (text : List Char) :
    exists outcome, Normalizes f text outcome := by
  by_cases hforeign : HasForeign f (body text)
  · exact ⟨_, .foreign hforeign⟩
  by_cases hdigit : HasDigit (body text)
  case neg => exact ⟨_, .noDigit hforeign hdigit⟩
  rcases exists_cut f (body text) with ⟨before, after, hcut⟩
  cases hambiguous : f.isAmbiguous with
  | true =>
      refine ⟨_, .canonical hforeign hdigit (fun hother => ?_) hcut⟩
      rw [hambiguous] at hother
      cases hother
  | false =>
      by_cases hrepeated : RepeatsDecimal f (body text)
      · exact ⟨_, .repeated hforeign hdigit hambiguous hrepeated⟩
      by_cases hgrouped : GroupsDecimals f (body text)
      · exact ⟨_, .grouped hforeign hdigit hambiguous hrepeated hgrouped⟩
      exact ⟨_, .canonical hforeign hdigit (fun _ => ⟨hrepeated, hgrouped⟩) hcut⟩

/-- The rules settle every literal, and each in one way; the reasons are told in these words.
An ambiguous format takes any digits and decimal marks with a digit among them. -/
theorem normalizes_iff (f : NumberFormat) (text : List Char) :
    (forall outcome, Normalizes f text outcome <-> (normalizeLiteral f text).map toChars = outcome) ∧
      [LiteralFault.foreignCharacter, .noDigit, .repeatedDecimal, .groupAfterDecimal].map
          LiteralFault.reason =
        ["caractère étranger au format actif", "aucun chiffre", "séparateur décimal répété",
          "séparateur de milliers après le séparateur décimal"] ∧
      (f.isAmbiguous = true ->
        (forall c, c ∈ body text -> c.isDigit = true ∨ c = f.decimal.toChar) ->
          HasDigit (body text) -> exists n, normalizeLiteral f text = .ok n) := by
  refine ⟨fun outcome => ⟨map_toChars_of_normalizes, ?_⟩, rfl, ?_⟩
  · rintro rfl
    rcases exists_normalizes f text with ⟨outcome, houtcome⟩
    rw [map_toChars_of_normalizes houtcome]
    exact houtcome
  · intro hambiguous hmarks hdigit
    have hforeign : ¬ HasForeign f (body text) := by
      rintro ⟨c, hc, hother, hdecimal, _⟩
      rcases hmarks c hc with hmark | hmark
      · rw [hmark] at hother
        cases hother
      · exact hdecimal hmark
    rcases exists_cut f (body text) with ⟨before, after, hcut⟩
    have hpassed : f.isAmbiguous = false ->
        ¬ RepeatsDecimal f (body text) ∧ ¬ GroupsDecimals f (body text) := by
      intro hother
      rw [hambiguous] at hother
      cases hother
    have houtcome := map_toChars_of_normalizes (.canonical hforeign hdigit hpassed hcut)
    cases hnormal : normalizeLiteral f text with
    | error error =>
        rw [hnormal] at houtcome
        cases houtcome
    | ok n => exact ⟨n, rfl⟩

theorem normalizes_iff_points :
    (exists n, normalizeLiteral NamedFormat.dotDot.format "-1.234.56".toList = .ok n) ∧
      Normalizes NamedFormat.dotDot.format "-1.234.56".toList (.ok "-1234.56".toList) := by
  have hrules := normalizes_iff NamedFormat.dotDot.format "-1.234.56".toList
  have hmarks : forall c, c ∈ body "-1.234.56".toList -> c.isDigit = true ∨ c = '.' := by
    have hall : (body "-1.234.56".toList).all (fun c => c.isDigit || c == '.') = true := rfl
    intro c hc
    have hmark := List.all_eq_true.mp hall c hc
    rw [Bool.or_eq_true, beq_iff_eq] at hmark
    exact hmark
  have hdigit : HasDigit (body "-1.234.56".toList) := any_isDigit_iff.mp rfl
  exact ⟨hrules.right.right rfl hmarks hdigit, (hrules.left _).mpr rfl⟩

end

end Numeral
end RegionalCalculator
