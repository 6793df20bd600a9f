import RegionalCalculator.Proofs.Number.Translation
import RegionalCalculator.Proofs.Reading.Relocation
import RegionalCalculator.Proofs.Scanning.Appending
import RegionalCalculator.Proofs.Text.Words

/-!
# Respaced entries

How many blanks stand between two words of an entry, and which ones, makes no difference,
with one exception: where spaces group digits, a single space between two digits belongs to
a number. So two entries with the same words are read alike if, under such a format, the
same gaps are single spaces. Positions are counted in bytes and differ, and a number that
is refused is quoted with its own spaces.
-/

namespace RegionalCalculator

open Text

/-!
# Spaces that group digits
-/

namespace GroupMark

def plain (c : Char) : Char :=
  if spaces.contains c then ' ' else c

def isSingleSpace (gap : List Char) : Bool :=
  spaces.any fun c => gap == [c]

theorem isBlank_of_mem_spaces {c : Char} (h : c ∈ spaces) : isBlank c = true := by
  have hall : spaces.all isBlank = true := rfl
  exact List.all_eq_true.mp hall c h

theorem exists_of_isSingleSpace {gap : List Char} (h : isSingleSpace gap = true) :
    exists c, c ∈ spaces ∧ gap = [c] := by
  rcases List.any_eq_true.mp h with ⟨c, hc, hgap⟩
  exact ⟨c, hc, eq_of_beq hgap⟩

theorem isSingleSpace_singleton {c : Char} (h : c ∈ spaces) : isSingleSpace [c] = true :=
  List.any_eq_true.mpr ⟨c, h, beq_self_eq_true _⟩

theorem map_plain_of_isSingleSpace {gap : List Char} (h : isSingleSpace gap = true) :
    gap.map plain = [' '] := by
  rcases exists_of_isSingleSpace h with ⟨c, hc, hgap⟩
  rw [hgap, List.map_singleton, plain, if_pos (List.contains_iff_mem.mpr hc)]

theorem apply_plain {α : Type} {property : Char -> α} (h : forall c, c ∈ spaces ->
    property c = property ' ') (c : Char) : property (plain c) = property c := by
  rw [plain]
  split
  · rename_i hspace
    exact (h c (List.contains_iff_mem.mp hspace)).symm
  · rfl

theorem translates_plain (f : NumberFormat) : Translates f f plain where
  digit c hdigit := by
    rw [plain, if_neg]
    intro hspace
    have hblank := isBlank_of_mem_spaces (List.contains_iff_mem.mp hspace)
    rw [not_isBlank_of_isDigit hdigit] at hblank
    cases hblank
  isDigit := by
    have hnone : spaces.all (fun c => c.isDigit == ' '.isDigit) = true := rfl
    exact apply_plain fun c hc => eq_of_beq (List.all_eq_true.mp hnone c hc)
  isMinus := by
    have hnone : spaces.all (fun c => (c == '-') == (' ' == '-')) = true := rfl
    exact @apply_plain Bool (fun c => c == '-') fun c hc =>
      eq_of_beq (List.all_eq_true.mp hnone c hc)
  isDecimal := by
    apply apply_plain
    intro c hc
    rw [f.isDecimal_of_isBlank (isBlank_of_mem_spaces hc), f.isDecimal_of_isBlank rfl]
  isGroup := by
    apply apply_plain
    intro c hc
    rw [Bool.eq_iff_iff, f.isGroup_of_isBlank (isBlank_of_mem_spaces hc),
      f.isGroup_of_isBlank rfl]
    exact and_congr_right fun _ => iff_of_true hc List.mem_cons_self
  isAmbiguous := rfl

end GroupMark

/-- The error without its place, and with the spaces of a quoted number all written alike. -/
def EntryError.unplaced : EntryError -> EntryError
  | .emptyEntry => .emptyEntry
  | .unexpectedCharacter c _ => .unexpectedCharacter c 0
  | .malformedLiteral text fault => .malformedLiteral (text.map GroupMark.plain) fault
  | .unmatchedParen _ => .unmatchedParen 0
  | .trailingInput _ => .trailingInput 0
  | .unexpectedToken token _ => .unexpectedToken token 0
  | .tooDeep limit => .tooDeep limit

theorem EntryError.unplaced_of_isStructural {error : EntryError}
    (h : error.isStructural = true) : error.unplaced = error.moved fun _ => 0 := by
  cases error with
  | unexpectedCharacter c position => cases h
  | malformedLiteral text fault => cases h
  | emptyEntry => rfl
  | unmatchedParen position => rfl
  | trailingInput position => rfl
  | unexpectedToken token position => rfl
  | tooDeep limit => rfl

section

variable {f : NumberFormat} {literal literal' : List Char}

theorem literalValue_of_map_plain (h : literal'.map GroupMark.plain = literal.map GroupMark.plain) :
    literalValue f literal' = literalValue f literal := by
  have htranslates := GroupMark.translates_plain f
  rw [← htranslates.literalValue_map literal', h, htranslates.literalValue_map]

theorem readLiteral_of_map_plain {value : Float}
    (h : literal'.map GroupMark.plain = literal.map GroupMark.plain)
    (hread : readLiteral f literal = .ok value) : readLiteral f literal' = .ok value := by
  rw [readLiteral_eq_ok_iff] at hread ⊢
  rw [literalValue_of_map_plain h, hread]

theorem error_of_map_plain {error : EntryError}
    (h : literal'.map GroupMark.plain = literal.map GroupMark.plain)
    (hread : readLiteral f literal = .error error) :
    exists error', readLiteral f literal' = .error error' ∧ error'.unplaced = error.unplaced := by
  rcases readLiteral_eq_error_iff.mp hread with ⟨fault, hfault, rfl⟩
  rw [← literalValue_of_map_plain h] at hfault
  refine ⟨_, readLiteral_eq_error_iff.mpr ⟨fault, hfault, rfl⟩, ?_⟩
  exact congrArg (fun text => EntryError.malformedLiteral text fault) h

end

/-!
# Texts with the same words
-/

namespace Scan

/-- What stands behind a character of a word in two texts with the same words. Where spaces
group digits, the same gaps are single spaces. -/
inductive Tails (f : NumberFormat) : List Char -> List Char -> Prop where
  | blank {blanks blanks' : List Char} :
      (forall c, c ∈ blanks -> isBlank c = true) ->
      (forall c, c ∈ blanks' -> isBlank c = true) ->
      Tails f blanks blanks'
  | keep {c : Char} {text text' : List Char} :
      isBlank c = false ->
      Tails f text text' ->
      Tails f (c :: text) (c :: text')
  | gap {c : Char} {gap gap' text text' : List Char} :
      IsGap gap ->
      IsGap gap' ->
      (f.group = some .space ->
        GroupMark.isSingleSpace gap' = GroupMark.isSingleSpace gap) ->
      isBlank c = false ->
      Tails f text text' ->
      Tails f (gap ++ c :: text) (gap' ++ c :: text')

def Respaced (f : NumberFormat) (text text' : List Char) : Prop :=
  exists blanks rest blanks' rest', text = blanks ++ rest ∧ text' = blanks' ++ rest' ∧
    (forall c, c ∈ blanks -> isBlank c = true) ∧ (forall c, c ∈ blanks' -> isBlank c = true) ∧
      Tails f rest rest'

variable {f : NumberFormat} {text text' : List Char} {c : Char}

namespace Tails

theorem respaced (h : Tails f text text') : Respaced f text text' :=
  ⟨[], text, [], text', rfl, rfl, fun _ hc => absurd hc List.not_mem_nil,
    fun _ hc => absurd hc List.not_mem_nil, h⟩

theorem symm (h : Tails f text text') : Tails f text' text := by
  induction h with
  | blank hblanks hblanks' => exact Tails.blank hblanks' hblanks
  | keep hc _ ih => exact Tails.keep hc ih
  | gap hgap hgap' hsingle hc _ ih =>
      exact Tails.gap hgap' hgap (fun hspace => (hsingle hspace).symm) hc ih

theorem of_nil (h : Tails f [] text') : forall c, c ∈ text' -> isBlank c = true := by
  generalize htext : [] = whole at h
  cases h with
  | blank _ hblanks' => exact hblanks'
  | keep _ _ => cases htext
  | gap hgap _ _ _ _ => exact absurd (List.append_eq_nil_iff.mp htext.symm).left hgap.ne_nil

theorem of_blank (h : Tails f (c :: text) text') (hc : isBlank c = true) :
    exists blanks rest blanks' rest', text = blanks ++ rest ∧ text' = blanks' ++ rest' ∧
      (forall c, c ∈ blanks -> isBlank c = true) ∧ (forall c, c ∈ blanks' -> isBlank c = true) ∧
        Tails f rest rest' := by
  generalize htext : c :: text = whole at h
  cases h with
  | blank hblanks hblanks' =>
      rw [← htext, List.forall_mem_cons] at hblanks
      exact ⟨[], text, [], text', rfl, rfl, List.forall_mem_nil _, List.forall_mem_nil _,
        Tails.blank hblanks.right hblanks'⟩
  | keep hnot hrest =>
      cases htext
      rw [hnot] at hc
      cases hc
  | @gap d gap gap' _ _ hgap hgap' _ hd hrest =>
      rcases List.exists_cons_of_ne_nil hgap.ne_nil with ⟨b, more, hcons⟩
      rw [hcons, List.cons_append] at htext
      refine ⟨more, _, gap', _, (List.cons.inj htext).right, rfl, ?_, hgap'.all,
        Tails.keep hd hrest⟩
      intro e he
      apply hgap.all e
      rw [hcons]
      exact List.mem_cons_of_mem b he

theorem exists_cons (h : Tails f (c :: text) text') (hc : isBlank c = false) :
    exists rest', text' = c :: rest' ∧ Tails f text rest' := by
  generalize htext : c :: text = whole at h
  cases h with
  | blank hblanks _ =>
      rw [hblanks c (by rw [← htext]; exact List.mem_cons_self)] at hc
      cases hc
  | keep _ hrest =>
      cases htext
      exact ⟨_, rfl, hrest⟩
  | gap hgap _ _ _ _ =>
      rcases List.exists_cons_of_ne_nil hgap.ne_nil with ⟨b, more, hcons⟩
      rw [hcons, List.cons_append] at htext
      rw [hgap.all c (by rw [hcons, (List.cons.inj htext).left]; exact List.mem_cons_self)] at hc
      cases hc

theorem append_word {word : List Char} (hword : forall c, c ∈ word -> isBlank c = false)
    (h : Tails f text text') : Tails f (word ++ text) (word ++ text') := by
  induction word with
  | nil => exact h
  | cons c word ih =>
      rw [List.forall_mem_cons] at hword
      exact Tails.keep hword.left (ih hword.right)

end Tails

theorem tails_of_spaced {words gaps gaps' : List (List Char)} (h : Spaced words gaps text)
    (h' : Spaced words gaps' text')
    (hgaps : f.group = some .space ->
      gaps'.map GroupMark.isSingleSpace = gaps.map GroupMark.isSingleSpace) :
    Tails f text text' := by
  induction h generalizing gaps' text' with
  | blank hblanks =>
      cases h' with
      | blank hblanks' => exact Tails.blank hblanks hblanks'
  | last hword hblanks =>
      cases h' with
      | last _ hblanks' => exact (Tails.blank hblanks hblanks').append_word hword.not_isBlank
  | next hword hgap hrest ih =>
      cases h' with
      | next _ hgap' hrest' =>
          have hrests := ih hrest' fun hspace => (List.cons.inj (hgaps hspace)).right
          rcases hrest.exists_cons with ⟨c, others, hcons, hc⟩
          rw [hcons] at hrests ⊢
          rcases hrests.exists_cons hc with ⟨others', hcons', hothers⟩
          rw [hcons']
          apply Tails.append_word hword.not_isBlank
          exact Tails.gap hgap hgap' (fun hspace => (List.cons.inj (hgaps hspace)).left) hc hothers

theorem respaced_of_words_eq (hwords : words text = words text')
    (hgaps : f.group = some .space ->
      (gaps text).map GroupMark.isSingleSpace = (gaps text').map GroupMark.isSingleSpace) :
    Respaced f text text' := by
  rcases spaced_words_gaps text with ⟨blanks, rest, htext, hblanks, hspaced⟩
  rcases spaced_words_gaps text' with ⟨blanks', rest', htext', hblanks', hspaced'⟩
  rw [← hwords] at hspaced'
  exact ⟨blanks, rest, blanks', rest', htext, htext', hblanks, hblanks',
    tails_of_spaced hspaced hspaced' fun hspace => (hgaps hspace).symm⟩

/-!
# Numbers
-/

theorem extendsNumber_blank_iff (h : isBlank c = true) :
    extendsNumber f c text = true <->
      f.group = some .space ∧ c ∈ GroupMark.spaces ∧ startsWithDigit text = true := by
  rw [extendsNumber, isDigit_of_isBlank h, f.isDecimal_of_isBlank h, Bool.or_self, Bool.false_or,
    Bool.and_eq_true, f.isGroup_of_isBlank h, and_assoc]

theorem startsWithDigit_blank {blanks : List Char} (h : forall c, c ∈ blanks -> isBlank c = true) :
    startsWithDigit blanks = false := by
  cases blanks with
  | nil => rfl
  | cons c rest => exact isDigit_of_isBlank (h c List.mem_cons_self)

theorem startsWithDigit_gap {gap : List Char} (h : IsGap gap) (rest : List Char) :
    startsWithDigit (gap ++ rest) = false := by
  rcases List.exists_cons_of_ne_nil h.ne_nil with ⟨b, more, hcons⟩
  rw [hcons] at h ⊢
  exact isDigit_of_isBlank (h.all b List.mem_cons_self)

theorem startsNumber_blanks {blanks : List Char} (h : forall c, c ∈ blanks -> isBlank c = true) :
    startsNumber f blanks = false := by
  cases blanks with
  | nil => rfl
  | cons c rest => exact startsNumber_blank f rest (h c List.mem_cons_self)

theorem startsNumber_gap {gap : List Char} (h : IsGap gap) (rest : List Char) :
    startsNumber f (gap ++ rest) = false := by
  rcases List.exists_cons_of_ne_nil h.ne_nil with ⟨b, more, hcons⟩
  rw [hcons] at h ⊢
  exact startsNumber_blank f _ (h.all b List.mem_cons_self)

theorem spanRun_blanks {blanks : List Char} (h : forall c, c ∈ blanks -> isBlank c = true) :
    spanRun f blanks = ([], blanks) := by
  have hnil : spanRun f [] = ([], []) := rfl
  have hspan := spanRun_blanks_append hnil h
  rwa [List.append_nil] at hspan

theorem spanRun_gap {gap : List Char} (hspace : f.group = some .space)
    (hgap : GroupMark.isSingleSpace gap = true) (hdigit : c.isDigit = true) :
    spanRun f (gap ++ c :: text) = (gap ++ c :: (spanRun f text).1, (spanRun f text).2) := by
  rcases GroupMark.exists_of_isSingleSpace hgap with ⟨b, hb, hcons⟩
  have hextends : extendsNumber f b (c :: text) = true :=
    (extendsNumber_blank_iff (GroupMark.isBlank_of_mem_spaces hb)).mpr ⟨hspace, hb, hdigit⟩
  rw [hcons, List.singleton_append, spanRun_cons hextends, spanRun_cons_of_isDigit f text hdigit]
  rfl

theorem spanRun_gap_of_not {gap : List Char} (h : IsGap gap)
    (hnot : ¬ (f.group = some .space ∧ GroupMark.isSingleSpace gap = true ∧ c.isDigit = true)) :
    spanRun f (gap ++ c :: text) = ([], gap ++ c :: text) := by
  rcases List.exists_cons_of_ne_nil h.ne_nil with ⟨b, more, hcons⟩
  rw [hcons] at h hnot ⊢
  apply spanRun_stop
  rw [Bool.eq_false_iff, ne_eq, extendsNumber_blank_iff (h.all b List.mem_cons_self)]
  rintro ⟨hspace, hb, hstarts⟩
  cases more with
  | nil => exact hnot ⟨hspace, GroupMark.isSingleSpace_singleton hb, hstarts⟩
  | cons d more =>
      have hd : isBlank d = true := h.all d (List.mem_cons_of_mem b List.mem_cons_self)
      rw [not_isBlank_of_isDigit hstarts] at hd
      cases hd

namespace Tails

theorem startsWithDigit_eq (h : Tails f text text') :
    startsWithDigit text' = startsWithDigit text := by
  cases h with
  | blank hblanks hblanks' =>
      rw [startsWithDigit_blank hblanks, startsWithDigit_blank hblanks']
  | keep _ _ => rfl
  | gap hgap hgap' _ _ _ => rw [startsWithDigit_gap hgap, startsWithDigit_gap hgap']

theorem exists_spanRun (h : Tails f text text') :
    exists run' rest', spanRun f text' = (run', rest') ∧
      run'.map GroupMark.plain = (spanRun f text).1.map GroupMark.plain ∧
        Tails f (spanRun f text).2 rest' := by
  induction h with
  | blank hblanks hblanks' =>
      rw [spanRun_blanks hblanks, spanRun_blanks hblanks']
      exact ⟨[], _, rfl, rfl, Tails.blank hblanks hblanks'⟩
  | @keep c text text' hc hrest ih =>
      have hextends : extendsNumber f c text' = extendsNumber f c text := by
        rw [extendsNumber, extendsNumber, hrest.startsWithDigit_eq]
      cases hcase : extendsNumber f c text with
      | true =>
          rcases ih with ⟨run', rest', hspan, hrun, htails⟩
          rw [hcase] at hextends
          rw [spanRun_cons hextends, spanRun_cons hcase, hspan]
          exact ⟨c :: run', rest', rfl, congrArg (GroupMark.plain c :: ·) hrun, htails⟩
      | false =>
          rw [hcase] at hextends
          rw [spanRun_stop hextends, spanRun_stop hcase]
          exact ⟨[], _, rfl, rfl, Tails.keep hc hrest⟩
  | @gap c gap gap' text text' hgap hgap' hsingle hc hrest ih =>
      by_cases htaken : f.group = some .space ∧ GroupMark.isSingleSpace gap = true ∧
          c.isDigit = true
      · -- Both gaps are single spaces and are taken with the digit behind them.
        rcases htaken with ⟨hspace, hone, hdigit⟩
        have hone' : GroupMark.isSingleSpace gap' = true := by
          rw [hsingle hspace, hone]
        rcases ih with ⟨run', rest', hspan, hrun, htails⟩
        rw [spanRun_gap hspace hone hdigit, spanRun_gap hspace hone' hdigit, hspan]
        refine ⟨gap' ++ c :: run', rest', rfl, ?_, htails⟩
        rw [List.map_append, List.map_append, List.map_cons, List.map_cons, hrun,
          GroupMark.map_plain_of_isSingleSpace hone, GroupMark.map_plain_of_isSingleSpace hone']
      · have htaken' : ¬ (f.group = some .space ∧ GroupMark.isSingleSpace gap' = true ∧
            c.isDigit = true) := by
          rintro ⟨hspace, hone', hdigit⟩
          rw [hsingle hspace] at hone'
          exact htaken ⟨hspace, hone', hdigit⟩
        rw [spanRun_gap_of_not hgap htaken, spanRun_gap_of_not hgap' htaken']
        exact ⟨[], _, rfl, rfl, Tails.gap hgap hgap' hsingle hc hrest⟩

theorem startsNumber_eq (h : Tails f text text') : startsNumber f text' = startsNumber f text := by
  cases h with
  | blank hblanks hblanks' => rw [startsNumber_blanks hblanks, startsNumber_blanks hblanks']
  | keep _ hrest => rw [startsNumber, startsNumber, hrest.startsWithDigit_eq]
  | gap hgap hgap' _ _ _ => rw [startsNumber_gap hgap, startsNumber_gap hgap']

theorem exists_splitLiteral? {awaitsOperand : Bool} {literal after : List Char}
    (h : Tails f text text') (hc : isBlank c = false)
    (hsplit : splitLiteral? f awaitsOperand (c :: text) = some (literal, after)) :
    exists literal' after', splitLiteral? f awaitsOperand (c :: text') = some (literal', after') ∧
      literal'.map GroupMark.plain = literal.map GroupMark.plain ∧ Tails f after after' := by
  rcases splitLiteral?_cases hsplit with
    ⟨hminus, hawaits, hstarts, hliteral, hafter⟩ | ⟨_, hstarts, hliteral, hafter⟩
  · rcases h.exists_spanRun with ⟨run', rest', hspan, hrun, htails⟩
    rw [← h.startsNumber_eq] at hstarts
    rw [hminus, splitLiteral?_minus, if_pos ⟨hawaits, hstarts⟩, hspan, hliteral, hafter]
    exact ⟨_, _, rfl, congrArg (GroupMark.plain '-' :: ·) hrun, htails⟩
  · have hwhole : Tails f (c :: text) (c :: text') := Tails.keep hc h
    rcases hwhole.exists_spanRun with ⟨run', rest', hspan, hrun, htails⟩
    rw [← hwhole.startsNumber_eq] at hstarts
    rw [splitLiteral?_of_startsNumber awaitsOperand hstarts, hspan, hliteral, hafter]
    exact ⟨_, _, rfl, hrun, htails⟩

theorem splitLiteral?_eq_none {awaitsOperand : Bool} (h : Tails f text text')
    (hc : isBlank c = false) (hsplit : splitLiteral? f awaitsOperand (c :: text) = none) :
    splitLiteral? f awaitsOperand (c :: text') = none := by
  rw [Option.eq_none_iff_forall_ne_some]
  rintro ⟨literal', after'⟩ hsplit'
  rcases h.symm.exists_splitLiteral? hc hsplit' with ⟨literal, after, hsome, _⟩
  rw [hsplit] at hsome
  cases hsome

end Tails

/-!
# The first character
-/

namespace Respaced

theorem of_nil (h : Respaced f [] text') : forall c, c ∈ text' -> isBlank c = true := by
  rcases h with ⟨blanks, rest, blanks', rest', htext, htext', _, hblanks', htails⟩
  rw [(List.append_eq_nil_iff.mp htext.symm).right] at htails
  rw [htext']
  exact List.forall_mem_append.mpr ⟨hblanks', htails.of_nil⟩

theorem of_blank (h : Respaced f (c :: text) text') (hc : isBlank c = true) :
    Respaced f text text' := by
  rcases h with ⟨blanks, rest, blanks', rest', htext, htext', hblanks, hblanks', htails⟩
  cases blanks with
  | cons b blanks =>
      cases htext
      exact ⟨blanks, rest, blanks', rest', rfl, htext',
        fun d hd => hblanks d (List.mem_cons_of_mem _ hd), hblanks', htails⟩
  | nil =>
      rw [List.nil_append] at htext
      rw [← htext] at htails
      rcases htails.of_blank hc with
        ⟨more, others, more', others', hmore, hmore', hall, hall', hrest⟩
      refine ⟨more, others, blanks' ++ more', others', hmore, ?_, hall, ?_, hrest⟩
      · rw [htext', hmore', List.append_assoc]
      · exact List.forall_mem_append.mpr ⟨hblanks', hall'⟩

theorem exists_cons (h : Respaced f (c :: text) text') (hc : isBlank c = false) :
    exists blanks' rest', text' = blanks' ++ c :: rest' ∧
      (forall b, b ∈ blanks' -> isBlank b = true) ∧ Tails f text rest' := by
  rcases h with ⟨blanks, rest, blanks', rest', htext, htext', hblanks, hblanks', htails⟩
  cases blanks with
  | cons b blanks =>
      cases htext
      rw [hblanks c List.mem_cons_self] at hc
      cases hc
  | nil =>
      rw [List.nil_append] at htext
      rw [← htext] at htails
      rcases htails.exists_cons hc with ⟨others', hcons, hothers⟩
      rw [hcons] at htext'
      exact ⟨blanks', others', htext', hblanks', hothers⟩

end Respaced

/-!
# Tokens
-/

/-- Without positions, and with the spaces in a quoted number written alike, texts with the same
words have the same tokens and the same fault. -/
theorem relocate_tokensFrom {awaitsOperand : Bool} {position position' : Nat}
    (h : Respaced f text text') :
    (tokensFrom f awaitsOperand position' text').relocate (fun _ => 0) EntryError.unplaced =
      (tokensFrom f awaitsOperand position text).relocate (fun _ => 0) EntryError.unplaced := by
  fun_induction tokensFrom f awaitsOperand position text generalizing text' position' with
  | case1 awaitsOperand position =>
      have hskip := tokensFrom_blanks f awaitsOperand position' [] h.of_nil
      rw [List.append_nil, tokensFrom] at hskip
      rw [hskip]
      rfl
  | case2 awaitsOperand position c rest hblank ih => exact ih (h.of_blank hblank)
  | case3 awaitsOperand position c rest hblank found hfound value hvalue ih =>
      have hc : isBlank c = false := Bool.eq_false_iff.mpr hblank
      rcases h.exists_cons hc with ⟨blanks', rest', htext', hblanks', htails⟩
      rcases htails.exists_splitLiteral? hc (splitLiteral?_of_literal? hfound) with
        ⟨literal', after', hsplit', hplain, hafter⟩
      rw [htext', tokensFrom_blanks f awaitsOperand position' _ hblanks',
        tokensFrom_number _ hc hsplit' (readLiteral_of_map_plain hplain hvalue)]
      exact congrArg (TokenStream.next 0 (.number value)) (ih hafter.respaced)
  | case4 awaitsOperand position c rest hblank found hfound error herror =>
      have hc : isBlank c = false := Bool.eq_false_iff.mpr hblank
      rcases h.exists_cons hc with ⟨blanks', rest', htext', hblanks', htails⟩
      rcases htails.exists_splitLiteral? hc (splitLiteral?_of_literal? hfound) with
        ⟨literal', after', hsplit', hplain, _⟩
      rcases error_of_map_plain hplain herror with ⟨error', herror', hunplaced⟩
      rw [htext', tokensFrom_blanks f awaitsOperand position' _ hblanks',
        tokensFrom_malformed _ hc hsplit' herror']
      exact congrArg TokenStream.fault hunplaced
  | case5 awaitsOperand position c rest hblank hfound token htoken ih =>
      have hc : isBlank c = false := Bool.eq_false_iff.mpr hblank
      rcases h.exists_cons hc with ⟨blanks', rest', htext', hblanks', htails⟩
      have hsplit' := htails.splitLiteral?_eq_none hc (splitLiteral?_eq_none_iff.mpr hfound)
      rw [htext', tokensFrom_blanks f awaitsOperand position' _ hblanks',
        tokensFrom_single _ hc hsplit' htoken]
      exact congrArg (TokenStream.next 0 token) (ih htails.respaced)
  | case6 awaitsOperand position c rest hblank hfound htoken =>
      have hc : isBlank c = false := Bool.eq_false_iff.mpr hblank
      rcases h.exists_cons hc with ⟨blanks', rest', htext', hblanks', htails⟩
      have hsplit' := htails.splitLiteral?_eq_none hc (splitLiteral?_eq_none_iff.mpr hfound)
      rw [htext', tokensFrom_blanks f awaitsOperand position' _ hblanks',
        tokensFrom_foreign _ hc hsplit' htoken]
      rfl

end Scan

theorem Expr.mapError_unplaced_ofText (f : NumberFormat) (text : List Char) :
    (Expr.ofText f text).mapError EntryError.unplaced =
      Expr.ofTokens
        ((TokenStream.ofText f text).relocate (fun _ => 0) EntryError.unplaced) :=
  Expr.mapError_ofText (fun _ => EntryError.unplaced_of_isStructural) f text

/-- Entries with the same words have the same tokens and the same tree, or the same error up to
its position and to the spaces in a number that it quotes; where spaces group digits, as long
as the same gaps are single spaces. -/
theorem Expr.ofText_respaced (f : NumberFormat) {text text' : List Char}
    (hwords : words text = words text')
    (hgaps : f.group = some .space ->
      (gaps text).map GroupMark.isSingleSpace = (gaps text').map GroupMark.isSingleSpace) :
    (TokenStream.ofText f text).tokens.mapError EntryError.unplaced =
        (TokenStream.ofText f text').tokens.mapError EntryError.unplaced ∧
      (Expr.ofText f text).mapError EntryError.unplaced =
        (Expr.ofText f text').mapError EntryError.unplaced := by
  have hstream : (TokenStream.ofText f text').relocate (fun _ => 0) EntryError.unplaced =
      (TokenStream.ofText f text).relocate (fun _ => 0) EntryError.unplaced :=
    Scan.relocate_tokensFrom (Scan.respaced_of_words_eq hwords hgaps)
  constructor
  · rw [← TokenStream.tokens_relocate, ← TokenStream.tokens_relocate, hstream]
  · rw [Expr.mapError_unplaced_ofText, Expr.mapError_unplaced_ofText, hstream]

theorem Expr.ofText_respaced_narrow_space :
    (Expr.ofText { decimal := .comma, group := some .space }
          " 12\u202f345\t+ 6,5".toList).mapError EntryError.unplaced =
        .ok (.binary .plus (.number (Float.ofBits 0x40C81C8000000000))
          (.number (Float.ofBits 0x401A000000000000))) ∧
      (Expr.ofText { decimal := .comma, group := some .space }
          "1\u00a02,3,4".toList).mapError EntryError.unplaced =
        .error (.malformedLiteral "1 2,3,4".toList .repeatedDecimal) := by
  constructor
  · have hsame := (@Expr.ofText_respaced { decimal := .comma, group := some .space }
      " 12\u202f345\t+ 6,5".toList "12 345\n\n+\u00a06,5 ".toList (by decide)
      fun _ => by decide).right
    have hread : Expr.ofText { decimal := .comma, group := some .space }
        "12 345\n\n+\u00a06,5 ".toList =
        .ok (.binary .plus (.number (Float.ofBits 0x40C81C8000000000))
          (.number (Float.ofBits 0x401A000000000000))) := by
      decide +kernel
    rw [hsame, hread]
    rfl
  · have hsame := (@Expr.ofText_respaced { decimal := .comma, group := some .space }
      "1\u00a02,3,4".toList "1 2,3,4".toList (by decide) fun _ => by decide).right
    have hrefused : Expr.ofText { decimal := .comma, group := some .space } "1 2,3,4".toList =
        .error (.malformedLiteral "1 2,3,4".toList .repeatedDecimal) := by
      decide +kernel
    rw [hsame, hrefused]
    rfl

end RegionalCalculator
