import RegionalCalculator.Text.Blank

/-!
# Words and gaps

A text is made of words, with gaps of blanks between them and maybe more blanks at its two
ends. Words and gaps are the longest runs of characters that are no blanks, or that are
blanks, and every text consists of its words and gaps in turn.
-/

namespace RegionalCalculator
namespace Text

/-!
# Runs
-/

def runs (p : Char -> Bool) (text : List Char) : List (List Char) :=
  (text.splitOnP fun c => !p c).filter fun run => !run.isEmpty

def words (text : List Char) : List (List Char) :=
  runs (fun c => !isBlank c) text

/-- The blanks between two words, in one piece. Those at the ends of the text are no gaps. -/
def gaps (text : List Char) : List (List Char) :=
  runs isBlank (trim text)

example : words " 1 + 23".toList = [['1'], ['+'], ['2', '3']] := by decide

example : gaps " 1  + 23".toList = [[' ', ' '], [' ']] := by decide

structure IsRun (p : Char -> Bool) (run : List Char) : Prop where
  ne_nil : run ≠ []
  all : forall c, c ∈ run -> p c = true

section

variable {p : Char -> Bool} {front run rest : List Char} {c : Char}

theorem runs_append_cons (hc : p c = false) (front rest : List Char) :
    runs p (front ++ c :: rest) = runs p front ++ runs p rest := by
  have hbreak : (fun c => !p c) c = true := by
    dsimp only
    rw [hc]
    rfl
  rw [runs, List.splitOnP_append_cons front rest hbreak, List.filter_append]
  rfl

theorem runs_append_of_not (h : forall c, c ∈ front -> p c = false) (rest : List Char) :
    runs p (front ++ rest) = runs p rest := by
  induction front with
  | nil => rfl
  | cons c front ih =>
      rw [List.forall_mem_cons] at h
      have hcons := runs_append_cons h.left [] (front ++ rest)
      rw [List.nil_append] at hcons
      rw [List.cons_append, hcons, ih h.right]
      rfl

theorem IsRun.runs_eq (h : IsRun p run) : runs p run = [run] := by
  have hnobreak : forall c, c ∈ run -> (fun c => !p c) c = false := by
    intro c hc
    dsimp only
    rw [h.all c hc]
    rfl
  rw [runs, List.splitOnP_eq_singleton hnobreak]
  apply List.filter_cons_of_pos
  rw [List.isEmpty_eq_false_iff.mpr h.ne_nil]
  rfl

theorem IsRun.runs_append_cons (h : IsRun p run) (hc : p c = false) (rest : List Char) :
    runs p (run ++ c :: rest) = run :: runs p (c :: rest) := by
  have hsingle : forall d, d ∈ [c] -> p d = false := by
    intro d hd
    rw [List.mem_singleton.mp hd, hc]
  rw [Text.runs_append_cons hc, h.runs_eq, ← runs_append_of_not hsingle rest]
  rfl

end

/-!
# Texts as words and gaps
-/

abbrev IsWord (word : List Char) : Prop :=
  IsRun (fun c => !isBlank c) word

abbrev IsGap (gap : List Char) : Prop :=
  IsRun isBlank gap

/-- The text consists of these words with these gaps between them, and maybe of blanks at its
end. -/
inductive Spaced : List (List Char) -> List (List Char) -> List Char -> Prop where
  | blank {blanks : List Char} :
      (forall c, c ∈ blanks -> isBlank c = true) ->
      Spaced [] [] blanks
  | last {word blanks : List Char} :
      IsWord word ->
      (forall c, c ∈ blanks -> isBlank c = true) ->
      Spaced [word] [] (word ++ blanks)
  | next {word gap text : List Char} {following : List Char}
      {words gaps : List (List Char)} :
      IsWord word ->
      IsGap gap ->
      Spaced (following :: words) gaps text ->
      Spaced (word :: following :: words) (gap :: gaps) (word ++ (gap ++ text))

section

variable {word text : List Char} {spelled between : List (List Char)}

theorem IsWord.not_isBlank (h : IsWord word) : forall c, c ∈ word -> isBlank c = false := by
  intro c hc
  have hnot : (!isBlank c) = true := h.all c hc
  rw [Bool.not_eq_true'] at hnot
  exact hnot

theorem IsWord.exists_cons (h : IsWord word) :
    exists c rest, word = c :: rest ∧ isBlank c = false := by
  rcases List.exists_cons_of_ne_nil h.ne_nil with ⟨c, rest, hword⟩
  refine ⟨c, rest, hword, h.not_isBlank c ?_⟩
  rw [hword]
  exact List.mem_cons_self

theorem Spaced.exists_cons (h : Spaced (word :: spelled) between text) :
    exists c rest, text = c :: rest ∧ isBlank c = false := by
  cases h with
  | last hword _ =>
      rcases hword.exists_cons with ⟨c, rest, hcons, hc⟩
      exact ⟨c, _, by rw [hcons]; rfl, hc⟩
  | next hword _ _ =>
      rcases hword.exists_cons with ⟨c, rest, hcons, hc⟩
      exact ⟨c, _, by rw [hcons]; rfl, hc⟩

theorem exists_run_append (p : Char -> Bool) (text : List Char) :
    exists run rest, text = run ++ rest ∧ (forall c, c ∈ run -> p c = true) ∧
      forall c more, rest = c :: more -> p c = false := by
  refine ⟨text.takeWhile p, text.dropWhile p, List.takeWhile_append_dropWhile.symm,
    List.all_eq_true.mp List.all_takeWhile, ?_⟩
  intro c more hrest
  have hhead := List.head?_dropWhile_not p text
  rw [hrest] at hhead
  exact hhead

theorem exists_isRun_append {p : Char -> Bool} {c : Char} (h : p c = true) (text : List Char) :
    exists run rest, c :: text = run ++ rest ∧ IsRun p run ∧
      forall d more, rest = d :: more -> p d = false := by
  rcases exists_run_append p (c :: text) with ⟨run, rest, htext, hrun, hrest⟩
  refine ⟨run, rest, htext, ⟨?_, hrun⟩, hrest⟩
  intro hempty
  rw [hempty, List.nil_append] at htext
  rw [hrest c text htext.symm] at h
  cases h

theorem exists_spaced {c : Char} (h : isBlank c = false) (text : List Char) :
    exists word spelled between, Spaced (word :: spelled) between (c :: text) := by
  induction hlength : text.length using Nat.strongRecOn generalizing c text with
  | ind length ih =>
      have hnot : (!isBlank c) = true := by
        rw [h]
        rfl
      rcases exists_isRun_append (p := fun c => !isBlank c) hnot text with
        ⟨word, after, htext, hword, hafter⟩
      rw [htext]
      cases after with
      | nil => exact ⟨word, [], [], Spaced.last hword fun _ hc => absurd hc List.not_mem_nil⟩
      | cons d more =>
          have hblank : (!isBlank d) = false := hafter d more rfl
          rw [Bool.not_eq_false'] at hblank
          rcases exists_isRun_append hblank more with ⟨gap, rest, hmore, hgap, hrest⟩
          rw [hmore]
          cases rest with
          | nil =>
              rw [List.append_nil]
              exact ⟨word, [], [], Spaced.last hword hgap.all⟩
          | cons e others =>
              have hshorter : others.length < length := by
                have hword' := List.length_pos_iff.mpr hword.ne_nil
                have hbytes := congrArg List.length htext
                rw [hmore, List.length_append, List.length_append, List.length_cons,
                  List.length_cons] at hbytes
                omega
              rcases ih others.length hshorter (hrest e others rfl) others rfl with
                ⟨following, spelled, between, hspaced⟩
              exact ⟨word, _, _, Spaced.next hword hgap hspaced⟩

/-!
# The words and the gaps of a text
-/

theorem words_append_of_blank {blanks : List Char} (h : forall c, c ∈ blanks -> isBlank c = true)
    (rest : List Char) : words (blanks ++ rest) = words rest := by
  apply runs_append_of_not
  intro c hc
  rw [h c hc]
  rfl

theorem words_of_blank {blanks : List Char} (h : forall c, c ∈ blanks -> isBlank c = true) :
    words blanks = [] := by
  rw [← List.append_nil blanks, words_append_of_blank h]
  rfl

theorem IsWord.words_append_cons (h : IsWord word) {c : Char} (hc : isBlank c = true)
    (rest : List Char) : words (word ++ c :: rest) = word :: words (c :: rest) := by
  apply h.runs_append_cons
  rw [hc]
  rfl

theorem Spaced.words_eq (h : Spaced spelled between text) : words text = spelled := by
  induction h with
  | blank hblanks => exact words_of_blank hblanks
  | @last word blanks hword hblanks =>
      cases blanks with
      | nil =>
          rw [List.append_nil]
          exact hword.runs_eq
      | cons c blanks =>
          rw [hword.words_append_cons (hblanks c List.mem_cons_self), words_of_blank hblanks]
  | @next word gap text _ _ _ hword hgap _ ih =>
      rcases List.exists_cons_of_ne_nil hgap.ne_nil with ⟨c, more, hcons⟩
      have hskip := words_append_of_blank hgap.all text
      rw [hcons] at hgap hskip ⊢
      rw [List.cons_append, hword.words_append_cons (hgap.all c List.mem_cons_self),
        ← List.cons_append, hskip, ih]

def trimEnd (text : List Char) : List Char :=
  (text.reverse.dropWhile isBlank).reverse

theorem trimEnd_append_cons (front rest : List Char) {c : Char} (h : isBlank c = false) :
    trimEnd (front ++ c :: rest) = front ++ c :: trimEnd rest := by
  have hc : ¬ isBlank c = true := Bool.eq_false_iff.mp h
  rw [trimEnd, trimEnd, List.reverse_append, List.reverse_cons, List.append_assoc,
    List.singleton_append, List.dropWhile_append]
  split
  · rename_i hempty
    rw [List.isEmpty_iff.mp hempty, List.dropWhile_cons_of_neg hc]
    simp
  · simp

theorem trimEnd_of_blank {blanks : List Char} (h : forall c, c ∈ blanks -> isBlank c = true) :
    trimEnd blanks = [] := by
  have hdrop : (blanks.reverse ++ []).dropWhile isBlank = [] :=
    List.dropWhile_append_of_pos fun c hc => h c (List.mem_reverse.mp hc)
  rw [List.append_nil] at hdrop
  rw [trimEnd, hdrop]
  rfl

theorem Spaced.gaps_eq (h : Spaced spelled between text) :
    runs isBlank (trimEnd text) = between := by
  induction h with
  | blank hblanks =>
      rw [trimEnd_of_blank hblanks]
      rfl
  | @last word blanks hword hblanks =>
      rcases List.eq_nil_or_concat word with hnil | ⟨front, c, hconcat⟩
      · exact absurd hnil hword.ne_nil
      · -- The last character of the word keeps the blanks behind it apart.
        rw [List.concat_eq_append] at hconcat
        have hc : isBlank c = false := by
          apply hword.not_isBlank c
          rw [hconcat]
          exact List.mem_append_right _ List.mem_cons_self
        have htrim : trimEnd (word ++ blanks) = word := by
          rw [hconcat, List.append_assoc, List.singleton_append, trimEnd_append_cons _ _ hc,
            trimEnd_of_blank hblanks]
        have hskip := runs_append_of_not hword.not_isBlank []
        rw [List.append_nil] at hskip
        rw [htrim, hskip]
        rfl
  | @next word gap text _ _ _ hword hgap hrest ih =>
      rcases hrest.exists_cons with ⟨c, others, hcons, hc⟩
      have hend := trimEnd_append_cons [] others hc
      rw [List.nil_append, List.nil_append] at hend
      rw [hcons, hend] at ih
      rw [hcons, ← List.append_assoc, trimEnd_append_cons _ _ hc, List.append_assoc,
        runs_append_of_not hword.not_isBlank, hgap.runs_append_cons hc, ih]

theorem spaced_words_gaps (text : List Char) :
    exists blanks rest, text = blanks ++ rest ∧ (forall c, c ∈ blanks -> isBlank c = true) ∧
      Spaced (words text) (gaps text) rest := by
  rcases exists_run_append isBlank text with ⟨blanks, rest, htext, hblanks, hrest⟩
  refine ⟨blanks, rest, htext, hblanks, ?_⟩
  have hwords : words text = words rest := by
    rw [htext, words_append_of_blank hblanks]
  have hgaps : gaps text = runs isBlank (trimEnd rest) := by
    have hdrop : (blanks ++ rest).dropWhile isBlank = rest.dropWhile isBlank :=
      List.dropWhile_append_of_pos hblanks
    have hhead : rest.dropWhile isBlank = rest := by
      cases rest with
      | nil => rfl
      | cons c others => exact List.dropWhile_cons_of_neg (Bool.eq_false_iff.mp (hrest c others rfl))
    rw [gaps, htext, trim, hdrop, hhead]
    rfl
  rw [hwords, hgaps]
  have hspaced : exists spelled between, Spaced spelled between rest := by
    cases rest with
    | nil => exact ⟨[], [], Spaced.blank fun _ hc => absurd hc List.not_mem_nil⟩
    | cons c others =>
        rcases exists_spaced (hrest c others rfl) others with ⟨word, spelled, between, hspaced⟩
        exact ⟨_, _, hspaced⟩
  rcases hspaced with ⟨spelled, between, hspaced⟩
  rw [hspaced.words_eq, hspaced.gaps_eq]
  exact hspaced

end

end Text
end RegionalCalculator
