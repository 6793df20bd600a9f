import RegionalCalculator.Token.Scan

/-!
# Steps of the scanner

At each place the scanner skips a blank, takes a literal or takes a single
character. One equation for each of these steps says what it does to the text, and
later proofs about scanning use these equations instead of the definitions. A
literal at the front of a text is given here as its characters and what follows
them, without the proof that something was consumed.
-/

namespace RegionalCalculator

/-!
# Characters
-/

theorem Token.isBlank_of_ofChar? {c : Char} {token : Token} (h : Token.ofChar? c = some token) :
    Text.isBlank c = false := by
  have hchars : Token.chars.any Text.isBlank = false := rfl
  rw [Bool.eq_false_iff]
  exact List.any_eq_false.mp hchars c (Token.mem_chars_of_ofChar? h)

theorem Token.ofChar?_of_isBlank {c : Char} (h : Text.isBlank c = true) : ofChar? c = none := by
  rw [Option.eq_none_iff_forall_ne_some]
  intro token htoken
  rw [isBlank_of_ofChar? htoken] at h
  cases h

theorem Operator.token_ofChar?_symbol (op : Operator) :
    Token.ofChar? op.symbol = some (.operator op) := by
  cases op <;> rfl

namespace NumberFormat

theorem belongs_of_ofChar? (f : NumberFormat) {c : Char} {token : Token}
    (h : Token.ofChar? c = some token) : f.belongs c = false := by
  have hmem : c ∈ Token.chars := Token.mem_chars_of_ofChar? h
  have hdigits : Token.chars.any Char.isDigit = false := rfl
  have hdecimal : f.isDecimal c = false :=
    isDecimal_eq_false rfl rfl f (List.contains_iff_mem.mpr hmem)
  have hmarks : Token.chars.any GroupMark.chars.contains = false := rfl
  have hgroup : ¬ f.isGroup c = true := by
    intro hc
    rcases isGroup_eq_true_iff.mp hc with ⟨mark, _, hcovers⟩
    apply List.any_eq_false.mp hmarks c hmem
    exact List.contains_iff_mem.mpr (GroupMark.mem_chars_of_covers hcovers)
  unfold belongs
  rw [hdecimal, Bool.or_false, Bool.or_eq_false_iff, Bool.eq_false_iff, Bool.eq_false_iff]
  exact ⟨List.any_eq_false.mp hdigits c hmem, hgroup⟩

theorem ofChar?_of_belongs {f : NumberFormat} {c : Char} (h : f.belongs c = true) :
    Token.ofChar? c = none := by
  rw [Option.eq_none_iff_forall_ne_some]
  intro token htoken
  rw [f.belongs_of_ofChar? htoken] at h
  cases h

theorem isGroup_of_ofChar? (f : NumberFormat) {c : Char} {token : Token}
    (h : Token.ofChar? c = some token) : f.isGroup c = false := by
  rw [Bool.eq_false_iff]
  intro hgroup
  rw [ofChar?_of_belongs (belongs_of_isGroup hgroup)] at h
  cases h

end NumberFormat

namespace Scan

/-!
# Runs of a number
-/

theorem spanRun_cons {f : NumberFormat} {c : Char} {rest : List Char}
    (h : extendsNumber f c rest = true) :
    spanRun f (c :: rest) = (c :: (spanRun f rest).1, (spanRun f rest).2) := by
  rw [spanRun, if_pos h]

theorem spanRun_stop {f : NumberFormat} {c : Char} {rest : List Char}
    (h : extendsNumber f c rest = false) : spanRun f (c :: rest) = ([], c :: rest) := by
  rw [spanRun, h]
  rfl

theorem spanRun_cons_of_isDigit (f : NumberFormat) {c : Char} (rest : List Char)
    (h : c.isDigit = true) :
    spanRun f (c :: rest) = (c :: (spanRun f rest).1, (spanRun f rest).2) :=
  spanRun_cons (by simp [extendsNumber, h])

theorem spanRun_cons_of_isDecimal {f : NumberFormat} {c : Char} (rest : List Char)
    (h : f.isDecimal c = true) :
    spanRun f (c :: rest) = (c :: (spanRun f rest).1, (spanRun f rest).2) :=
  spanRun_cons (by simp [extendsNumber, h])

theorem spanRun_cons_of_isGroup {f : NumberFormat} {c : Char} {rest : List Char}
    (h : f.isGroup c = true) (hrest : startsWithDigit rest = true) :
    spanRun f (c :: rest) = (c :: (spanRun f rest).1, (spanRun f rest).2) :=
  spanRun_cons (by simp [extendsNumber, h, hrest])

theorem spanRun_append_of_isDigit (f : NumberFormat) {digits : List Char} (rest : List Char)
    (h : forall c, c ∈ digits -> c.isDigit = true) :
    spanRun f (digits ++ rest) = (digits ++ (spanRun f rest).1, (spanRun f rest).2) := by
  induction digits with
  | nil => rfl
  | cons digit digits ih =>
      rw [List.forall_mem_cons] at h
      rw [List.cons_append, spanRun_cons_of_isDigit f _ h.left, ih h.right]
      rfl

theorem spanRun_of_belongs_eq_false {f : NumberFormat} {c : Char} (rest : List Char)
    (h : f.belongs c = false) : spanRun f (c :: rest) = ([], c :: rest) := by
  apply spanRun_stop
  unfold NumberFormat.belongs at h
  unfold extendsNumber
  rcases Bool.or_eq_false_iff.mp h with ⟨hplain, hgroup⟩
  rw [hplain, hgroup]
  rfl

theorem spanRun_blank (f : NumberFormat) {c : Char} {rest : List Char}
    (h : Text.isBlank c = true) (hrest : startsWithDigit rest = false) :
    spanRun f (c :: rest) = ([], c :: rest) := by
  apply spanRun_stop
  unfold extendsNumber
  rw [Text.isDigit_of_isBlank h, f.isDecimal_of_isBlank h, hrest, Bool.and_false]
  rfl

theorem startsNumber_of_belongs_eq_false {f : NumberFormat} {c : Char} (rest : List Char)
    (h : f.belongs c = false) : startsNumber f (c :: rest) = false := by
  unfold NumberFormat.belongs at h
  rcases Bool.or_eq_false_iff.mp h with ⟨hplain, _⟩
  rcases Bool.or_eq_false_iff.mp hplain with ⟨hdigit, hdecimal⟩
  rw [startsNumber, hdigit, hdecimal]
  rfl

theorem startsNumber_blank (f : NumberFormat) {c : Char} (rest : List Char)
    (h : Text.isBlank c = true) : startsNumber f (c :: rest) = false := by
  rw [startsNumber, Text.isDigit_of_isBlank h, f.isDecimal_of_isBlank h]
  rfl

theorem ofChar?_of_startsNumber {f : NumberFormat} {c : Char} {rest : List Char}
    (h : startsNumber f (c :: rest) = true) : Token.ofChar? c = none := by
  rw [Option.eq_none_iff_forall_ne_some]
  intro token htoken
  rw [startsNumber_of_belongs_eq_false rest (f.belongs_of_ofChar? htoken)] at h
  cases h

/-!
# Literals at the front
-/

def splitLiteral? (f : NumberFormat) (awaitsOperand : Bool) (text : List Char) :
    Option (List Char × List Char) :=
  (literal? f awaitsOperand text).map fun found => (found.literal, found.rest)

theorem splitLiteral?_of_literal? {f : NumberFormat} {awaitsOperand : Bool} {text : List Char}
    {found : Literal text} (h : literal? f awaitsOperand text = some found) :
    splitLiteral? f awaitsOperand text = some (found.literal, found.rest) := by
  rw [splitLiteral?, h]
  rfl

theorem exists_literal_of_splitLiteral? {f : NumberFormat} {awaitsOperand : Bool}
    {text literal rest : List Char}
    (h : splitLiteral? f awaitsOperand text = some (literal, rest)) :
    exists found, literal? f awaitsOperand text = some found ∧
      found.literal = literal ∧ found.rest = rest := by
  rcases Option.map_eq_some_iff.mp h with ⟨found, hfound, hparts⟩
  cases hparts
  exact ⟨found, hfound, rfl, rfl⟩

theorem splitLiteral?_eq_none_iff {f : NumberFormat} {awaitsOperand : Bool} {text : List Char} :
    splitLiteral? f awaitsOperand text = none <-> literal? f awaitsOperand text = none :=
  Option.map_eq_none_iff

theorem splitLiteral?_minus (f : NumberFormat) (awaitsOperand : Bool) (rest : List Char) :
    splitLiteral? f awaitsOperand ('-' :: rest) =
      if awaitsOperand = true ∧ startsNumber f rest = true then
        some ('-' :: (spanRun f rest).1, (spanRun f rest).2)
      else
        none := by
  rw [splitLiteral?, literal?]
  split
  · rfl
  · rfl

theorem splitLiteral?_of_ne_minus (f : NumberFormat) (awaitsOperand : Bool) {text : List Char}
    (h : text.head? ≠ some '-') :
    splitLiteral? f awaitsOperand text =
      if startsNumber f text = true then some (spanRun f text) else none := by
  rw [splitLiteral?, literal?]
  · split
    · rfl
    · rfl
  · intro rest heq
    rw [heq] at h
    exact h rfl

theorem splitLiteral?_cases {f : NumberFormat} {awaitsOperand : Bool} {c : Char}
    {rest literal after : List Char}
    (h : splitLiteral? f awaitsOperand (c :: rest) = some (literal, after)) :
    (c = '-' ∧ awaitsOperand = true ∧ startsNumber f rest = true ∧
        literal = '-' :: (spanRun f rest).1 ∧ after = (spanRun f rest).2) ∨
      (c ≠ '-' ∧ startsNumber f (c :: rest) = true ∧ literal = (spanRun f (c :: rest)).1 ∧
        after = (spanRun f (c :: rest)).2) := by
  by_cases hminus : c = '-'
  · rw [hminus, splitLiteral?_minus] at h
    split at h
    · rename_i hsigned
      cases h
      exact Or.inl ⟨hminus, hsigned.left, hsigned.right, rfl, rfl⟩
    · cases h
  · have hhead : (c :: rest).head? ≠ some '-' := fun heq => hminus (Option.some.inj heq)
    rw [splitLiteral?_of_ne_minus f awaitsOperand hhead] at h
    split at h
    · rename_i hstarts
      have hparts : spanRun f (c :: rest) = (literal, after) := Option.some.inj h
      rw [hparts]
      exact Or.inr ⟨hminus, hstarts, rfl, rfl⟩
    · cases h

theorem exists_cons_of_startsNumber {f : NumberFormat} {text : List Char}
    (h : startsNumber f text = true) :
    exists c rest, text = c :: rest ∧ Text.isBlank c = false := by
  cases text with
  | nil => cases h
  | cons c rest =>
      refine ⟨c, rest, rfl, ?_⟩
      rw [Bool.eq_false_iff]
      intro hblank
      rw [startsNumber_blank f rest hblank] at h
      cases h

theorem exists_cons_of_splitLiteral? {f : NumberFormat} {awaitsOperand : Bool} {text : List Char}
    {parts : List Char × List Char} (h : splitLiteral? f awaitsOperand text = some parts) :
    exists c rest, text = c :: rest ∧ Text.isBlank c = false := by
  by_cases hminus : text.head? = some '-'
  · rcases List.head?_eq_some_iff.mp hminus with ⟨rest, htext⟩
    exact ⟨'-', rest, htext, rfl⟩
  · rw [splitLiteral?_of_ne_minus f awaitsOperand hminus] at h
    split at h
    · rename_i hstarts
      exact exists_cons_of_startsNumber hstarts
    · cases h

/-!
# Signs
-/

def withSign (negative : Bool) (run : List Char) : List Char :=
  (if negative then ['-'] else []) ++ run

theorem head?_ne_minus {f : NumberFormat} {text : List Char} (h : startsNumber f text = true) :
    text.head? ≠ some '-' := by
  intro hminus
  rcases List.head?_eq_some_iff.mp hminus with ⟨rest, htext⟩
  have hnone : startsNumber f ('-' :: rest) = false :=
    startsNumber_of_belongs_eq_false rest (f.belongs_of_ofChar? rfl)
  rw [htext, hnone] at h
  cases h

theorem splitLiteral?_of_startsNumber {f : NumberFormat} {text : List Char}
    (awaitsOperand : Bool) (h : startsNumber f text = true) :
    splitLiteral? f awaitsOperand text = some (spanRun f text) := by
  rw [splitLiteral?_of_ne_minus f awaitsOperand (head?_ne_minus h), if_pos h]

theorem head?_spanRun_ne_minus {f : NumberFormat} {text : List Char}
    (h : startsNumber f text = true) : (spanRun f text).1.head? ≠ some '-' := by
  intro hminus
  rcases List.head?_eq_some_iff.mp hminus with ⟨run, hrun⟩
  have happend := spanRun_append f text
  rw [hrun] at happend
  apply head?_ne_minus h
  rw [← happend]
  rfl

section

variable {run : List Char}

theorem body_withSign (negative : Bool) (h : run.head? ≠ some '-') :
    Numeral.body (withSign negative run) = run := by
  cases negative with
  | true => rfl
  | false =>
      rw [withSign, if_neg Bool.false_ne_true, List.nil_append]
      exact Numeral.body_of_head?_ne_minus h

theorem head?_withSign (negative : Bool) (h : run.head? ≠ some '-') :
    ((withSign negative run).head? == some '-') = negative := by
  cases negative with
  | true => rfl
  | false => exact beq_eq_false_iff_ne.mpr h

theorem splitLiteral?_withSign {f : NumberFormat} (negative : Bool) {awaitsOperand : Bool}
    {rest : List Char} (hstarts : startsNumber f (run ++ rest) = true)
    (hspan : spanRun f (run ++ rest) = (run, rest))
    (hsign : negative = true -> awaitsOperand = true) :
    splitLiteral? f awaitsOperand (withSign negative run ++ rest) =
      some (withSign negative run, rest) := by
  cases negative with
  | true =>
      rw [withSign, if_pos rfl, List.append_assoc, List.singleton_append, splitLiteral?_minus,
        if_pos ⟨hsign rfl, hstarts⟩, hspan]
      rfl
  | false =>
      rw [withSign, if_neg Bool.false_ne_true, List.nil_append,
        splitLiteral?_of_startsNumber awaitsOperand hstarts, hspan]

end

/-!
# Steps
-/

theorem tokensFrom_blank (f : NumberFormat) (awaitsOperand : Bool) (position : Nat) {c : Char}
    (rest : List Char) (h : Text.isBlank c = true) :
    tokensFrom f awaitsOperand position (c :: rest) =
      tokensFrom f awaitsOperand (position + c.utf8Size) rest := by
  rw [tokensFrom, if_pos h]

theorem tokensFrom_blanks (f : NumberFormat) (awaitsOperand : Bool) (position : Nat)
    {blanks : List Char} (rest : List Char) (h : forall c, c ∈ blanks -> Text.isBlank c = true) :
    tokensFrom f awaitsOperand position (blanks ++ rest) =
      tokensFrom f awaitsOperand (position + byteLength blanks) rest := by
  induction blanks generalizing position with
  | nil => rfl
  | cons c blanks ih =>
      rw [List.forall_mem_cons] at h
      rw [List.cons_append, tokensFrom_blank f awaitsOperand position _ h.left, ih _ h.right,
        byteLength, Nat.add_assoc]

section

variable {f : NumberFormat} {awaitsOperand : Bool} {c : Char} {rest : List Char}

theorem tokensFrom_number {literal after : List Char} {value : Float} (position : Nat)
    (hblank : Text.isBlank c = false)
    (hsplit : splitLiteral? f awaitsOperand (c :: rest) = some (literal, after))
    (hread : readLiteral f literal = .ok value) :
    tokensFrom f awaitsOperand position (c :: rest) =
      .next position (.number value)
        (tokensFrom f false (position + byteLength literal) after) := by
  rcases exists_literal_of_splitLiteral? hsplit with ⟨found, hfound, rfl, rfl⟩
  rw [tokensFrom, if_neg (Bool.eq_false_iff.mp hblank), hfound]
  simp only [hread]

theorem tokensFrom_literal {text literal after : List Char} {value : Float} (position : Nat)
    (hsplit : splitLiteral? f awaitsOperand text = some (literal, after))
    (hread : readLiteral f literal = .ok value) :
    tokensFrom f awaitsOperand position text =
      .next position (.number value)
        (tokensFrom f false (position + byteLength literal) after) := by
  rcases exists_cons_of_splitLiteral? hsplit with ⟨c, rest, htext, hblank⟩
  rw [htext] at hsplit ⊢
  exact tokensFrom_number position hblank hsplit hread

theorem tokensFrom_malformed {literal after : List Char} {error : EntryError} (position : Nat)
    (hblank : Text.isBlank c = false)
    (hsplit : splitLiteral? f awaitsOperand (c :: rest) = some (literal, after))
    (hread : readLiteral f literal = .error error) :
    tokensFrom f awaitsOperand position (c :: rest) = .fault error := by
  rcases exists_literal_of_splitLiteral? hsplit with ⟨found, hfound, rfl, rfl⟩
  rw [tokensFrom, if_neg (Bool.eq_false_iff.mp hblank), hfound]
  simp only [hread]

theorem tokensFrom_single {token : Token} (position : Nat) (hblank : Text.isBlank c = false)
    (hsplit : splitLiteral? f awaitsOperand (c :: rest) = none)
    (htoken : Token.ofChar? c = some token) :
    tokensFrom f awaitsOperand position (c :: rest) =
      .next position token
        (tokensFrom f token.awaitsOperand (position + c.utf8Size) rest) := by
  rw [tokensFrom, if_neg (Bool.eq_false_iff.mp hblank), splitLiteral?_eq_none_iff.mp hsplit]
  simp only [htoken]

theorem tokensFrom_foreign (position : Nat) (hblank : Text.isBlank c = false)
    (hsplit : splitLiteral? f awaitsOperand (c :: rest) = none)
    (htoken : Token.ofChar? c = none) :
    tokensFrom f awaitsOperand position (c :: rest) =
      .fault (.unexpectedCharacter c position) := by
  rw [tokensFrom, if_neg (Bool.eq_false_iff.mp hblank), splitLiteral?_eq_none_iff.mp hsplit]
  simp only [htoken]

theorem tokensFrom_stray (position : Nat) (hblank : Text.isBlank c = false)
    (hstarts : startsNumber f (c :: rest) = false) (htoken : Token.ofChar? c = none) :
    tokensFrom f awaitsOperand position (c :: rest) =
      .fault (.unexpectedCharacter c position) := by
  have hminus : (c :: rest).head? ≠ some '-' := by
    intro heq
    rw [Option.some.inj heq] at htoken
    cases htoken
  have hsplit : splitLiteral? f awaitsOperand (c :: rest) = none := by
    rw [splitLiteral?_of_ne_minus f awaitsOperand hminus, hstarts]
    rfl
  exact tokensFrom_foreign position hblank hsplit htoken

theorem tokensFrom_unsigned {token : Token} (position : Nat) (h : Token.ofChar? c = some token)
    (hsign : c = '-' -> ¬ (awaitsOperand = true ∧ startsNumber f rest = true)) :
    tokensFrom f awaitsOperand position (c :: rest) =
      .next position token
        (tokensFrom f token.awaitsOperand (position + c.utf8Size) rest) := by
  have hblank : Text.isBlank c = false := Token.isBlank_of_ofChar? h
  have hsplit : splitLiteral? f awaitsOperand (c :: rest) = none := by
    by_cases hminus : c = '-'
    · rw [hminus, splitLiteral?_minus, if_neg (hsign hminus)]
    · rw [splitLiteral?_of_ne_minus,
        startsNumber_of_belongs_eq_false rest (f.belongs_of_ofChar? h)]
      · rfl
      · intro heq
        exact hminus (Option.some.inj heq)
  exact tokensFrom_single position hblank hsplit h

theorem tokensFrom_token {token : Token} (position : Nat) (h : Token.ofChar? c = some token)
    (hsign : c = '-' -> startsNumber f rest = false) :
    tokensFrom f awaitsOperand position (c :: rest) =
      .next position token
        (tokensFrom f token.awaitsOperand (position + c.utf8Size) rest) := by
  apply tokensFrom_unsigned position h
  intro hminus hsigned
  rw [hsign hminus] at hsigned
  exact Bool.false_ne_true hsigned.right

theorem tokensFrom_operator (op : Operator) (position : Nat) :
    tokensFrom f false position (op.symbol :: rest) =
      .next position (.operator op)
        (tokensFrom f true (position + op.symbol.utf8Size) rest) :=
  tokensFrom_unsigned position op.token_ofChar?_symbol fun _ hsigned =>
    Bool.false_ne_true hsigned.left

end

end Scan
end RegionalCalculator
