import RegionalCalculator.Proofs.Scanning.Pulling

/-!
# The tiling of an entry

What scanning yields tiles the entry: every item accounts for the characters of its
token, blanks fill the gaps, and the last item accounts for the end of the entry or for
the fault. Behind it the scanner hands out nothing, however often it is asked. The rules
of the tiling look at the characters of the entry only, and at no state of the scanner.
That numbers are as long as they can be is a condition on the character behind them.
-/

namespace RegionalCalculator
namespace Scan

/-!
# Runs
-/

def DigitNext (rest : List Char) : Prop :=
  exists digit tail, rest = digit :: tail ∧ digit.isDigit = true

def InNumber (f : NumberFormat) (c : Char) (rest : List Char) : Prop :=
  c.isDigit = true ∨ c = f.decimal.toChar ∨ f.isGroup c = true ∧ DigitNext rest

/-- `run` is the text of a number without its sign, and it is as long as it can be where
`rest` follows it. -/
structure Run (f : NumberFormat) (run rest : List Char) : Prop where
  starts : exists c tail,
    run = c :: tail ∧ (c.isDigit = true ∨ c = f.decimal.toChar ∧ DigitNext tail)
  inside : forall front c back, run = front ++ c :: back -> InNumber f c back
  stops : forall c back, rest = c :: back -> ¬ InNumber f c back

def AtNumber (f : NumberFormat) (text : List Char) : Prop :=
  exists run rest, text = run ++ rest ∧ Run f run rest

theorem startsWithDigit_iff {text : List Char} :
    startsWithDigit text = true <-> DigitNext text := by
  unfold DigitNext
  cases text with
  | nil => simp [startsWithDigit]
  | cons c rest => simp [startsWithDigit]

theorem extendsNumber_iff {f : NumberFormat} {c : Char} {rest : List Char} :
    extendsNumber f c rest = true <-> InNumber f c rest := by
  rw [extendsNumber, InNumber, Bool.or_eq_true, Bool.or_eq_true, Bool.and_eq_true,
    NumberFormat.isDecimal_eq_true_iff, startsWithDigit_iff, or_assoc]

theorem startsNumber_cons_iff {f : NumberFormat} {c : Char} {rest : List Char} :
    startsNumber f (c :: rest) = true <->
      c.isDigit = true ∨ c = f.decimal.toChar ∧ DigitNext rest := by
  rw [startsNumber, Bool.or_eq_true, Bool.and_eq_true, NumberFormat.isDecimal_eq_true_iff,
    startsWithDigit_iff]

theorem startsWithDigit_spanRun (f : NumberFormat) (text : List Char) :
    startsWithDigit (spanRun f text).1 = startsWithDigit text := by
  cases text with
  | nil => rfl
  | cons c rest =>
      cases hextends : extendsNumber f c rest with
      | true =>
          rw [spanRun_cons hextends]
          rfl
      | false =>
          have hdigit : c.isDigit = false := by
            rw [Bool.eq_false_iff]
            intro hc
            rw [extendsNumber, hc] at hextends
            cases hextends
          rw [spanRun_stop hextends]
          exact hdigit.symm

theorem digitNext_spanRun {f : NumberFormat} {text : List Char} :
    DigitNext (spanRun f text).1 <-> DigitNext text := by
  rw [← startsWithDigit_iff, startsWithDigit_spanRun, startsWithDigit_iff]

theorem inNumber_spanRun {f : NumberFormat} {c : Char} {text : List Char} :
    InNumber f c (spanRun f text).1 <-> InNumber f c text := by
  rw [InNumber, InNumber, digitNext_spanRun]

theorem spanRun_inside {f : NumberFormat} {text front back : List Char} {c : Char}
    (h : (spanRun f text).1 = front ++ c :: back) : InNumber f c back := by
  induction text generalizing front with
  | nil => simp [spanRun] at h
  | cons d rest ih =>
      cases hextends : extendsNumber f d rest with
      | true =>
          rw [spanRun_cons hextends] at h
          cases front with
          | nil =>
              rw [List.nil_append, List.cons.injEq] at h
              rw [← h.left, ← h.right, inNumber_spanRun]
              exact extendsNumber_iff.mp hextends
          | cons e front => exact ih (List.cons.inj h).right
      | false =>
          rw [spanRun_stop hextends] at h
          simp at h

theorem spanRun_stops {f : NumberFormat} {text back : List Char} {c : Char}
    (h : (spanRun f text).2 = c :: back) : ¬ InNumber f c back := by
  induction text with
  | nil => cases h
  | cons d rest ih =>
      cases hextends : extendsNumber f d rest with
      | true =>
          rw [spanRun_cons hextends] at h
          exact ih h
      | false =>
          rw [spanRun_stop hextends] at h
          cases h
          rw [← extendsNumber_iff, hextends]
          exact Bool.false_ne_true

theorem run_spanRun {f : NumberFormat} {text : List Char} (h : startsNumber f text = true) :
    Run f (spanRun f text).1 (spanRun f text).2 := by
  refine ⟨?_, fun _ _ _ => spanRun_inside, fun _ _ => spanRun_stops⟩
  cases text with
  | nil => cases h
  | cons c rest =>
      have hstarts := startsNumber_cons_iff.mp h
      have hextends : extendsNumber f c rest = true := by
        rcases hstarts with hdigit | ⟨hdecimal, _⟩
        · exact extendsNumber_iff.mpr (Or.inl hdigit)
        · exact extendsNumber_iff.mpr (Or.inr (Or.inl hdecimal))
      refine ⟨c, (spanRun f rest).1, by rw [spanRun_cons hextends], ?_⟩
      rw [digitNext_spanRun]
      exact hstarts

theorem startsNumber_iff {f : NumberFormat} {text : List Char} :
    startsNumber f text = true <-> AtNumber f text := by
  constructor
  · intro h
    exact ⟨_, _, (spanRun_append f text).symm, run_spanRun h⟩
  · intro h
    rcases h with ⟨run, rest, htext, hrun⟩
    rcases hrun.starts with ⟨c, tail, hcons, hstarts⟩
    rw [htext, hcons, List.cons_append, startsNumber_cons_iff]
    rcases hstarts with hdigit | ⟨hdecimal, digit, others, htail, hdigit⟩
    · exact Or.inl hdigit
    · exact Or.inr ⟨hdecimal, digit, others ++ rest, by rw [htail]; rfl, hdigit⟩

theorem exists_run_of_splitLiteral? {f : NumberFormat} {awaitsOperand : Bool}
    {text literal rest : List Char}
    (h : splitLiteral? f awaitsOperand text = some (literal, rest)) :
    exists negative run, literal = withSign negative run ∧ text = literal ++ rest ∧
      Run f run rest ∧ (negative = true -> awaitsOperand = true) := by
  by_cases hminus : text.head? = some '-'
  · rcases List.head?_eq_some_iff.mp hminus with ⟨tail, htext⟩
    rw [htext, splitLiteral?_minus] at h
    split at h
    · rename_i hsigned
      cases h
      refine ⟨true, _, rfl, ?_, run_spanRun hsigned.right, fun _ => hsigned.left⟩
      rw [htext, List.cons_append, spanRun_append]
    · cases h
  · rw [splitLiteral?_of_ne_minus f awaitsOperand hminus] at h
    split at h
    · rename_i hstarts
      have hparts : spanRun f text = (literal, rest) := Option.some.inj h
      have hrun := run_spanRun hstarts
      have happend := spanRun_append f text
      rw [hparts] at hrun happend
      exact ⟨false, literal, rfl, happend.symm, hrun, fun hfalse => Bool.noConfusion hfalse⟩
    · cases h

theorem not_atNumber_of_splitLiteral? {f : NumberFormat} {awaitsOperand : Bool} {c : Char}
    {rest : List Char} (h : splitLiteral? f awaitsOperand (c :: rest) = none) :
    ¬ AtNumber f (c :: rest) ∧ (c = '-' -> awaitsOperand = true -> ¬ AtNumber f rest) := by
  rw [← startsNumber_iff, ← startsNumber_iff]
  by_cases hminus : c = '-'
  · rw [hminus, splitLiteral?_minus] at h
    constructor
    · rw [hminus, startsNumber_of_belongs_eq_false rest (f.belongs_of_ofChar? rfl)]
      exact Bool.false_ne_true
    · intro _ hawaits hstarts
      rw [if_pos ⟨hawaits, hstarts⟩] at h
      cases h
  · refine ⟨?_, fun hc => absurd hc hminus⟩
    intro hstarts
    have hhead : (c :: rest).head? ≠ some '-' := fun heq => hminus (Option.some.inj heq)
    rw [splitLiteral?_of_ne_minus f awaitsOperand hhead, if_pos hstarts] at h
    cases h

/-!
# Tiles
-/

def DueBehind (token : Token) : Prop :=
  token = .openParen ∨ exists op, token = .operator op

/-- The characters that write the token, where `rest` follows them. `due` says whether an
operand is due there: only then, and only if it touches the number, is a minus sign a
part of the number. -/
inductive Spells (f : NumberFormat) (due : Prop) : List Char -> List Char -> Token -> Prop where
  | number {negative : Bool} {run rest : List Char} {value : Float} :
      Run f run rest -> (negative = true -> due) ->
      readLiteral f (withSign negative run) = .ok value ->
      Spells f due (withSign negative run) rest (.number value)
  | operator {op : Operator} {rest : List Char} :
      (op = .minus -> due -> ¬ AtNumber f rest) ->
      Spells f due [op.symbol] rest (.operator op)
  | openParen {rest : List Char} : Spells f due ['('] rest .openParen
  | closeParen {rest : List Char} : Spells f due [')'] rest .closeParen

/-- What stands at the place of the last item: nothing, a malformed number, or a
character that starts no token. -/
inductive Closes (f : NumberFormat) (due : Prop) (position : Nat) :
    List Char -> Except EntryError (Nat × Token) -> Prop where
  | finish : Closes f due position [] (.ok (position, .finish))
  | malformed {negative : Bool} {run rest : List Char} {error : EntryError} :
      Run f run rest -> (negative = true -> due) ->
      readLiteral f (withSign negative run) = .error error ->
      Closes f due position (withSign negative run ++ rest) (.error error)
  | foreign {c : Char} {rest : List Char} :
      Text.isBlank c = false -> Token.ofChar? c = none -> ¬ AtNumber f (c :: rest) ->
      Closes f due position (c :: rest) (.error (.unexpectedCharacter c position))

inductive Tiled (f : NumberFormat) :
    Prop -> Nat -> List Char -> List (Except EntryError (Nat × Token)) -> Prop where
  | last {due : Prop} {position : Nat} {blanks text : List Char}
      {item : Except EntryError (Nat × Token)} :
      (forall c, c ∈ blanks -> Text.isBlank c = true) ->
      Closes f due (position + byteLength blanks) text item ->
      Tiled f due position (blanks ++ text) [item]
  | token {due : Prop} {position : Nat} {blanks text rest : List Char} {token : Token}
      {items : List (Except EntryError (Nat × Token))} :
      (forall c, c ∈ blanks -> Text.isBlank c = true) ->
      Spells f due text rest token ->
      Tiled f (DueBehind token) (position + byteLength (blanks ++ text)) rest items ->
      Tiled f due position (blanks ++ text ++ rest)
        (.ok (position + byteLength blanks, token) :: items)

theorem dueBehind_iff {token : Token} : DueBehind token <-> token.awaitsOperand = true := by
  cases token <;> simp [DueBehind, Token.awaitsOperand]

theorem byteLength_append (front back : List Char) :
    byteLength (front ++ back) = byteLength front + byteLength back := by
  induction front with
  | nil => rw [List.nil_append, byteLength, Nat.zero_add]
  | cons c front ih => rw [List.cons_append, byteLength, byteLength, ih, Nat.add_assoc]

section

variable {f : NumberFormat} {due : Prop} {position : Nat} {text rest : List Char}
  {token : Token} {items : List (Except EntryError (Nat × Token))}

theorem spells_of_ofChar? {c : Char} (h : Token.ofChar? c = some token)
    (hsign : c = '-' -> due -> ¬ AtNumber f rest) : Spells f due [c] rest token := by
  rcases Token.cases_of_ofChar? h with ⟨hc, htoken⟩ | ⟨hc, htoken⟩ | ⟨op, hc, htoken⟩
  · rw [hc, htoken]
    exact Spells.openParen
  · rw [hc, htoken]
    exact Spells.closeParen
  · rw [hc] at hsign ⊢
    rw [htoken]
    apply Spells.operator
    intro hminus
    apply hsign
    rw [hminus]
    rfl

theorem Spells.number_or_single (h : Spells f due text rest token) :
    (exists value, token = .number value) ∨
      exists c, text = [c] ∧ Token.ofChar? c = some token := by
  cases h with
  | number _ _ _ => exact Or.inl ⟨_, rfl⟩
  | operator _ => exact Or.inr ⟨_, rfl, Operator.token_ofChar?_symbol _⟩
  | openParen => exact Or.inr ⟨_, rfl, rfl⟩
  | closeParen => exact Or.inr ⟨_, rfl, rfl⟩

theorem Tiled.blank {c : Char} (hblank : Text.isBlank c = true)
    (h : Tiled f due (position + c.utf8Size) text items) :
    Tiled f due position (c :: text) items := by
  have hcons : forall {blanks : List Char}, (forall d, d ∈ blanks -> Text.isBlank d = true) ->
      forall d, d ∈ c :: blanks -> Text.isBlank d = true := by
    intro blanks hblanks
    exact List.forall_mem_cons.mpr ⟨hblank, hblanks⟩
  cases h with
  | last hblanks hcloses =>
      rw [Nat.add_assoc] at hcloses
      exact Tiled.last (hcons hblanks) hcloses
  | token hblanks hspells hrest =>
      rw [Nat.add_assoc] at hrest ⊢
      exact Tiled.token (hcons hblanks) hspells hrest

theorem Tiled.cons (hspells : Spells f due text rest token)
    (hrest : Tiled f (DueBehind token) (position + byteLength text) rest items) :
    Tiled f due position (text ++ rest) (.ok (position, token) :: items) := by
  rw [← List.nil_append text]
  exact Tiled.token (fun _ hc => absurd hc List.not_mem_nil) hspells hrest

theorem Tiled.single {item : Except EntryError (Nat × Token)}
    (h : Closes f due position text item) : Tiled f due position text [item] := by
  rw [← List.nil_append text]
  exact Tiled.last (fun _ hc => absurd hc List.not_mem_nil) h

section

variable {awaitsOperand : Bool} {literal : List Char}

theorem Tiled.number {value : Float} (hdue : awaitsOperand = true -> due)
    (hsplit : splitLiteral? f awaitsOperand text = some (literal, rest))
    (hread : readLiteral f literal = .ok value)
    (hrest : Tiled f (DueBehind (.number value)) (position + byteLength literal) rest items) :
    Tiled f due position text (.ok (position, .number value) :: items) := by
  rcases exists_run_of_splitLiteral? hsplit with ⟨negative, run, hliteral, htext, hrun, hsign⟩
  rw [htext]
  apply Tiled.cons _ hrest
  rw [hliteral] at hread ⊢
  exact Spells.number hrun (fun hnegative => hdue (hsign hnegative)) hread

theorem Tiled.malformed {error : EntryError} (hdue : awaitsOperand = true -> due)
    (hsplit : splitLiteral? f awaitsOperand text = some (literal, rest))
    (hread : readLiteral f literal = .error error) :
    Tiled f due position text [.error error] := by
  rcases exists_run_of_splitLiteral? hsplit with ⟨negative, run, hliteral, htext, hrun, hsign⟩
  rw [hliteral] at htext hread
  rw [htext]
  exact Tiled.single (Closes.malformed hrun (fun hnegative => hdue (hsign hnegative)) hread)

end

theorem tiled_tokensFrom (f : NumberFormat) {awaitsOperand : Bool} (position : Nat)
    (text : List Char) (hdue : due <-> awaitsOperand = true) :
    Tiled f due position text (tokensFrom f awaitsOperand position text).items := by
  fun_induction tokensFrom f awaitsOperand position text generalizing due with
  | case1 awaitsOperand position => exact Tiled.single Closes.finish
  | case2 awaitsOperand position c rest hblank ih => exact Tiled.blank hblank (ih hdue)
  | case3 awaitsOperand position c rest hblank found hfound value hvalue ih =>
      exact Tiled.number hdue.mpr (splitLiteral?_of_literal? hfound) hvalue (ih dueBehind_iff)
  | case4 awaitsOperand position c rest hblank found hfound error herror =>
      exact Tiled.malformed hdue.mpr (splitLiteral?_of_literal? hfound) herror
  | case5 awaitsOperand position c rest hblank hfound token htoken ih =>
      have hnumber := not_atNumber_of_splitLiteral? (splitLiteral?_eq_none_iff.mpr hfound)
      have hspells : Spells f due [c] rest token := by
        apply spells_of_ofChar? htoken
        intro hminus hdue'
        exact hnumber.right hminus (hdue.mp hdue')
      exact Tiled.cons hspells (ih dueBehind_iff)
  | case6 awaitsOperand position c rest hblank hfound htoken =>
      have hnumber := not_atNumber_of_splitLiteral? (splitLiteral?_eq_none_iff.mpr hfound)
      exact Tiled.single (Closes.foreign (Bool.eq_false_iff.mpr hblank) htoken hnumber.left)

end

/-!
# Items of a tiling
-/

def isLast : Except EntryError (Nat × Token) -> Bool
  | .ok item => item.2.isFinish
  | .error _ => true

/-- The place that an item names. A malformed number is quoted instead. -/
def place? : Except EntryError (Nat × Token) -> Option Nat
  | .ok item => some item.1
  | .error (.unexpectedCharacter _ position) => some position
  | .error _ => none

section

variable {f : NumberFormat} {due : Prop} {position place : Nat} {text rest : List Char}
  {token : Token} {item : Except EntryError (Nat × Token)}
  {items : List (Except EntryError (Nat × Token))}

theorem byteLength_pos (h : 0 < text.length) : 0 < byteLength text := by
  cases text with
  | nil => cases h
  | cons c rest => exact Nat.add_pos_left c.utf8Size_pos _

theorem Spells.length_pos (h : Spells f due text rest token) : 0 < text.length := by
  cases h with
  | number hrun _ _ =>
      rename_i negative run value
      rcases hrun.starts with ⟨c, tail, hcons, _⟩
      rw [withSign, hcons, List.length_append]
      exact Nat.add_pos_right _ (Nat.succ_pos _)
  | operator _ => exact Nat.one_pos
  | openParen => exact Nat.one_pos
  | closeParen => exact Nat.one_pos

theorem Spells.isFinish (h : Spells f due text rest token) : token.isFinish = false := by
  cases h <;> rfl

theorem Closes.isLast (h : Closes f due position text item) : isLast item = true := by
  cases h <;> rfl

theorem Closes.place_eq (h : Closes f due position text item) (hplace : place? item = some place)
    : place = position := by
  cases h with
  | finish => exact (Option.some.inj hplace).symm
  | malformed _ _ hread =>
      rcases readLiteral_eq_error_iff.mp hread with ⟨fault, _, herror⟩
      rw [← herror] at hplace
      cases hplace
  | foreign _ _ _ => exact (Option.some.inj hplace).symm

theorem Tiled.length_le (h : Tiled f due position text items) :
    items.length <= text.length + 1 := by
  induction h with
  | last _ _ => exact Nat.succ_le_succ (Nat.zero_le _)
  | token _ hspells _ ih =>
      have hlength := hspells.length_pos
      rw [List.length_cons, List.length_append, List.length_append]
      omega

theorem Tiled.exists_last (h : Tiled f due position text items) :
    exists front last, items = front ++ [last] ∧ isLast last = true ∧
      forall item, item ∈ front -> isLast item = false := by
  induction h with
  | last _ hcloses =>
      exact ⟨[], _, rfl, hcloses.isLast, fun _ hitem => absurd hitem List.not_mem_nil⟩
  | token _ hspells _ ih =>
      rcases ih with ⟨front, last, hitems, hlast, hfront⟩
      rw [hitems]
      refine ⟨_ :: front, last, rfl, hlast, ?_⟩
      exact List.forall_mem_cons.mpr ⟨hspells.isFinish, hfront⟩

theorem Tiled.exists_prefix (h : Tiled f due position text items) (hitem : item ∈ items)
    (hplace : place? item = some place) :
    exists front back, text = front ++ back ∧ place = position + byteLength front := by
  induction h with
  | last _ hcloses =>
      rw [List.mem_singleton] at hitem
      rw [hitem] at hplace
      exact ⟨_, _, rfl, hcloses.place_eq hplace⟩
  | token _ _ _ ih =>
      rename_i position blanks text rest token items _ _ _
      rcases List.mem_cons.mp hitem with hhere | hlater
      · rw [hhere] at hplace
        exact ⟨blanks, text ++ rest, List.append_assoc _ _ _, (Option.some.inj hplace).symm⟩
      · rcases ih hlater with ⟨front, back, hrest, hfront⟩
        refine ⟨blanks ++ text ++ front, back, ?_, ?_⟩
        · rw [hrest, List.append_assoc (blanks ++ text)]
        · rw [hfront, byteLength_append _ front, Nat.add_assoc]

theorem Tiled.finish_place (h : Tiled f due position text items)
    (hfinish : .ok (place, .finish) ∈ items) : place = position + byteLength text := by
  induction h with
  | last _ hcloses =>
      rw [List.mem_singleton] at hfinish
      rw [← hfinish] at hcloses
      cases hcloses with
      | finish => rw [List.append_nil]
  | token _ hspells _ ih =>
      rename_i position blanks text rest token items _ _
      rcases List.mem_cons.mp hfinish with hhere | hlater
      · cases hhere
        cases hspells
      · rw [ih hlater, byteLength_append (blanks ++ text), Nat.add_assoc]

theorem Tiled.places_increase (h : Tiled f due position text items) :
    (items.filterMap place?).Pairwise (· < ·) := by
  induction h with
  | last _ _ =>
      rename_i item _ _
      rw [List.filterMap_cons, List.filterMap_nil]
      cases place? item with
      | none => exact List.Pairwise.nil
      | some place => exact List.pairwise_singleton _ place
  | token _ hspells hrest ih =>
      rename_i position blanks text rest token items _
      have hlater : forall place, place ∈ items.filterMap place? ->
          position + byteLength blanks < place := by
        intro place hplace
        rcases List.mem_filterMap.mp hplace with ⟨item, hitem, hsome⟩
        rcases hrest.exists_prefix hitem hsome with ⟨front, back, _, hfront⟩
        have hpos := byteLength_pos hspells.length_pos
        rw [hfront, byteLength_append]
        omega
      exact List.Pairwise.cons hlater ih

end

structure Tiling (f : NumberFormat) (text : List Char)
    (items : List (Except EntryError (Nat × Token))) : Prop where
  tiled : Tiled f True 0 text items
  length_le : items.length <= text.length + 1
  exhausted : forall count,
    (Scanner.start text).answers f (items.length + count) =
      items.map some ++ List.replicate count none
  last : exists front last, items = front ++ [last] ∧ isLast last = true ∧
    forall item, item ∈ front -> isLast item = false
  increasing : (items.filterMap place?).Pairwise (· < ·)
  boundary : forall item place, item ∈ items -> place? item = some place ->
    exists front back, text = front ++ back ∧ place = byteLength front
  finish : forall place, .ok (place, .finish) ∈ items -> place = byteLength text

end Scan

/-- Whatever the entry and the format, the tokens tile the entry up to its end or up to
the first fault. -/
theorem TokenStream.tiling_ofText (f : NumberFormat) (text : List Char) :
    Scan.Tiling f text (TokenStream.ofText f text).items := by
  have htiled : Scan.Tiled f True 0 text (TokenStream.ofText f text).items :=
    Scan.tiled_tokensFrom f 0 text (iff_of_true True.intro rfl)
  constructor
  · exact htiled
  · exact htiled.length_le
  · intro count
    rw [← Scanner.items_start]
    exact Scanner.answers_eq f (Scanner.start text) count
  · exact htiled.exists_last
  · exact htiled.places_increase
  · intro item place hitem hplace
    rcases htiled.exists_prefix hitem hplace with ⟨front, back, htext, hfront⟩
    exact ⟨front, back, htext, by rw [hfront, Nat.zero_add]⟩
  · intro place hfinish
    rw [htiled.finish_place hfinish, Nat.zero_add]

end RegionalCalculator
