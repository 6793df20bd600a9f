import RegionalCalculator.Evaluation
import RegionalCalculator.Format.Named
import RegionalCalculator.Proofs.Reading.FlatScan
import RegionalCalculator.Proofs.Scanning.Tiling

/-!
# The cause of an error

An error names a place in the entry or quotes a part of it, and what is wrong can be seen
there. Places are recorded when an entry is scanned and are carried through the reading,
that of an opening parenthesis across everything inside the parentheses. Here the pass that
judges an entry is followed along the tiling of its characters: behind a value the scanner
awaits no operand, and an opening parenthesis stands at the place of each one that is open.
-/

namespace RegionalCalculator

/-!
# Places
-/

namespace Scan

/-- `rest` is what stands from byte `position` of the entry on. -/
def StandsAt (entry : List Char) (position : Nat) (rest : List Char) : Prop :=
  exists front, entry = front ++ rest ∧ position = byteLength front

theorem eq_nil_of_byteLength {text : List Char} (h : byteLength text = 0) : text = [] := by
  cases text with
  | nil => rfl
  | cons c rest =>
      have hpos : 0 < byteLength (c :: rest) := byteLength_pos (Nat.succ_pos _)
      rw [h] at hpos
      cases hpos

section

variable {entry text rest rest' : List Char} {position : Nat}

theorem StandsAt.behind (h : StandsAt entry position (text ++ rest)) :
    StandsAt entry (position + byteLength text) rest := by
  rcases h with ⟨front, hentry, hposition⟩
  refine ⟨front ++ text, ?_, ?_⟩
  · rw [hentry, List.append_assoc]
  · rw [hposition, byteLength_append]

theorem StandsAt.position_eq (h : StandsAt entry position []) : position = byteLength entry := by
  rcases h with ⟨front, hentry, hposition⟩
  rw [hposition, hentry, List.append_nil]

theorem StandsAt.isInfix (h : StandsAt entry position (text ++ rest)) : text <:+: entry := by
  rcases h with ⟨front, hentry, _⟩
  exact ⟨front, rest, by rw [hentry, List.append_assoc]⟩

theorem StandsAt.unique (h : StandsAt entry position rest) (h' : StandsAt entry position rest') :
    rest = rest' := by
  rcases h with ⟨front, hentry, hposition⟩
  rcases h' with ⟨front', hentry', hposition'⟩
  have hsame : front ++ rest = front' ++ rest' := hentry.symm.trans hentry'
  have hbytes : byteLength front = byteLength front' := hposition.symm.trans hposition'
  -- The longer front would have more bytes.
  rcases List.append_eq_append_iff.mp hsame with ⟨part, hfront, hrest⟩ | ⟨part, hfront, hrest⟩
  · rw [hfront, byteLength_append] at hbytes
    have hpart : part = [] := eq_nil_of_byteLength (by omega)
    rw [hrest, hpart, List.nil_append]
  · rw [hfront, byteLength_append] at hbytes
    have hpart : part = [] := eq_nil_of_byteLength (by omega)
    rw [hrest, hpart, List.nil_append]

end

end Scan

/-!
# Causes
-/

open Scan

/-- What there is to see in the entry where the error points. Input that is left over starts
with an opening parenthesis or with the number itself, never with its sign. -/
def EntryError.Caused (f : NumberFormat) (entry : List Char) : EntryError -> Prop
  | .emptyEntry => forall c, c ∈ entry -> Text.isBlank c = true
  | .unexpectedCharacter c position =>
      (exists rest, StandsAt entry position (c :: rest)) ∧
        Text.isBlank c = false ∧ c.isDigit = false ∧ c ∉ Token.chars
  | .malformedLiteral literal _ => literal <:+: entry
  | .unmatchedParen position =>
      exists c rest, StandsAt entry position (c :: rest) ∧ (c = '(' ∨ c = ')')
  | .trailingInput position =>
      exists c rest, StandsAt entry position (c :: rest) ∧
        (c = '(' ∨ c.isDigit = true ∨ c = f.decimal.toChar ∧ DigitNext rest)
  | .unexpectedToken token position =>
      (exists c rest, StandsAt entry position (c :: rest) ∧ Token.ofChar? c = some token ∧
          c ∈ ['+', '*', '/', '^', ')']) ∨
        (token = .finish ∧ position = byteLength entry)
  | .tooDeep limit => limit = maxDepth

theorem Token.not_mem_chars_of_ofChar? {c : Char} (h : ofChar? c = none) : c ∉ chars := by
  have hall : chars.all (fun c => (ofChar? c).isSome) = true := rfl
  intro hmem
  have hsome := List.all_eq_true.mp hall c hmem
  rw [h] at hsome
  cases hsome

namespace Nesting

/-- The invariant of the pass along the tiling: behind a value the scanner awaits no operand,
and every parenthesis that is open is found at its place. -/
structure InStep (entry : List Char) (due : Prop) (place : Nesting) (next : Due) : Prop where
  behind_value : next = .operator -> ¬ due
  opened : forall paren, paren ∈ place.opened ->
    exists rest, StandsAt entry paren.position ('(' :: rest)

variable {f : NumberFormat} {entry text rest : List Char} {due : Prop} {place : Nesting}
  {next : Due} {position : Nat} {token : Token} {error : EntryError}

/-!
# Steps
-/

theorem exists_takeOperator_operator (place : Nesting) (position : Nat) (op : Operator) :
    exists carets, place.takeOperator position (.operator op) =
      .ok (some ({ place with carets := carets }, .operand 0)) := by
  cases op <;> exact ⟨_, rfl⟩

theorem InStep.operand {minuses : Nat} (hopened : forall paren, paren ∈ place.opened ->
    exists rest, StandsAt entry paren.position ('(' :: rest)) :
    InStep entry due place (.operand minuses) :=
  ⟨fun heq => Due.noConfusion heq, hopened⟩

theorem InStep.start (entry : List Char) (due : Prop) : InStep entry due {} (.operand 0) :=
  InStep.operand fun _ hparen => absurd hparen List.not_mem_nil

theorem InStep.operator (hopened : forall paren, paren ∈ place.opened ->
    exists rest, StandsAt entry paren.position ('(' :: rest)) (h : token.awaitsOperand = false) :
    InStep entry (DueBehind token) place .operator := by
  refine ⟨fun _ hdue => ?_, hopened⟩
  rw [dueBehind_iff, h] at hdue
  cases hdue

/-- A token that is taken where an operand is due leads to the next place in step. -/
theorem InStep.takeOperand {minuses : Nat} {after : Nesting × Due}
    (h : InStep entry due place (.operand minuses)) (hspells : Spells f due text rest token)
    (hat : StandsAt entry position (text ++ rest))
    (htake : place.takeOperand minuses position token = .ok (some after)) :
    InStep entry (DueBehind token) after.1 after.2 := by
  cases hspells with
  | number _ _ _ =>
      cases htake
      exact InStep.operator h.opened rfl
  | operator _ =>
      rename_i op _
      cases op with
      | minus =>
          cases htake
          exact InStep.operand h.opened
      | plus => cases htake
      | times => cases htake
      | divide => cases htake
      | power => cases htake
  | openParen =>
      cases htake
      exact InStep.operand (List.forall_mem_cons.mpr ⟨⟨rest, hat⟩, h.opened⟩)
  | closeParen => cases htake

theorem InStep.takeOperator {after : Nesting × Due} (h : InStep entry due place .operator)
    (hspells : Spells f due text rest token)
    (htake : place.takeOperator position token = .ok (some after)) :
    InStep entry (DueBehind token) after.1 after.2 := by
  cases hspells with
  | number _ _ _ => cases htake
  | operator _ =>
      rcases exists_takeOperator_operator place position _ with ⟨carets, hoperator⟩
      rw [hoperator] at htake
      cases htake
      apply InStep.operand
      exact h.opened
  | openParen => cases htake
  | closeParen =>
      have hopened := h.opened
      rw [Nesting.takeOperator] at htake
      cases hcase : place.opened with
      | nil =>
          rw [hcase] at htake
          cases htake
      | cons paren opened =>
          rw [hcase] at htake hopened
          cases htake
          exact InStep.operator (List.forall_mem_cons.mp hopened).right rfl

theorem InStep.step {after : Nesting × Due} (h : InStep entry due place next)
    (hspells : Spells f due text rest token) (hat : StandsAt entry position (text ++ rest))
    (hstep : place.step position next token = .ok (some after)) :
    InStep entry (DueBehind token) after.1 after.2 := by
  cases next with
  | operand minuses =>
      rw [Nesting.step] at hstep
      split at hstep
      · cases hstep
      · exact h.takeOperand hspells hat hstep
  | operator => exact h.takeOperator hspells hstep

/-!
# Errors of a step
-/

theorem caused_of_takeOperand {minuses : Nat} (hspells : Spells f due text rest token)
    (hat : StandsAt entry position (text ++ rest))
    (htake : place.takeOperand minuses position token = .error error) :
    error.Caused f entry := by
  cases hspells with
  | number _ _ _ => cases htake
  | operator _ =>
      rename_i op _
      cases op with
      | minus => cases htake
      | plus =>
          cases htake
          exact Or.inl ⟨'+', rest, hat, rfl, by decide⟩
      | times =>
          cases htake
          exact Or.inl ⟨'*', rest, hat, rfl, by decide⟩
      | divide =>
          cases htake
          exact Or.inl ⟨'/', rest, hat, rfl, by decide⟩
      | power =>
          cases htake
          exact Or.inl ⟨'^', rest, hat, rfl, by decide⟩
  | openParen => cases htake
  | closeParen =>
      cases htake
      exact Or.inl ⟨')', rest, hat, rfl, by decide⟩

theorem InStep.caused_of_takeOperator (h : InStep entry due place .operator)
    (hspells : Spells f due text rest token) (hat : StandsAt entry position (text ++ rest))
    (htake : place.takeOperator position token = .error error) : error.Caused f entry := by
  cases hspells with
  | @number negative run _ _ hrun hsign _ =>
      cases htake
      cases negative with
      | true => exact absurd (hsign rfl) (h.behind_value rfl)
      | false =>
          have hnumber : startsNumber f (run ++ rest) = true :=
            startsNumber_iff.mpr ⟨run, rest, rfl, hrun⟩
          rcases exists_cons_of_startsNumber hnumber with ⟨c, others, hcons, _⟩
          have hplace : StandsAt entry position (run ++ rest) := hat
          rw [hcons] at hnumber hplace
          exact ⟨c, others, hplace, Or.inr (startsNumber_cons_iff.mp hnumber)⟩
  | operator _ =>
      rcases exists_takeOperator_operator place position _ with ⟨carets, hoperator⟩
      rw [hoperator] at htake
      cases htake
  | openParen =>
      cases htake
      exact ⟨'(', rest, hat, Or.inl rfl⟩
  | closeParen =>
      rw [Nesting.takeOperator] at htake
      cases hcase : place.opened with
      | nil =>
          rw [hcase] at htake
          cases htake
          exact ⟨')', rest, hat, Or.inr rfl⟩
      | cons paren opened =>
          rw [hcase] at htake
          cases htake

theorem InStep.caused_of_step (h : InStep entry due place next)
    (hspells : Spells f due text rest token) (hat : StandsAt entry position (text ++ rest))
    (hstep : place.step position next token = .error error) : error.Caused f entry := by
  cases next with
  | operand minuses =>
      rw [Nesting.step] at hstep
      split at hstep
      · cases hstep
        rfl
      · exact caused_of_takeOperand hspells hat hstep
  | operator => exact h.caused_of_takeOperator hspells hat hstep

theorem InStep.caused_of_finish (h : InStep entry due place next)
    (hposition : position = byteLength entry)
    (hstep : place.step position next .finish = .error error) : error.Caused f entry := by
  cases next with
  | operand minuses =>
      rw [Nesting.step] at hstep
      split at hstep
      · cases hstep
        rfl
      · cases hstep
        exact Or.inr ⟨rfl, hposition⟩
  | operator =>
      have hopened := h.opened
      rw [Nesting.step, Nesting.takeOperator] at hstep
      cases hcase : place.opened with
      | nil =>
          rw [hcase] at hstep
          cases hstep
      | cons paren opened =>
          rw [hcase] at hstep hopened
          cases hstep
          rcases (List.forall_mem_cons.mp hopened).left with ⟨rest, hparen⟩
          exact ⟨'(', rest, hparen, Or.inl rfl⟩

theorem caused_of_closes (hcloses : Closes f due position text (.error error))
    (hat : StandsAt entry position text) : error.Caused f entry := by
  cases hcloses with
  | malformed _ _ hread =>
      rcases readLiteral_eq_error_iff.mp hread with ⟨fault, _, herror⟩
      rw [← herror]
      exact hat.isInfix
  | foreign hblank htoken hnumber =>
      rename_i c rest
      refine ⟨⟨rest, hat⟩, hblank, ?_, Token.not_mem_chars_of_ofChar? htoken⟩
      rw [Bool.eq_false_iff]
      intro hdigit
      exact hnumber (startsNumber_iff.mp (startsNumber_cons_iff.mpr (Or.inl hdigit)))

/-!
# The whole pass
-/

theorem run_cons_error {item : Nat × Token}
    {items : List (Except EntryError (Nat × Token))}
    (h : place.run next (.ok item :: items) = .error error) :
    place.step item.1 next item.2 = .error error ∨
      exists after, place.step item.1 next item.2 = .ok (some after) ∧
        after.1.run after.2 items = .error error := by
  rw [run] at h
  cases hstep : place.step item.1 next item.2 with
  | error fault =>
      rw [hstep] at h
      cases h
      exact Or.inl rfl
  | ok after =>
      rw [hstep] at h
      cases after with
      | none => cases h
      | some after => exact Or.inr ⟨after, rfl, h⟩

theorem InStep.caused_of_run {items : List (Except EntryError (Nat × Token))}
    (htiled : Tiled f due position text items) (h : InStep entry due place next)
    (hat : StandsAt entry position text) (hrun : place.run next items = .error error) :
    error.Caused f entry := by
  induction htiled generalizing place next with
  | @last _ _ _ _ item _ hcloses =>
      cases item with
      | error fault =>
          cases hrun
          exact caused_of_closes hcloses hat.behind
      | ok positioned =>
          cases hcloses with
          | finish =>
              rcases run_cons_error hrun with hstep | ⟨after, _, hnil⟩
              · exact h.caused_of_finish hat.behind.position_eq hstep
              · cases hnil
  | token _ hspells _ ih =>
      rw [List.append_assoc] at hat
      have hbehind := hat.behind
      rcases run_cons_error hrun with hstep | ⟨after, hstep, hrest⟩
      · exact h.caused_of_step hspells hbehind hstep
      · apply ih (h.step hspells hbehind hstep) _ hrest
        rw [byteLength_append, ← Nat.add_assoc]
        exact hbehind.behind

theorem caused_of_verdict {s : TokenStream} (hends : s.EndsOnce)
    (htiled : Tiled f True 0 entry s.items) (h : verdict s.items = .error error) :
    error.Caused f entry := by
  rcases s.finish_or_ne with ⟨position, rfl⟩ | hs
  · cases h
    cases htiled with
    | last hblanks hcloses =>
        cases hcloses with
        | finish =>
            rw [List.append_nil]
            exact hblanks
    | token _ hspells _ => cases hspells
  · rw [verdict_eq_run hends hs] at h
    exact (InStep.start entry True).caused_of_run htiled ⟨[], rfl, rfl⟩ h

end Nesting

/-!
# Entries
-/

variable {f : NumberFormat} {entry : List Char} {error : EntryError}

theorem Expr.caused_of_ofText (h : ofText f entry = .error error) : error.Caused f entry := by
  have hends := endsOnce_tokensFrom f true 0 entry
  apply Nesting.caused_of_verdict hends (tiled_tokensFrom f 0 entry (iff_of_true True.intro rfl))
  have hverdict : (ofTokens (TokenStream.ofText f entry)).map (fun _ => ()) = .error error :=
    congrArg (Except.map fun _ => ()) h
  exact (Nesting.verdict_items hends).symm.trans hverdict

theorem Expr.ofText_of_blank (f : NumberFormat)
    (h : forall c, c ∈ entry -> Text.isBlank c = true) : ofText f entry = .error .emptyEntry := by
  have hfinish : TokenStream.ofText f entry = .finish (0 + byteLength entry) := by
    have htokens := tokensFrom_blanks f true 0 [] h
    rw [List.append_nil, tokensFrom] at htokens
    exact htokens
  rw [ofText, hfinish]
  rfl

theorem evaluate_eq_error_iff :
    evaluate f entry = .error error <-> Expr.ofText f entry = .error error := by
  rw [evaluate]
  cases Expr.ofText f entry with
  | error fault =>
      constructor
      · intro h
        cases h
        rfl
      · intro h
        cases h
        rfl
  | ok e =>
      constructor
      · intro h
        cases h
      · intro h
        cases h

/-- Whatever entry is refused, its cause stands where the error points, and an entry is empty
exactly if it is blank. -/
theorem evaluate_error_caused (f : NumberFormat) (entry : List Char) :
    (evaluate f entry = .error .emptyEntry <-> forall c, c ∈ entry -> Text.isBlank c = true) ∧
      forall error, evaluate f entry = .error error -> error.Caused f entry := by
  have hcaused : forall error, evaluate f entry = .error error -> error.Caused f entry :=
    fun error h => Expr.caused_of_ofText (evaluate_eq_error_iff.mp h)
  refine ⟨⟨hcaused .emptyEntry, fun hblank => ?_⟩, hcaused⟩
  rw [evaluate_eq_error_iff]
  exact Expr.ofText_of_blank f hblank

theorem evaluate_error_caused_narrow_space :
    evaluate .standard "(2\u202f\u202f.5)".toList = .error (.trailingInput 8) ∧
      StandsAt "(2\u202f\u202f.5)".toList 8 ".5)".toList ∧ DigitNext "5)".toList := by
  have h : evaluate .standard "(2\u202f\u202f.5)".toList = .error (.trailingInput 8) := by
    decide +kernel
  have hplace : StandsAt "(2\u202f\u202f.5)".toList 8 ".5)".toList :=
    ⟨"(2\u202f\u202f".toList, rfl, rfl⟩
  rcases (evaluate_error_caused .standard _).right _ h with ⟨c, rest, hstands, hcause⟩
  cases hstands.unique hplace
  rcases hcause with hopen | hdigit | ⟨_, hnext⟩
  · cases hopen
  · cases hdigit
  · exact ⟨h, hplace, hnext⟩

end RegionalCalculator
