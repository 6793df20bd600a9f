import RegionalCalculator.Proofs.Reading.FlatScan

/-!
# Moved tokens

Reading hands the places of tokens on and never looks at them. If the tokens of an entry
are moved to other places and the fault at its end is changed, then the same tree is read;
an error that reading raises itself is moved, and a fault of the entry comes out changed.
-/

namespace RegionalCalculator

open TokenStream

def EntryError.moved (move : Nat -> Nat) : EntryError -> EntryError
  | .emptyEntry => .emptyEntry
  | .unexpectedCharacter c position => .unexpectedCharacter c (move position)
  | .malformedLiteral text reason => .malformedLiteral text reason
  | .unmatchedParen position => .unmatchedParen (move position)
  | .trailingInput position => .trailingInput (move position)
  | .unexpectedToken token position => .unexpectedToken token (move position)
  | .tooDeep limit => .tooDeep limit

/-!
# Token streams
-/

namespace TokenStream

/-- The stream with its tokens moved and its fault, if it ends in one, changed. -/
def relocate (move : Nat -> Nat) (change : EntryError -> EntryError) : TokenStream -> TokenStream
  | finish position => finish (move position)
  | fault error => fault (change error)
  | next position token rest => next (move position) token (rest.relocate move change)

def relocateItem (move : Nat -> Nat) (change : EntryError -> EntryError)
    (item : Except EntryError (Nat × Token)) : Except EntryError (Nat × Token) :=
  (item.map fun positioned => (move positioned.1, positioned.2)).mapError change

variable {move : Nat -> Nat} {change : EntryError -> EntryError}

theorem relocateItem_ok (item : Nat × Token) :
    relocateItem move change (.ok item) = .ok (move item.1, item.2) :=
  rfl

theorem items_relocate (s : TokenStream) :
    (s.relocate move change).items = s.items.map (relocateItem move change) := by
  induction s with
  | finish position => rfl
  | fault error => rfl
  | next position token rest ih =>
      rw [relocate, items, ih, items, List.map_cons]
      rfl

theorem tokens_relocate (s : TokenStream) :
    (s.relocate move change).tokens = s.tokens.mapError change := by
  induction s with
  | finish position => rfl
  | fault error => rfl
  | next position token rest ih =>
      rw [relocate, tokens, ih, tokens]
      cases rest.tokens with
      | error error => rfl
      | ok tokens => rfl

theorem EndsOnce.relocate {s : TokenStream} (h : s.EndsOnce) :
    (s.relocate move change).EndsOnce := by
  induction s with
  | finish position => exact True.intro
  | fault error => exact True.intro
  | next position token rest ih => exact ⟨h.left, ih h.right⟩

theorem Yields.relocate {s rest : TokenStream} {tokens : List Token} (h : Yields s tokens rest) :
    Yields (s.relocate move change) tokens (rest.relocate move change) := by
  induction h with
  | nil s => exact Yields.nil _
  | cons _ ih => exact Yields.cons ih

theorem mapFault_eq_relocate (s : TokenStream) : s.mapFault change = s.relocate id change := by
  induction s with
  | finish position => rfl
  | fault error => rfl
  | next position token rest ih =>
      rw [mapFault, ih]
      rfl

end TokenStream

/-!
# Errors of the pass

The pass that judges an entry raises errors about the order of the tokens only; a fault at
the end of the stream is handed on untouched.
-/

/-- Whether the error comes from the order of the tokens, and not from their text. -/
def EntryError.isStructural : EntryError -> Bool
  | .unexpectedCharacter _ _ => false
  | .malformedLiteral _ _ => false
  | _ => true

namespace Nesting

theorem isStructural_of_takeOperand {place : Nesting} {minuses position : Nat} {token : Token}
    {error : EntryError} (h : place.takeOperand minuses position token = .error error) :
    error.isStructural = true := by
  unfold takeOperand at h
  split at h
  · cases h
  · cases h
  · cases h
  · cases h
    rfl

theorem isStructural_of_takeOperator {place : Nesting} {position : Nat} {token : Token}
    {error : EntryError} (h : place.takeOperator position token = .error error) :
    error.isStructural = true := by
  unfold takeOperator at h
  split at h
  · cases h
  · cases h
  · split at h <;> cases h
    rfl
  · split at h <;> cases h
    rfl
  · cases h
    rfl

theorem isStructural_of_step {place : Nesting} {position : Nat} {due : Due} {token : Token}
    {error : EntryError} (h : place.step position due token = .error error) :
    error.isStructural = true := by
  cases due with
  | operand minuses =>
      rw [step] at h
      split at h
      · cases h
        rfl
      · exact isStructural_of_takeOperand h
  | operator => exact isStructural_of_takeOperator h

/-!
# The pass over moved tokens
-/

def moved (move : Nat -> Nat) (place : Nesting) : Nesting :=
  { place with
    opened := place.opened.map fun paren => { paren with position := move paren.position } }

def movedStep (move : Nat -> Nat) (o : Except EntryError (Option (Nesting × Due))) :
    Except EntryError (Option (Nesting × Due)) :=
  (o.map fun next => next.map fun after => (after.1.moved move, after.2)).mapError
    (EntryError.moved move)

theorem movedStep_error (move : Nat -> Nat) (error : EntryError) :
    movedStep move (.error error) = .error (error.moved move) :=
  rfl

theorem takeOperand_moved (move : Nat -> Nat) (place : Nesting) (minuses position : Nat)
    (token : Token) :
    (place.moved move).takeOperand minuses (move position) token =
      movedStep move (place.takeOperand minuses position token) := by
  cases token with
  | number value => rfl
  | operator op =>
      cases op with
      | minus => rfl
      | plus => rfl
      | times => rfl
      | divide => rfl
      | power => rfl
  | openParen => rfl
  | closeParen => rfl
  | finish => rfl

theorem takeOperator_moved (move : Nat -> Nat) (place : Nesting) (position : Nat)
    (token : Token) :
    (place.moved move).takeOperator (move position) token =
      movedStep move (place.takeOperator position token) := by
  rcases place with ⟨base, carets, opened⟩
  cases token with
  | number value => rfl
  | operator op =>
      cases op with
      | power => rfl
      | plus => rfl
      | minus => rfl
      | times => rfl
      | divide => rfl
  | openParen => rfl
  | closeParen => cases opened <;> rfl
  | finish => cases opened <;> rfl

theorem step_moved (move : Nat -> Nat) (place : Nesting) (position : Nat) (due : Due)
    (token : Token) :
    (place.moved move).step (move position) due token =
      movedStep move (place.step position due token) := by
  cases due with
  | operand minuses =>
      have hlevel : (place.moved move).level minuses = place.level minuses := rfl
      rw [step, step, hlevel]
      split
      · rfl
      · exact takeOperand_moved move place minuses position token
  | operator => exact takeOperator_moved move place position token

variable {move : Nat -> Nat} {change : EntryError -> EntryError}

theorem run_relocate (hchange : forall error, error.isStructural = true ->
    change error = error.moved move) (place : Nesting) (due : Due)
    (items : List (Except EntryError (Nat × Token))) :
    (place.moved move).run due (items.map (relocateItem move change)) =
      (place.run due items).mapError change := by
  induction items generalizing place due with
  | nil => rfl
  | cons item items ih =>
      cases item with
      | error error => rfl
      | ok positioned =>
          have hmoved := step_moved move place positioned.1 due positioned.2
          rw [List.map_cons, relocateItem_ok, run, run, hmoved]
          cases hstep : place.step positioned.1 due positioned.2 with
          | error error =>
              rw [movedStep_error, ← hchange error (isStructural_of_step hstep)]
              rfl
          | ok next =>
              cases next with
              | none => rfl
              | some next => exact ih next.1 next.2

theorem verdict_relocate (hchange : forall error, error.isStructural = true ->
    change error = error.moved move) (s : TokenStream) :
    verdict (s.relocate move change).items = (verdict s.items).mapError change := by
  have hrun := run_relocate hchange {} (.operand 0) s.items
  rw [items_relocate]
  cases s with
  | finish position => exact congrArg Except.error (hchange .emptyEntry rfl).symm
  | fault error => rfl
  | next position token rest =>
      cases token with
      | finish => exact congrArg Except.error (hchange .emptyEntry rfl).symm
      | number value => exact hrun
      | operator op => exact hrun
      | openParen => exact hrun
      | closeParen => exact hrun

end Nesting

/-!
# Whole streams
-/

theorem Expr.ofTokens_relocate {move : Nat -> Nat} {change : EntryError -> EntryError}
    (hchange : forall error, error.isStructural = true -> change error = error.moved move)
    {s : TokenStream} (hends : s.EndsOnce) :
    Expr.ofTokens (s.relocate move change) = (Expr.ofTokens s).mapError change := by
  -- Trees are compared along the grammar, and errors along the pass, which builds no tree.
  cases hread : Expr.ofTokens s with
  | ok e =>
      rcases Expr.derives_of_ofTokens hread with ⟨tokens, depth, position, hyields, hderives, _⟩
      have hsame := Expr.ofTokens_of_derives hyields hderives
      rw [Expr.ofTokens_of_derives hyields.relocate hderives, ← hsame, hread]
      rfl
  | error error =>
      apply Expr.ofTokens_of_verdict hends.relocate
      rw [Nesting.verdict_relocate hchange, ← Nesting.verdict_items hends, hread]
      rfl

theorem Expr.mapError_ofText {move : Nat -> Nat} {change : EntryError -> EntryError}
    (hchange : forall error, error.isStructural = true -> change error = error.moved move)
    (f : NumberFormat) (text : List Char) :
    (Expr.ofText f text).mapError change =
      Expr.ofTokens ((TokenStream.ofText f text).relocate move change) :=
  (Expr.ofTokens_relocate hchange (Scan.endsOnce_tokensFrom f true 0 text)).symm

end RegionalCalculator
