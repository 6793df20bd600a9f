import RegionalCalculator.Numeral
import RegionalCalculator.Token.Basic

/-!
# Errors of an entry

An entry is refused at the first fault met. Positions count the bytes that stand
before the place in the UTF-8 form of the entry.
-/

namespace RegionalCalculator

inductive EntryError where
  | emptyEntry
  | unexpectedCharacter (c : Char) (position : Nat)
  | malformedLiteral (text : List Char) (fault : LiteralFault)
  | unmatchedParen (position : Nat)
  | trailingInput (position : Nat)
  | unexpectedToken (token : Token) (position : Nat)
  | tooDeep (limit : Nat)
deriving DecidableEq

def EntryError.message : EntryError -> String
  | .emptyEntry => "entrée vide"
  | .unexpectedCharacter c position => s!"caractère inattendu '{c}' (position {position})"
  | .malformedLiteral text fault =>
      s!"nombre mal formé \"{String.ofList text}\" : {fault.reason}"
  | .unmatchedParen position => s!"parenthèse orpheline (position {position})"
  | .trailingInput position => s!"reste non lu après l’expression (position {position})"
  | .unexpectedToken token position =>
      s!"jeton inattendu {String.ofList token.render} (position {position})"
  | .tooDeep limit => s!"expression trop imbriquée (max {limit} niveaux de descente)"

/-- What is wrong with an entry, whatever the place and the text. -/
inductive ErrorKind where
  | emptyEntry
  | unexpectedCharacter
  | malformedLiteral
  | unmatchedParen
  | trailingInput
  | unexpectedToken
  | tooDeep
deriving DecidableEq, Repr

def EntryError.kind : EntryError -> ErrorKind
  | .emptyEntry => .emptyEntry
  | .unexpectedCharacter _ _ => .unexpectedCharacter
  | .malformedLiteral _ _ => .malformedLiteral
  | .unmatchedParen _ => .unmatchedParen
  | .trailingInput _ => .trailingInput
  | .unexpectedToken _ _ => .unexpectedToken
  | .tooDeep _ => .tooDeep

/-- The numeral of a literal; a fault is reported with the whole literal. -/
def normalizeLiteral (f : NumberFormat) (text : List Char) : Except EntryError Numeral :=
  (Numeral.ofLiteral f text).mapError (EntryError.malformedLiteral text)

def readLiteral (f : NumberFormat) (text : List Char) : Except EntryError Float :=
  (literalValue f text).mapError (EntryError.malformedLiteral text)

theorem readLiteral_eq_ok_iff {f : NumberFormat} {text : List Char} {value : Float} :
    readLiteral f text = .ok value <-> literalValue f text = .ok value := by
  rw [readLiteral]
  cases literalValue f text with
  | ok found =>
      constructor
      · intro h
        cases h
        rfl
      · intro h
        cases h
        rfl
  | error fault =>
      constructor
      · intro h
        cases h
      · intro h
        cases h

theorem readLiteral_of_ofLiteral {f g : NumberFormat} {text text' : List Char} {value : Float}
    (h : forall n, Numeral.ofLiteral f text = .ok n -> Numeral.ofLiteral g text' = .ok n)
    (hread : readLiteral f text = .ok value) : readLiteral g text' = .ok value := by
  rw [readLiteral_eq_ok_iff, literalValue_eq_ok_iff] at hread ⊢
  rcases hread with ⟨n, hnumeral, hvalue⟩
  exact ⟨n, h n hnumeral, hvalue⟩

theorem readLiteral_eq_error_iff {f : NumberFormat} {text : List Char} {error : EntryError} :
    readLiteral f text = .error error <->
      exists fault, literalValue f text = .error fault ∧ .malformedLiteral text fault = error := by
  rw [readLiteral]
  cases literalValue f text with
  | ok found =>
      constructor
      · intro h
        cases h
      · rintro ⟨fault, hfault, _⟩
        cases hfault
  | error found =>
      constructor
      · intro h
        cases h
        exact ⟨found, rfl, rfl⟩
      · rintro ⟨fault, hfault, rfl⟩
        cases hfault
        rfl

end RegionalCalculator
