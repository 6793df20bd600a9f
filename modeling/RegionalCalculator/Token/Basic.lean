import RegionalCalculator.Number.Text

/-!
# Tokens

The tokens of an entry are numbers, operators, parentheses and the mark of its
end. The working of a computation lists them with single spaces between.
-/

namespace RegionalCalculator

inductive Operator where
  | plus
  | minus
  | times
  | divide
  | power
deriving DecidableEq, Repr

namespace Operator

def all : List Operator :=
  [plus, minus, times, divide, power]

def symbol : Operator -> Char
  | plus => '+'
  | minus => '-'
  | times => '*'
  | divide => '/'
  | power => '^'

def ofChar? (c : Char) : Option Operator :=
  all.find? fun op => op.symbol == c

theorem symbol_of_ofChar? {c : Char} {op : Operator} (h : ofChar? c = some op) :
    op.symbol = c := by
  unfold ofChar? at h
  have hsymbol := List.find?_some h
  exact eq_of_beq hsymbol

def isAdditive (op : Operator) : Bool :=
  op == plus || op == minus

def isMultiplicative (op : Operator) : Bool :=
  op == times || op == divide

end Operator

/-- `finish` stands for the end of the entry. -/
inductive Token where
  | number (value : Float)
  | operator (op : Operator)
  | openParen
  | closeParen
  | finish
deriving DecidableEq

namespace Token

def ofChar? : Char -> Option Token
  | '(' => some openParen
  | ')' => some closeParen
  | c => (Operator.ofChar? c).map operator

def chars : List Char :=
  ['(', ')'] ++ Operator.all.map Operator.symbol

theorem cases_of_ofChar? {c : Char} {token : Token} (h : ofChar? c = some token) :
    (c = '(' ∧ token = openParen) ∨ (c = ')' ∧ token = closeParen) ∨
      exists op : Operator, c = op.symbol ∧ token = operator op := by
  unfold ofChar? at h
  split at h
  · exact Or.inl ⟨rfl, (Option.some.inj h).symm⟩
  · exact Or.inr (Or.inl ⟨rfl, (Option.some.inj h).symm⟩)
  · rcases Option.map_eq_some_iff.mp h with ⟨op, hop, htoken⟩
    exact Or.inr (Or.inr ⟨op, (Operator.symbol_of_ofChar? hop).symm, htoken.symm⟩)

theorem mem_chars_of_ofChar? {c : Char} {token : Token} (h : ofChar? c = some token) :
    c ∈ chars := by
  rcases cases_of_ofChar? h with ⟨hc, _⟩ | ⟨hc, _⟩ | ⟨op, hc, _⟩
  · rw [hc]
    decide
  · rw [hc]
    decide
  · rw [hc]
    cases op <;> decide

def isFinish : Token -> Bool
  | finish => true
  | _ => false

/-- After this token an operand is due, so that a minus sign there belongs to the
number it touches. -/
def awaitsOperand : Token -> Bool
  | operator _ => true
  | openParen => true
  | _ => false

def render : Token -> List Char
  | number value => Number.render value
  | operator op => [op.symbol]
  | openParen => ['(']
  | closeParen => [')']
  | finish => ['f', 'i', 'n']

/-- The tokens with single spaces between; the end mark is left out. -/
def renderAll (tokens : List Token) : List Char :=
  [' '].intercalate ((tokens.filter fun token => !token.isFinish).map render)

end Token
end RegionalCalculator
