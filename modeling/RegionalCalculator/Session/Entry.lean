import RegionalCalculator.Format.Basic
import RegionalCalculator.Token.Basic

/-!
# Editing the entry with the keypad

The keypad sets operators off with spaces and lets parentheses and digits join
what stands before them. Deleting takes away one character together with the
spaces around it, so that it undoes an insertion whatever spaces that put in.
-/

namespace RegionalCalculator

inductive Insertion where
  | digit (d : Fin 10)
  | decimal (mark : DecimalMark)
  | openParen
  | closeParen
  | operator (op : Operator)
deriving DecidableEq, Repr

def Insertion.symbol : Insertion -> Char
  | digit d => Nat.digitChar d
  | decimal mark => mark.toChar
  | openParen => '('
  | closeParen => ')'
  | operator op => op.symbol

theorem Insertion.symbol_ne_space (insertion : Insertion) : insertion.symbol ≠ ' ' := by
  cases insertion with
  | digit d =>
      rw [symbol]
      revert d
      decide
  | decimal mark => cases mark <;> decide
  | openParen => decide
  | closeParen => decide
  | operator op => cases op <;> decide

def Insertion.onKeypad (mark : DecimalMark) : List Insertion :=
  (List.finRange 10).map digit ++ [decimal mark, openParen, closeParen] ++
    Operator.all.map operator

namespace Entry

/-- The entry without the spaces at its end; other blanks stay. -/
def trimSpaces (entry : List Char) : List Char :=
  (entry.reverse.dropWhile fun c => c == ' ').reverse

/-- Whether an opening parenthesis needs a space before it: its last character that
is not blank ends an operand. -/
def endsOperand (entry : List Char) : Bool :=
  (entry.reverse.find? fun c => !Text.isBlank c).any fun c => c.isDigit || c == ')'

def insert (entry : List Char) : Insertion -> List Char
  | .openParen =>
      (if endsOperand entry then entry ++ [' '] else entry) ++ [Insertion.openParen.symbol]
  | .closeParen => trimSpaces entry ++ [Insertion.closeParen.symbol]
  | .operator op =>
      let before := trimSpaces entry
      (if before.isEmpty then [] else before ++ [' ']) ++ [op.symbol, ' ']
  | insertion => entry ++ [insertion.symbol]

/-- Takes away the last character and the spaces on both sides of it. -/
def deleteLast (entry : List Char) : List Char :=
  trimSpaces (trimSpaces entry).dropLast

end Entry
end RegionalCalculator
