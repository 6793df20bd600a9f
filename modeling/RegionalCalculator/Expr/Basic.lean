import RegionalCalculator.Token.Basic

/-!
# Expressions

An expression is a tree of numbers, negations and the five operations. Its value
is computed in binary64, where nothing fails: a division by zero gives an infinity
or a NaN. Parentheses leave no trace in the tree; the text of a tree puts them
around every operation.
-/

namespace RegionalCalculator

inductive Expr where
  | number (value : Float)
  | negate (operand : Expr)
  | binary (op : Operator) (left right : Expr)
deriving DecidableEq

def Operator.apply : Operator -> Float -> Float -> Float
  | plus, a, b => a + b
  | minus, a, b => a - b
  | times, a, b => a * b
  | divide, a, b => a / b
  | power, a, b => Float.pow a b

namespace Expr

def eval : Expr -> Float
  | number value => value
  | negate operand => -operand.eval
  | binary op left right => op.apply left.eval right.eval

def height : Expr -> Nat
  | number _ => 0
  | negate operand => operand.height + 1
  | binary _ left right => max left.height right.height + 1

/-!
# Text of a tree

The text is laid down in front of a suffix, so that the work grows with the text
and not with the height of the tree.
-/

def renderAppend : Expr -> List Char -> List Char
  | number value, suffix => Number.render value ++ suffix
  | negate operand, suffix => '-' :: operand.renderAppend suffix
  | binary op left right, suffix =>
      '(' :: left.renderAppend (op.symbol :: right.renderAppend (')' :: suffix))

/-- Every operation stands in parentheses, without spaces. -/
def render (e : Expr) : List Char :=
  e.renderAppend []

theorem renderAppend_append (e : Expr) (suffix tail : List Char) :
    e.renderAppend (suffix ++ tail) = e.renderAppend suffix ++ tail := by
  induction e generalizing suffix with
  | number value => simp [renderAppend]
  | negate operand ih => simp [renderAppend, ih]
  | binary op left right ihl ihr =>
      simp only [renderAppend, List.cons_append]
      rw [<- ihl, List.cons_append, <- ihr, List.cons_append]

theorem renderAppend_eq (e : Expr) (suffix : List Char) :
    e.renderAppend suffix = e.render ++ suffix := by
  rw [render, <- renderAppend_append, List.nil_append]

theorem render_number (value : Float) : (number value).render = Number.render value := by
  rw [render, renderAppend, List.append_nil]

theorem render_negate (operand : Expr) : (negate operand).render = '-' :: operand.render :=
  rfl

theorem render_binary (op : Operator) (left right : Expr) :
    (binary op left right).render =
      '(' :: (left.render ++ op.symbol :: (right.render ++ [')'])) := by
  rw [render, renderAppend, renderAppend_eq, renderAppend_eq]

end Expr
end RegionalCalculator
