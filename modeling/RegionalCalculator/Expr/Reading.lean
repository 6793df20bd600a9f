import RegionalCalculator.Expr.Basic
import RegionalCalculator.Token.Scan

/-!
# Reading an expression

A token stream is read by descent, from the operators that bind least to those
that bind most:

* a sum is a chain of products joined by `+` and `-`, from the left;
* a product is a chain of powers joined by `*` and `/`, from the left;
* a power is a signed operand, and possibly `^` and another power as its exponent;
* a signed operand is a minus sign and a signed operand, or a primary;
* a primary is a number, or a sum in parentheses.

Each power and each signed operand takes one level of a limited depth. The first
fault wins: a fault of the entry itself is raised as soon as the token in front of
it is taken.
-/

namespace RegionalCalculator

/-- How many powers and signed operands may be nested in one another. -/
def maxDepth : Nat :=
  256

/-- What is read off a stream, and the tokens that remain. Something is always
consumed, which is why the chains below come to an end. -/
structure Parsed (s : TokenStream) where
  expr : Expr
  rest : TokenStream
  shorter : rest.length < s.length

abbrev Reader :=
  (s : TokenStream) -> Except EntryError (Parsed s)

def Parsed.afterToken {position : Nat} {token : Token} {rest : TokenStream}
    (build : Expr -> Expr) (p : Parsed rest) : Parsed (.next position token rest) :=
  { expr := build p.expr
    rest := p.rest
    shorter := Nat.lt_succ_of_lt p.shorter }

namespace Reader

/-!
# Chains
-/

/-- Extends `left` by as many operands as follow, each joined by an operator of the
chain. -/
def chainFrom (joins : Operator -> Bool) (operand : Reader) {start : TokenStream}
    (left : Parsed start) : Except EntryError (Parsed start) :=
  match hnext : left.rest with
  | .next _ (.operator op) rest =>
      if joins op then do
        rest.ready
        let right <- operand rest
        chainFrom joins operand
          { expr := .binary op left.expr right.expr
            rest := right.rest
            shorter := by
              have hleft := left.shorter
              have hright := right.shorter
              rw [hnext] at hleft
              simp only [TokenStream.length] at hleft
              omega }
      else
        .ok left
  | _ => .ok left
termination_by left.rest.length
decreasing_by
  have hright := right.shorter
  rw [hnext]
  simp only [TokenStream.length]
  omega

def chain (joins : Operator -> Bool) (operand : Reader) : Reader :=
  fun s => do
    let first <- operand s
    chainFrom joins operand first

def sum (power : Reader) : Reader :=
  chain Operator.isAdditive (chain Operator.isMultiplicative power)

/-!
# Operands
-/

/-- What must follow a sum in parentheses: the closing one. The end of the entry puts
the blame on the opening one. -/
def closing (opening : Nat) {start : TokenStream} (inner : Parsed start) :
    Except EntryError (Parsed start) :=
  match hnext : inner.rest with
  | .next _ .closeParen rest => do
      rest.ready
      .ok { expr := inner.expr
            rest := rest
            shorter := by
              have hinner := inner.shorter
              rw [hnext] at hinner
              simp only [TokenStream.length] at hinner
              omega }
  | .next position _ _ => .error (.trailingInput position)
  | .finish _ => .error (.unmatchedParen opening)
  | .fault error => .error error

def primary (power : Reader) : Reader
  | .next _ (.number value) rest => do
      rest.ready
      .ok { expr := .number value
            rest := rest
            shorter := Nat.lt_succ_self _ }
  | .next position .openParen rest => do
      rest.ready
      let inner <- sum power rest
      closing position (inner.afterToken fun e => e)
  | .next position token _ => .error (.unexpectedToken token position)
  | .finish position => .error (.unexpectedToken .finish position)
  | .fault error => .error error

def exponent (power : Reader) {start : TokenStream} (base : Parsed start) :
    Except EntryError (Parsed start) :=
  match hnext : base.rest with
  | .next _ (.operator .power) rest => do
      rest.ready
      let raised <- power rest
      .ok { expr := .binary .power base.expr raised.expr
            rest := raised.rest
            shorter := by
              have hbase := base.shorter
              have hraised := raised.shorter
              rw [hnext] at hbase
              simp only [TokenStream.length] at hbase
              omega }
  | _ => .ok base

mutual

/-- A power, with so many levels left. -/
def power : Nat -> Reader
  | 0, _ => .error (.tooDeep maxDepth)
  | levels + 1, s => do
      let base <- signed levels s
      exponent (power levels) base

def signed : Nat -> Reader
  | 0, _ => .error (.tooDeep maxDepth)
  | levels + 1, .next _ (.operator .minus) rest => do
      rest.ready
      let operand <- signed levels rest
      .ok (operand.afterToken Expr.negate)
  | levels + 1, s => primary (power levels) s

end

end Reader

/-!
# Entries
-/

def Expr.ofTokens (s : TokenStream) : Except EntryError Expr :=
  match s with
  | .fault error => .error error
  | .finish _ => .error .emptyEntry
  | .next .. => do
      let read <- Reader.sum (Reader.power maxDepth) s
      match read.rest with
      | .finish _ => .ok read.expr
      | .next position .closeParen _ => .error (.unmatchedParen position)
      | .next position _ _ => .error (.trailingInput position)
      | .fault error => .error error

def Expr.ofText (f : NumberFormat) (text : List Char) : Except EntryError Expr :=
  Expr.ofTokens (TokenStream.ofText f text)

end RegionalCalculator
