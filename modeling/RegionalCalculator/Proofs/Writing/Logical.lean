import RegionalCalculator.Proofs.Reading.Grammar
import RegionalCalculator.Proofs.Writing.Figures

/-!
# Writing an expression

A logical expression is what one means before choosing a format: numbers by their
digits, negations, operations, and parentheses of one's own. It is written with
parentheses around every operation and every negated operand, and single spaces
around an operator.

Whatever the format and wherever digits are grouped, the text is read as the
expression that was meant, unless it is nested too deep; and its depth is settled
before any format is chosen.
-/

namespace RegionalCalculator

/-!
# Logical expressions
-/

inductive Logical where
  | number (figures : Figures)
  | negate (operand : Logical)
  | binary (op : Operator) (left right : Logical)
  | group (inner : Logical)

def Operator.joinedDepth : Operator -> Nat -> Nat -> Nat
  | power, m, n => max m (n + 1) + 1
  | _, m, n => max (m + 1) (n + 1)

namespace Logical

def tree : Logical -> Expr
  | number figures => .number figures.value
  | negate operand => .negate operand.tree
  | binary op left right => .binary op left.tree right.tree
  | group inner => inner.tree

def tokens : Logical -> List Token
  | number figures => [.number figures.value]
  | negate operand => .operator .minus :: .openParen :: (operand.tokens ++ [.closeParen])
  | binary op left right =>
      .openParen :: ((left.tokens ++ .operator op :: right.tokens) ++ [.closeParen])
  | group inner => .openParen :: (inner.tokens ++ [.closeParen])

/-- The texts that write the expression in a format. Every number in it may have its
digits grouped in its own way. -/
inductive Written (f : NumberFormat) : Logical -> List Char -> Prop where
  | number {figures : Figures} {text : List Char} :
      figures.Written f text ->
      Written f (.number figures) text
  | negate {operand : Logical} {text : List Char} :
      Written f operand text ->
      Written f (.negate operand) ('-' :: '(' :: (text ++ [')']))
  | binary {left right : Logical} {front back : List Char} (op : Operator) :
      Written f left front ->
      Written f right back ->
      Written f (.binary op left right)
        ('(' :: (front ++ ' ' :: op.symbol :: ' ' :: (back ++ [')'])))
  | group {inner : Logical} {text : List Char} :
      Written f inner text ->
      Written f (.group inner) ('(' :: (text ++ [')']))

/-!
# Depth
-/

/-- The depth of the descent through the expression where it stands as an operand. -/
def depth : Logical -> Nat
  | number _ => 1
  | negate operand => operand.depth + 3
  | binary op left right => op.joinedDepth left.depth right.depth + 1
  | group inner => inner.depth + 2

theorem derives_sum_of_signed {tokens : List Token} {e : Expr} {m : Nat}
    (h : Derives .signed tokens e m) : Derives .sum tokens e (m + 1) :=
  Derives.product (Derives.power (Derives.base h))

theorem derives_binary {front back : List Token} {left right : Expr} {m n : Nat}
    (op : Operator) (hleft : Derives .signed front left m)
    (hright : Derives .signed back right n) :
    Derives .sum (front ++ .operator op :: back) (.binary op left right)
      (op.joinedDepth m n) := by
  have hadd : op.isAdditive = true ->
      Derives .sum (front ++ .operator op :: back) (.binary op left right)
        (max (m + 1) (n + 1)) := by
    intro hop
    apply Derives.add hop
    · exact derives_sum_of_signed hleft
    · exact Derives.power (Derives.base hright)
  have hmultiply : op.isMultiplicative = true ->
      Derives .sum (front ++ .operator op :: back) (.binary op left right)
        (max (m + 1) (n + 1)) := by
    intro hop
    apply Derives.product
    apply Derives.multiply hop
    · exact Derives.power (Derives.base hleft)
    · exact Derives.base hright
  cases op with
  | plus => exact hadd rfl
  | minus => exact hadd rfl
  | times => exact hmultiply rfl
  | divide => exact hmultiply rfl
  | power => exact Derives.product (Derives.power (Derives.raise hleft (Derives.base hright)))

theorem derives (x : Logical) : Derives .signed x.tokens x.tree x.depth := by
  induction x with
  | number figures => exact Derives.primary (Derives.number figures.value)
  | negate operand ih =>
      apply Derives.negate
      apply Derives.primary
      exact Derives.parens (derives_sum_of_signed ih)
  | binary op left right ihleft ihright =>
      apply Derives.primary
      exact Derives.parens (derives_binary op ihleft ihright)
  | group inner ih =>
      apply Derives.primary
      exact Derives.parens (derives_sum_of_signed ih)

/-!
# Texts
-/

variable {f : NumberFormat} {text : List Char}

theorem Written.makes {x : Logical} (h : Written f x text) : Scan.Makes f text x.tokens := by
  induction h with
  | number hfigures => exact hfigures.laidOut.makes false
  | negate _ ih =>
      apply ih.parens.minus
      intro rest
      exact Scan.startsNumber_of_belongs_eq_false _ (f.belongs_of_ofChar? rfl)
  | binary op _ _ ihleft ihright =>
      have hboth := (ihleft.binary op ihright).parens
      rw [List.append_assoc] at hboth
      exact hboth
  | group _ ih => exact ih.parens

theorem exists_written (f : NumberFormat) (x : Logical) : exists text, Written f x text := by
  induction x with
  | number figures =>
      rcases figures.exists_written f with ⟨text, htext⟩
      exact ⟨text, Written.number htext⟩
  | negate operand ih =>
      rcases ih with ⟨text, htext⟩
      exact ⟨_, Written.negate htext⟩
  | binary op left right ihleft ihright =>
      rcases ihleft with ⟨front, hfront⟩
      rcases ihright with ⟨back, hback⟩
      exact ⟨_, Written.binary op hfront hback⟩
  | group inner ih =>
      rcases ih with ⟨text, htext⟩
      exact ⟨_, Written.group htext⟩

end Logical

/-- An expression can be written in every format. In whatever format it is written, with
the digits of its numbers grouped in any way, it is read as itself, and only its own depth
decides whether it is refused. -/
theorem Expr.ofText_written (f : NumberFormat) (x : Logical) :
    (exists text, x.Written f text) ∧
      forall text, x.Written f text ->
        Expr.ofText f text =
          if x.depth + 1 <= maxDepth then .ok x.tree else .error (.tooDeep maxDepth) := by
  constructor
  · exact x.exists_written f
  · intro text h
    rcases h.makes.ofText with ⟨position, hyields⟩
    exact Expr.ofTokens_of_derives hyields (Logical.derives_sum_of_signed x.derives)

theorem Expr.ofText_written_in_two_formats :
    Expr.ofText { decimal := .point, group := some .point } "(1.234. ^ -(5.67))".toList =
        .ok (.binary .power (.number (Number.ofMagnitudeBits 0x4093480000000000))
          (.negate (.number (Number.ofMagnitudeBits 0x4016AE147AE147AE)))) ∧
      Expr.ofText { decimal := .comma, group := some .space } "(1\u202f234 ^ -(5,67))".toList =
        .ok (.binary .power (.number (Number.ofMagnitudeBits 0x4093480000000000))
          (.negate (.number (Number.ofMagnitudeBits 0x4016AE147AE147AE)))) := by
  have hbase : forall {f : NumberFormat} {mark : Char}, f.isGroup mark = true ->
      (Figures.mk ['1', '2', '3', '4'] none (by decide) rfl rfl).Written f
        ('1' :: mark :: ['2', '3', '4'] ++ if f.isAmbiguous then [f.decimal.toChar] else []) := by
    intro f mark hmark
    exact ⟨_, Grouped.mark '1' hmark (Grouped.plain '2' ['3', '4']), rfl⟩
  have hexponent : forall f : NumberFormat,
      (Figures.mk ['5'] (some ['6', '7']) (by decide) rfl rfl).Written f
        ['5', f.decimal.toChar, '6', '7'] := by
    intro f
    exact ⟨_, Grouped.last '5', rfl⟩
  have hwritten := fun (f : NumberFormat) (mark : Char) (hmark : f.isGroup mark = true) =>
    Logical.Written.binary .power (Logical.Written.number (hbase hmark))
      (Logical.Written.negate (Logical.Written.number (hexponent f)))
  constructor
  · have hread := (Expr.ofText_written { decimal := .point, group := some .point } _).right _
      (hwritten _ '.' rfl)
    refine Eq.trans (congrArg _ ?_) (hread.trans ?_)
    · decide
    · decide +kernel
  · have hread := (Expr.ofText_written { decimal := .comma, group := some .space } _).right _
      (hwritten _ '\u202f' rfl)
    refine Eq.trans (congrArg _ ?_) (hread.trans ?_)
    · decide
    · decide +kernel

end RegionalCalculator
