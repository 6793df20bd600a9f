import RegionalCalculator.Proofs.Writing.Display
import RegionalCalculator.Proofs.Writing.Logical

/-!
# Reading the text of a tree

The text of a tree has parentheses around every operation and none around a
negation, so that a minus sign may stand directly before the digits of a number.
There the reader takes it for the sign of this number. It changes nothing else: the
text of a tree is read as the same tree with these signs absorbed, and the value of
the tree stays what it was.
-/

namespace RegionalCalculator
namespace Expr

/-!
# Absorbing signs
-/

def negateAbsorbing : Expr -> Expr
  | number value =>
      if Number.isNegative value then .negate (number value) else number (-value)
  | e => .negate e

/-- The tree in which, from the bottom up, every negated number without a sign has
become a number with one. -/
def absorbSigns : Expr -> Expr
  | number value => number value
  | negate operand => operand.absorbSigns.negateAbsorbing
  | binary op left right => binary op left.absorbSigns right.absorbSigns

def AllFinite : Expr -> Prop
  | number value => Number.IsFinite value
  | negate operand => operand.AllFinite
  | binary _ left right => left.AllFinite ∧ right.AllFinite

theorem eval_negateAbsorbing (e : Expr) : e.negateAbsorbing.eval = -e.eval := by
  cases e with
  | number value =>
      rw [negateAbsorbing]
      split
      · rfl
      · rfl
  | negate operand => rfl
  | binary op left right => rfl

theorem eval_absorbSigns (e : Expr) : e.absorbSigns.eval = e.eval := by
  induction e with
  | number value => rfl
  | negate operand ih => rw [absorbSigns, eval_negateAbsorbing, ih, eval]
  | binary op left right ihleft ihright => rw [absorbSigns, eval, ihleft, ihright, eval]

def isUnsigned : Expr -> Bool
  | number value => !Number.isNegative value
  | _ => false

theorem exists_of_isUnsigned {e : Expr} (h : e.isUnsigned = true) :
    exists value, e = number value ∧ Number.isNegative value = false := by
  cases e with
  | number value => exact ⟨value, rfl, Bool.not_eq_true' _ |>.mp h⟩
  | negate operand => cases h
  | binary op left right => cases h

theorem negateAbsorbing_of_isUnsigned_eq_false {e : Expr} (h : e.isUnsigned = false) :
    e.negateAbsorbing = .negate e := by
  cases e with
  | number value =>
      rw [negateAbsorbing, if_pos]
      exact Bool.not_eq_false' _ |>.mp h
  | negate operand => rfl
  | binary op left right => rfl

theorem isUnsigned_negateAbsorbing {e : Expr} (h : e.AllFinite) :
    e.negateAbsorbing.isUnsigned = false := by
  cases e with
  | number value =>
      cases hsign : Number.isNegative value with
      | true =>
          rw [negateAbsorbing, if_pos hsign]
          rfl
      | false =>
          rw [negateAbsorbing, hsign, if_neg Bool.false_ne_true, isUnsigned,
            Number.isNegative_neg (Nat.le_of_lt h), hsign]
          rfl
  | negate operand => rfl
  | binary op left right => rfl

theorem allFinite_negateAbsorbing {e : Expr} (h : e.AllFinite) : e.negateAbsorbing.AllFinite := by
  cases e with
  | number value =>
      rw [negateAbsorbing]
      split
      · exact h
      · exact Number.isFinite_neg h
  | negate operand => exact h
  | binary op left right => exact h

theorem allFinite_absorbSigns {e : Expr} (h : e.AllFinite) : e.absorbSigns.AllFinite := by
  induction e with
  | number value => exact h
  | negate operand ih => exact allFinite_negateAbsorbing (ih h)
  | binary op left right ihleft ihright => exact ⟨ihleft h.left, ihright h.right⟩

theorem isUnsigned_absorbSigns {e : Expr} (h : e.AllFinite) (hsign : e.isUnsigned = false) :
    e.absorbSigns.isUnsigned = false := by
  cases e with
  | number value => exact hsign
  | negate operand => exact isUnsigned_negateAbsorbing (allFinite_absorbSigns h)
  | binary op left right => rfl

/-!
# Tokens and depth of a tree
-/

def tokens : Expr -> List Token
  | number value => [.number value]
  | negate operand => .operator .minus :: operand.tokens
  | binary op left right =>
      .openParen :: ((left.tokens ++ .operator op :: right.tokens) ++ [.closeParen])

def depth : Expr -> Nat
  | number _ => 1
  | negate operand => operand.depth + 1
  | binary op left right => op.joinedDepth left.depth right.depth + 1

theorem derives (e : Expr) : Derives .signed e.tokens e e.depth := by
  induction e with
  | number value => exact Derives.primary (Derives.number value)
  | negate operand ih => exact Derives.negate ih
  | binary op left right ihleft ihright =>
      apply Derives.primary
      exact Derives.parens (Logical.derives_binary op ihleft ihright)

/-!
# The text of a tree
-/

variable {f : NumberFormat}

theorem makes_render_number (hf : f.decimal = .point) {value : Float}
    (h : Number.IsFinite value) :
    Scan.Makes f (number value).render (number value).tokens := by
  have hmakes := Number.makes_withMark_render f h
  rw [NumberFormat.withMark_of_point hf] at hmakes
  rw [render_number]
  exact hmakes

theorem startsNumber_render {e : Expr} (h : e.AllFinite) (hsign : e.isUnsigned = false)
    (rest : List Char) : Scan.startsNumber f (e.render ++ rest) = false := by
  have hminus : forall text, Scan.startsNumber f ('-' :: text) = false := fun text =>
    Scan.startsNumber_of_belongs_eq_false text (f.belongs_of_ofChar? rfl)
  cases e with
  | number value =>
      have hnegative : Number.isNegative value = true := Bool.not_eq_false' _ |>.mp hsign
      rw [render_number, Number.render_eq h, hnegative]
      exact hminus _
  | negate operand => exact hminus _
  | binary op left right =>
      rw [render_binary]
      exact Scan.startsNumber_of_belongs_eq_false _ (f.belongs_of_ofChar? rfl)

theorem makes_render (hf : f.decimal = .point) {e : Expr} (h : e.AllFinite) :
    Scan.Makes f e.render e.absorbSigns.tokens := by
  induction e with
  | number value => exact makes_render_number hf h
  | negate operand ih =>
      cases hsign : operand.isUnsigned with
      | true =>
          rcases exists_of_isUnsigned hsign with ⟨value, hvalue, hunsigned⟩
          subst hvalue
          have hfinite : Number.IsFinite (-value) := Number.isFinite_neg h
          have hmakes := makes_render_number hf hfinite
          rw [render_number, Number.render_neg h hunsigned] at hmakes
          rw [render_negate, render_number, absorbSigns, absorbSigns, negateAbsorbing, hunsigned,
            if_neg Bool.false_ne_true]
          exact hmakes
      | false =>
          have hoperand : operand.AllFinite := h
          have habsorbed := isUnsigned_absorbSigns hoperand hsign
          rw [render_negate, absorbSigns, negateAbsorbing_of_isUnsigned_eq_false habsorbed]
          exact (ih hoperand).minus (startsNumber_render hoperand hsign)
  | binary op left right ihleft ihright =>
      have hboth := ((ihleft h.left).join op (ihright h.right)).parens
      rw [List.append_assoc] at hboth
      rw [render_binary]
      exact hboth

/-- The text of a tree of finite numbers, read under any format with a point for the
decimals, gives the tree with its signs absorbed, unless that is nested too deep; and the
two trees have the same value. -/
theorem ofText_render {f : NumberFormat} (hf : f.decimal = .point) {e : Expr}
    (h : e.AllFinite) :
    ofText f e.render =
        (if e.absorbSigns.depth + 1 <= maxDepth then .ok e.absorbSigns
          else .error (.tooDeep maxDepth)) ∧
      e.absorbSigns.eval = e.eval := by
  constructor
  · rcases (makes_render hf h).ofText with ⟨position, hyields⟩
    exact ofTokens_of_derives hyields (Logical.derives_sum_of_signed e.absorbSigns.derives)
  · exact e.eval_absorbSigns

theorem ofText_render_signs :
    ofText { decimal := .point, group := some .point } "(-2^--3)".toList =
      .ok (.binary .power (.number (-Number.ofMagnitudeBits 0x4000000000000000))
        (.negate (.number (-Number.ofMagnitudeBits 0x4008000000000000)))) := by
  let e : Expr :=
    .binary .power (.negate (.number (Number.ofMagnitudeBits 0x4000000000000000)))
      (.negate (.negate (.number (Number.ofMagnitudeBits 0x4008000000000000))))
  have hfinite : e.AllFinite :=
    ⟨(by decide +kernel : Number.IsFinite (Number.ofMagnitudeBits 0x4000000000000000)),
      (by decide +kernel : Number.IsFinite (Number.ofMagnitudeBits 0x4008000000000000))⟩
  have hrender : e.render = "(-2^--3)".toList := by
    decide +kernel
  have habsorbed : e.absorbSigns =
      .binary .power (.number (-Number.ofMagnitudeBits 0x4000000000000000))
        (.negate (.number (-Number.ofMagnitudeBits 0x4008000000000000))) := by
    decide +kernel
  have hread := (ofText_render (f := { decimal := .point, group := some .point }) rfl hfinite).left
  rw [hrender, habsorbed] at hread
  exact hread.trans (if_pos (by decide))

end Expr
end RegionalCalculator
