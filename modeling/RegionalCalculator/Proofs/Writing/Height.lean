import RegionalCalculator.Format.Named
import RegionalCalculator.Proofs.Writing.Composition

/-!
# Heights of trees

The limit of the depth is a limit of the descent. A tree can be higher: the operators of a
chain are read in a loop and take no level, but each of them makes the tree one higher. Apart
from the chains the height stays below the limit. With them it has no bound, and walking the
tree of an accepted entry, to find its value or its text, may lead down as far as one likes.
-/

namespace RegionalCalculator

def Operator.isChained (op : Operator) : Bool :=
  op.isAdditive || op.isMultiplicative

namespace Expr

/-- How many operators of chains lie between the root and a number, at most. -/
def links : Expr -> Nat
  | number _ => 0
  | negate operand => operand.links
  | binary op left right => max left.links right.links + if op.isChained then 1 else 0

theorem links_binary {op : Operator} (h : op.isChained = true) (left right : Expr) :
    (binary op left right).links = max left.links right.links + 1 := by
  rw [links, if_pos h]

end Expr

/-!
# Height and depth
-/

def Phrase.ownLevels : Phrase -> Nat
  | sum => 1
  | product => 1
  | power => 1
  | signed => 1
  | primary => 0

theorem Derives.height_le {phrase : Phrase} {tokens : List Token} {e : Expr} {depth : Nat}
    (h : Derives phrase tokens e depth) : e.height + phrase.ownLevels <= depth + e.links := by
  have hchain : forall {op : Operator} {left right : Expr} {m n : Nat}, op.isChained = true ->
      left.height + 1 <= m + left.links -> right.height + 1 <= n + right.links ->
        (Expr.binary op left right).height + 1 <=
          max m n + (Expr.binary op left right).links := by
    intro op left right m n hop hleft hright
    rw [Expr.height, Expr.links_binary hop]
    omega
  induction h with
  | product _ ih => exact ih
  | add hop _ _ ihleft ihright =>
      apply hchain _ ihleft ihright
      rw [Operator.isChained, hop, Bool.true_or]
  | power _ ih => exact ih
  | multiply hop _ _ ihleft ihright =>
      apply hchain _ ihleft ihright
      rw [Operator.isChained, hop, Bool.or_true]
  | base _ ih => exact Nat.le_trans ih (Nat.add_le_add_right (Nat.le_succ _) _)
  | @raise _ _ base exponent m n _ _ ihbase ihexponent =>
      have hbase : base.height + 1 <= m + base.links := ihbase
      have hexponent : exponent.height + 1 <= n + exponent.links := ihexponent
      change max base.height exponent.height + 1 + 1 <=
        max m n + 1 + max base.links exponent.links
      omega
  | @negate _ operand m _ ih =>
      have hoperand : operand.height + 1 <= m + operand.links := ih
      change operand.height + 1 + 1 <= m + 1 + operand.links
      omega
  | @primary _ inner m _ ih =>
      have hinner : inner.height <= m + inner.links := ih
      change inner.height + 1 <= m + 1 + inner.links
      omega
  | number value => exact Nat.le_refl 0
  | parens _ ih => exact Nat.le_of_succ_le ih

namespace Expr

theorem height_lt_of_ofText {f : NumberFormat} {text : List Char} {e : Expr}
    (h : ofText f text = .ok e) : e.height < maxDepth + e.links := by
  rcases derives_of_ofTokens h with ⟨tokens, depth, position, _, hderives, hdepth⟩
  have hheight : e.height + 1 <= depth + e.links := hderives.height_le
  omega

/-!
# Entries with high trees
-/

def one : Figures :=
  { whole := ['1']
    decimals := none
    whole_ne_nil := List.cons_ne_nil _ _
    all_isDigit_whole := rfl
    all_isDigit_decimals := rfl }

variable {f : NumberFormat}

theorem operand_one (f : NumberFormat) : Operand f ['1'] (.number one.value) 1 := by
  have hfree : forall c, c ∈ ['1'] -> f.isDecimal c = false := by
    intro c hc
    rw [List.mem_singleton.mp hc]
    exact f.isDecimal_of_isDigit rfl
  have hlaid : one.LaidOut f ['1'] := Figures.LaidOut.unmarked (Grouped.last '1') rfl hfree
  exact ⟨_, hlaid.makes false, Derives.primary (Derives.number one.value)⟩

def plusOnes (text : List Char) : Nat -> List Char
  | 0 => text
  | n + 1 => plusOnes text n ++ ['+', '1']

theorem Reads.plusOnes {text : List Char} {e : Expr} {depth : Nat} (h : Reads f text e depth)
    (hdepth : 2 <= depth) (n : Nat) :
    exists e', Reads f (Expr.plusOnes text n) e' depth ∧ e'.height = e.height + n ∧
      e'.links = e.links + n := by
  induction n with
  | zero => exact ⟨e, h, rfl, rfl⟩
  | succ n ih =>
      rcases ih with ⟨left, hleft, hheight, hlinks⟩
      rcases hleft.exists_makes with ⟨tokens, hmakes, hderives⟩
      rcases operand_one f with ⟨others, hone, hnumber⟩
      refine ⟨.binary .plus left (.number one.value), ?_, ?_, ?_⟩
      · have hplus : Operator.plus.isAdditive = true := rfl
        have hsum := Derives.add hplus hderives (Derives.power (Derives.base hnumber))
        rw [Nat.max_eq_left hdepth] at hsum
        exact reads_of_makes (hmakes.join .plus hone) hsum
      · rw [height, height, Nat.max_eq_left (Nat.zero_le _), hheight, Nat.add_assoc]
      · rw [links_binary rfl, links, Nat.max_eq_left (Nat.zero_le _), hlinks, Nat.add_assoc]

def minusesOne : Nat -> List Char
  | 0 => [' ', '1']
  | n + 1 => '-' :: minusesOne n

theorem startsNumber_minusesOne (f : NumberFormat) (n : Nat) (rest : List Char) :
    Scan.startsNumber f (minusesOne n ++ rest) = false := by
  cases n with
  | zero => exact Scan.startsNumber_blank f _ rfl
  | succ n => exact Scan.startsNumber_of_belongs_eq_false _ (f.belongs_of_ofChar? rfl)

theorem exists_operand_minusesOne (f : NumberFormat) (n : Nat) :
    exists e, Operand f (minusesOne n) e (n + 1) ∧ e.height = n ∧ e.links = 0 := by
  induction n with
  | zero =>
      rcases operand_one f with ⟨tokens, hmakes, hderives⟩
      exact ⟨_, ⟨tokens, hmakes.behindBlanks ⟨[' '], rfl⟩, hderives⟩, rfl, rfl⟩
  | succ n ih =>
      rcases ih with ⟨e, hoperand, hheight, hlinks⟩
      exact ⟨.negate e, hoperand.negate (startsNumber_minusesOne f n), congrArg Nat.succ hheight,
        hlinks⟩

/-- With one operator `^` behind them the minus signs fill all the levels, and the tree is as
high as a tree without chains can be. -/
theorem exists_reads_maxDepth (f : NumberFormat) :
    exists text e, Reads f text e maxDepth ∧ e.height + 1 = maxDepth ∧ e.links = 0 := by
  rcases exists_operand_minusesOne f 254 with ⟨e, hoperand, hheight, hlinks⟩
  refine ⟨_, _, hoperand.join (operand_one f) .power ⟨[], rfl⟩ ⟨[], rfl⟩, ?_, ?_⟩
  · rw [height, height, hheight]
    rfl
  · have hpower : (binary .power e (.number one.value)).links = max e.links 0 := rfl
    rw [hpower, hlinks]
    rfl

/-!
# Main statement
-/

/-- Apart from the links of its chains, the tree of an accepted entry is lower than the limit of
the depth. In every format and for every number of links there is an entry whose tree is just
as high as this allows, so that heights have no bound. -/
theorem height_of_accepted (f : NumberFormat) :
    (forall text e, ofText f text = .ok e -> e.height < maxDepth + e.links) ∧
      forall n, exists text e,
        ofText f text = .ok e ∧ e.links = n ∧ e.height + 1 = maxDepth + n := by
  refine ⟨fun text e => height_lt_of_ofText, fun n => ?_⟩
  rcases exists_reads_maxDepth f with ⟨text, e, hreads, hheight, hlinks⟩
  rcases hreads.plusOnes (by decide) n with ⟨e', hreads', hheight', hlinks'⟩
  refine ⟨plusOnes text n, e', hreads'.ofText_eq, ?_, ?_⟩
  · rw [hlinks', hlinks, Nat.zero_add]
  · rw [hheight', Nat.add_right_comm, hheight]

theorem height_of_accepted_sum :
    let e : Expr := .negate (.binary .plus
      (.binary .minus (.number (Number.ofMagnitudeBits 0x4000000000000000))
        (.number (Number.ofMagnitudeBits 0x4008000000000000)))
      (.number (Number.ofMagnitudeBits 0x4010000000000000)))
    ofText .standard "-(2-3+4)".toList = .ok e ∧ e.height < maxDepth + e.links ∧
      e.height = 3 ∧ e.links = 2 := by
  intro e
  have h : ofText .standard "-(2-3+4)".toList = .ok e := by
    decide +kernel
  exact ⟨h, (height_of_accepted .standard).left _ _ h, rfl, rfl⟩

/-- A sum of 258 ones is accepted, and its tree is higher than the limit of the depth. -/
theorem height_of_ones :
    exists e, ofText .standard (plusOnes ['1'] 257) = .ok e ∧ maxDepth < e.height := by
  rcases (operand_one .standard).reads.plusOnes (Nat.le_refl 2) 257 with ⟨e, hreads, hheight, _⟩
  refine ⟨e, hreads.ofText_eq.trans (if_pos (by decide)), ?_⟩
  rw [hheight]
  decide

end Expr
end RegionalCalculator
