import Mathlib.Control.Monad.Basic
import RegionalCalculator.Proofs.Reading.Outcome
import RegionalCalculator.Proofs.Reading.Stream

/-!
# The grammar of expressions

Expressions are written by this grammar, where the star repeats what stands before
it any number of times:

* a sum is `product (('+' | '-') product)*`;
* a product is `power (('*' | '/') power)*`;
* a power is `signed`, or `signed '^' power`;
* a signed operand is `'-' signed`, or a primary;
* a primary is a number, or `'(' sum ')'`.

A derivation fixes the tree and the depth of the descent. Reading accepts exactly
the token sequences that a sum derives within the limit of the depth, with the tree
of the derivation; a sum that is nested deeper is refused for its depth. As a
consequence no token sequence has two trees.
-/

namespace RegionalCalculator

open TokenStream

inductive Phrase where
  | sum
  | product
  | power
  | signed
  | primary

/-- The phrase derives the tokens, with this tree and this depth of descent. Chains
associate to the left and are as deep as their deepest member; every power and every
signed operand adds one level. -/
inductive Derives : Phrase -> List Token -> Expr -> Nat -> Prop where
  | product {tokens : List Token} {e : Expr} {depth : Nat} :
      Derives .product tokens e depth ->
      Derives .sum tokens e depth
  | add {op : Operator} {front back : List Token} {left right : Expr} {m n : Nat} :
      op.isAdditive = true ->
      Derives .sum front left m ->
      Derives .product back right n ->
      Derives .sum (front ++ .operator op :: back) (.binary op left right) (max m n)
  | power {tokens : List Token} {e : Expr} {depth : Nat} :
      Derives .power tokens e depth ->
      Derives .product tokens e depth
  | multiply {op : Operator} {front back : List Token} {left right : Expr} {m n : Nat} :
      op.isMultiplicative = true ->
      Derives .product front left m ->
      Derives .power back right n ->
      Derives .product (front ++ .operator op :: back) (.binary op left right) (max m n)
  | base {tokens : List Token} {e : Expr} {depth : Nat} :
      Derives .signed tokens e depth ->
      Derives .power tokens e (depth + 1)
  | raise {front back : List Token} {base exponent : Expr} {m n : Nat} :
      Derives .signed front base m ->
      Derives .power back exponent n ->
      Derives .power (front ++ .operator .power :: back) (.binary .power base exponent)
        (max m n + 1)
  | negate {tokens : List Token} {e : Expr} {depth : Nat} :
      Derives .signed tokens e depth ->
      Derives .signed (.operator .minus :: tokens) (.negate e) (depth + 1)
  | primary {tokens : List Token} {e : Expr} {depth : Nat} :
      Derives .primary tokens e depth ->
      Derives .signed tokens e (depth + 1)
  | number (value : Float) :
      Derives .primary [.number value] (.number value) 0
  | parens {tokens : List Token} {e : Expr} {depth : Nat} :
      Derives .sum tokens e depth ->
      Derives .primary (.openParen :: (tokens ++ [.closeParen])) e depth

namespace Phrase

def reader (levels : Nat) : Phrase -> Reader
  | sum => Reader.sum (Reader.power levels)
  | product => Reader.chain Operator.isMultiplicative (Reader.power levels)
  | power => Reader.power levels
  | signed => Reader.signed levels
  | primary => Reader.primary (Reader.power levels)

/-!
# Soundness

What is read is derived, within the levels that were left.
-/

def Sound (phrase : Phrase) (levels : Nat) (r : Reader) : Prop :=
  forall s e rest, r.outcome s = .ok (e, rest) ->
    exists tokens depth,
      Yields s tokens rest ∧ Derives phrase tokens e depth ∧ depth <= levels

theorem Sound.endsOnce {phrase : Phrase} {levels : Nat} {r : Reader}
    (hsound : Sound phrase levels r) {s : TokenStream} {read : Expr × TokenStream}
    (h : r.outcome s = .ok read) (hends : s.EndsOnce) : read.2.EndsOnce := by
  rcases hsound s read.1 read.2 h with ⟨_, _, hyields, _, _⟩
  exact hyields.endsOnce hends

theorem sound_chain {phrase member : Phrase} {levels : Nat} {joins : Operator -> Bool}
    {operand : Reader} (hoperand : Sound member levels operand)
    (hfirst : forall {tokens e depth},
      Derives member tokens e depth -> Derives phrase tokens e depth)
    (hjoin : forall {op front back left right m n}, joins op = true ->
      Derives phrase front left m -> Derives member back right n ->
      Derives phrase (front ++ .operator op :: back) (.binary op left right) (max m n)) :
    Sound phrase levels (Reader.chain joins operand) := by
  have hextend : forall left rest, forall s front m e last,
      Yields s front rest -> Derives phrase front left m -> m <= levels ->
      Reader.extend joins operand left rest = .ok (e, last) ->
      exists tokens depth,
        Yields s tokens last ∧ Derives phrase tokens e depth ∧ depth <= levels := by
    refine Reader.extend_induction joins operand ?_ ?_
    · intro left rest hstop s front m e last hyields hderives hlevels h
      rw [Reader.extend_stop left hstop] at h
      cases h
      exact ⟨front, m, hyields, hderives, hlevels⟩
    · intro left position op rest hjoins ih s front m e last hyields hderives hlevels h
      rw [Reader.extend_next left hjoins] at h
      rcases exists_of_bind_eq_ok h with ⟨_, _, hrest⟩
      rcases exists_of_bind_eq_ok hrest with ⟨right, hright, hlast⟩
      rcases hoperand rest right.1 right.2 hright with ⟨back, n, hback, hmember, hn⟩
      exact ih right.1 right.2 hright s (front ++ .operator op :: back) (max m n) e last
        (hyields.append (Yields.cons hback)) (hjoin hjoins hderives hmember)
        (Nat.max_le.mpr ⟨hlevels, hn⟩) hlast
  intro s e rest h
  rw [Reader.outcome_chain] at h
  rcases exists_of_bind_eq_ok h with ⟨first, hread, hlast⟩
  rcases hoperand s first.1 first.2 hread with ⟨tokens, depth, hyields, hderives, hlevels⟩
  exact hextend first.1 first.2 s tokens depth e rest hyields (hfirst hderives) hlevels hlast

theorem sound_sum {levels : Nat} {power : Reader} (h : Sound .power levels power) :
    Sound .sum levels (Reader.sum power) :=
  sound_chain (sound_chain h Derives.power Derives.multiply) Derives.product Derives.add

theorem sound_primary {levels : Nat} {power : Reader} (h : Sound .power levels power) :
    Sound .primary levels (Reader.primary power) := by
  intro s e rest hread
  cases s with
  | finish position => cases hread
  | fault error => cases hread
  | next position token after =>
      cases token with
      | number value =>
          rw [Reader.outcome_primary_number] at hread
          rcases exists_of_map_eq_ok hread with ⟨_, _, heq⟩
          cases heq
          exact ⟨_, 0, Yields.single position _ _, Derives.number value, Nat.zero_le _⟩
      | openParen =>
          rw [Reader.outcome_primary_openParen] at hread
          rcases exists_of_bind_eq_ok hread with ⟨_, _, hafter⟩
          rcases exists_of_bind_eq_ok hafter with ⟨inner, hinner, hclose⟩
          rcases sound_sum h _ _ _ hinner with ⟨tokens, depth, hyields, hderives, hlevels⟩
          rcases Reader.eq_of_close_eq_ok hclose with ⟨heq, closing, hnext⟩
          subst heq
          rw [hnext] at hyields
          exact ⟨_, depth, Yields.cons (hyields.append (Yields.single closing _ rest)),
            Derives.parens hderives, hlevels⟩
      | operator op => cases hread
      | closeParen => cases hread
      | finish => cases hread

theorem sound_power_and_signed (levels : Nat) :
    Sound .power levels (Reader.power levels) ∧ Sound .signed levels (Reader.signed levels) := by
  induction levels with
  | zero =>
      constructor
      · intro s e rest h
        rw [Reader.outcome_power_zero] at h
        cases h
      · intro s e rest h
        rw [Reader.outcome_signed_zero] at h
        cases h
  | succ levels ih =>
      rcases ih with ⟨hpower, hsigned⟩
      constructor
      · intro s e rest h
        rw [Reader.outcome_power_succ] at h
        rcases exists_of_bind_eq_ok h with ⟨base, hbase, hraise⟩
        rcases hsigned s base.1 base.2 hbase with ⟨front, m, hfront, hderives, hm⟩
        rcases Reader.raise_eq_ok hraise with
          ⟨_, he, hrest⟩ | ⟨position, after, raised, hnext, hraised, he⟩
        · subst he hrest
          exact ⟨front, m + 1, hfront, Derives.base hderives, Nat.succ_le_succ hm⟩
        · rcases hpower after raised rest hraised with ⟨back, n, hback, hexponent, hn⟩
          subst he
          rw [hnext] at hfront
          exact ⟨_, max m n + 1, hfront.append (Yields.cons hback),
            Derives.raise hderives hexponent, Nat.succ_le_succ (Nat.max_le.mpr ⟨hm, hn⟩)⟩
      · intro s e rest h
        by_cases hminus : exists position after, s = .next position (.operator .minus) after
        · rcases hminus with ⟨position, after, hnext⟩
          subst hnext
          rw [Reader.outcome_signed_minus] at h
          rcases exists_of_bind_eq_ok h with ⟨_, _, hafter⟩
          rcases exists_of_map_eq_ok hafter with ⟨operand, hoperand, heq⟩
          cases heq
          rcases hsigned after _ _ hoperand with ⟨tokens, depth, hyields, hderives, hdepth⟩
          exact ⟨_, depth + 1, Yields.cons hyields, Derives.negate hderives,
            Nat.succ_le_succ hdepth⟩
        · rw [Reader.outcome_signed_primary levels fun position after hnext =>
            hminus ⟨position, after, hnext⟩] at h
          rcases sound_primary hpower s e rest h with ⟨tokens, depth, hyields, hderives, hdepth⟩
          exact ⟨tokens, depth + 1, hyields, Derives.primary hderives, Nat.succ_le_succ hdepth⟩

/-!
# Completeness

What is derived is read, if there are levels enough, and otherwise refused for its
depth. A chain is left in the middle: its reader still has to look at what follows.
-/

def within {α : Type} (levels depth : Nat) (o : Except EntryError α) : Except EntryError α :=
  if depth <= levels then o else .error (.tooDeep maxDepth)

theorem within_of_le {α : Type} {levels depth : Nat} (o : Except EntryError α)
    (h : depth <= levels) : within levels depth o = o := by
  rw [within, if_pos h]

theorem within_zero {α : Type} (levels : Nat) (o : Except EntryError α) :
    within levels 0 o = o :=
  within_of_le o (Nat.zero_le levels)

theorem within_of_lt {α : Type} {levels depth : Nat} (o : Except EntryError α)
    (h : levels < depth) : within levels depth o = .error (.tooDeep maxDepth) := by
  rw [within, if_neg (Nat.not_le_of_lt h)]

theorem within_succ {α : Type} (levels depth : Nat) (o : Except EntryError α) :
    within (levels + 1) (depth + 1) o = within levels depth o := by
  simp [within]

theorem within_bind {α β : Type} (levels depth : Nat) (o : Except EntryError α)
    (f : α -> Except EntryError β) :
    (within levels depth o).bind f = within levels depth (o.bind f) := by
  by_cases h : depth <= levels
  · rw [within_of_le o h, within_of_le _ h]
  · rw [within_of_lt o (Nat.lt_of_not_le h), within_of_lt _ (Nat.lt_of_not_le h), Except.bind]

theorem within_map {α β : Type} (levels depth : Nat) (o : Except EntryError α) (f : α -> β) :
    (within levels depth o).map f = within levels depth (o.map f) := by
  by_cases h : depth <= levels
  · rw [within_of_le o h, within_of_le _ h]
  · rw [within_of_lt o (Nat.lt_of_not_le h), within_of_lt _ (Nat.lt_of_not_le h), Except.map]

theorem within_within {α : Type} (levels m n : Nat) (o : Except EntryError α) :
    within levels m (within levels n o) = within levels (max m n) o := by
  by_cases h : m <= levels
  · simp only [within, Nat.max_le, h, true_and, if_true]
  · simp only [within, Nat.max_le, h, false_and, if_false]

/-- Where the phrase cannot be drawn out beyond its end, chains apart. -/
def Ends : Phrase -> TokenStream -> Prop
  | sum, rest =>
      Reader.continues Operator.isMultiplicative rest = false ∧
        Reader.continues (· == .power) rest = false
  | product, rest => Reader.continues (· == .power) rest = false
  | power, rest => Reader.continues (· == .power) rest = false
  | signed, _ => True
  | primary, _ => True

def goOn (levels : Nat) : Phrase -> Expr -> TokenStream -> Outcome
  | sum, e, rest => Reader.extend Operator.isAdditive (product.reader levels) e rest
  | product, e, rest => Reader.extend Operator.isMultiplicative (power.reader levels) e rest
  | power, e, rest => .ok (e, rest)
  | signed, e, rest => .ok (e, rest)
  | primary, e, rest => .ok (e, rest)

theorem ends_sum_of_isAdditive {op : Operator} (h : op.isAdditive = true) (position : Nat)
    (rest : TokenStream) : Ends sum (.next position (.operator op) rest) := by
  cases op with
  | plus => exact ⟨rfl, rfl⟩
  | minus => exact ⟨rfl, rfl⟩
  | times => cases h
  | divide => cases h
  | power => cases h

theorem ends_product_of_isMultiplicative {op : Operator} (h : op.isMultiplicative = true)
    (position : Nat) (rest : TokenStream) :
    Ends product (.next position (.operator op) rest) := by
  cases op with
  | plus => cases h
  | minus => cases h
  | times => rfl
  | divide => rfl
  | power => cases h

theorem outcome_chain_first {joins : Operator -> Bool} {operand : Reader} {levels depth : Nat}
    {s rest : TokenStream} {e : Expr}
    (h : operand.outcome s = within levels depth (.ok (e, rest))) :
    (Reader.chain joins operand).outcome s =
      within levels depth (Reader.extend joins operand e rest) := by
  rw [Reader.outcome_chain, h, within_bind]
  rfl

theorem outcome_chain_join {joins : Operator -> Bool} {operand : Reader}
    {levels m n position : Nat} {op : Operator} {s after rest : TokenStream}
    {left right : Expr} (hjoins : joins op = true)
    (hfront : (Reader.chain joins operand).outcome s =
      within levels m (Reader.extend joins operand left (.next position (.operator op) after)))
    (hready : after.ready = .ok ())
    (hback : operand.outcome after = within levels n (.ok (right, rest))) :
    (Reader.chain joins operand).outcome s =
      within levels (max m n) (Reader.extend joins operand (.binary op left right) rest) := by
  rw [hfront, Reader.extend_next left hjoins, hready, Except.bind, hback, within_bind,
    within_within]
  rfl

theorem complete {phrase : Phrase} {tokens : List Token} {e : Expr} {depth : Nat}
    (h : Derives phrase tokens e depth) :
    forall levels s rest, Yields s tokens rest -> rest.ready = .ok () -> phrase.Ends rest ->
      (phrase.reader levels).outcome s = within levels depth (phrase.goOn levels e rest) := by
  induction h with
  | product _ ih =>
      intro levels s rest hyields hready hends
      have hproduct := ih levels s rest hyields hready hends.right
      rw [goOn, Reader.extend_stop _ hends.left] at hproduct
      exact outcome_chain_first hproduct
  | add hop _ _ ihfront ihback =>
      intro levels s rest hyields hready hends
      rcases hyields.split with ⟨middle, hfront, hjoin⟩
      cases hjoin with
      | cons hback =>
          have hsum := ihfront levels s _ hfront rfl (ends_sum_of_isAdditive hop _ _)
          have hproduct := ihback levels _ rest hback hready hends.right
          rw [goOn, Reader.extend_stop _ hends.left] at hproduct
          exact outcome_chain_join hop hsum (hback.ready hready) hproduct
  | power _ ih =>
      intro levels s rest hyields hready hends
      exact outcome_chain_first (ih levels s rest hyields hready hends)
  | multiply hop _ _ ihfront ihback =>
      intro levels s rest hyields hready hends
      rcases hyields.split with ⟨middle, hfront, hjoin⟩
      cases hjoin with
      | cons hback =>
          have hproduct := ihfront levels s _ hfront rfl (ends_product_of_isMultiplicative hop _ _)
          have hpower := ihback levels _ rest hback hready hends
          exact outcome_chain_join hop hproduct (hback.ready hready) hpower
  | base _ ih =>
      intro levels s rest hyields hready hends
      cases levels with
      | zero => exact Reader.outcome_power_zero s
      | succ levels =>
          have hbase := ih levels s rest hyields hready True.intro
          rw [reader, goOn] at hbase
          rw [within_succ, reader, Reader.outcome_power_succ, hbase, within_bind, Except.bind,
            Reader.raise_stop _ _ hends, goOn]
  | raise _ _ ihbase ihexponent =>
      intro levels s rest hyields hready hends
      rcases hyields.split with ⟨middle, hfront, hcaret⟩
      cases hcaret with
      | cons hback =>
          cases levels with
          | zero => exact Reader.outcome_power_zero s
          | succ levels =>
              have hbase := ihbase levels s _ hfront rfl True.intro
              have hexponent := ihexponent levels _ rest hback hready hends
              simp only [reader, goOn] at hbase hexponent
              rw [within_succ, reader, Reader.outcome_power_succ, hbase, within_bind, Except.bind,
                Reader.raise, hback.ready hready, Except.bind, hexponent, within_map,
                within_within]
              rfl
  | negate _ ih =>
      intro levels s rest hyields hready hends
      cases hyields with
      | cons htail =>
          cases levels with
          | zero => exact Reader.outcome_signed_zero _
          | succ levels =>
              have hoperand := ih levels _ rest htail hready True.intro
              rw [reader, goOn] at hoperand
              rw [within_succ, reader, Reader.outcome_signed_minus, htail.ready hready, Except.bind,
                hoperand, within_map]
              rfl
  | primary hprimary ih =>
      intro levels s rest hyields hready hends
      cases levels with
      | zero => exact Reader.outcome_signed_zero s
      | succ levels =>
          have hread := ih levels s rest hyields hready True.intro
          rw [within_succ, reader, Reader.outcome_signed_primary]
          · exact hread
          · intro position after hnext
            subst hnext
            cases hprimary with
            | number value => cases hyields
            | parens hsum => cases hyields
  | number value =>
      intro levels s rest hyields hready hends
      cases hyields with
      | cons htail =>
          cases htail
          rw [within_zero, reader, Reader.outcome_primary_number, hready]
          rfl
  | parens _ ih =>
      intro levels s rest hyields hready hends
      cases hyields with
      | cons htail =>
          rcases htail.split with ⟨middle, hinner, hclosing⟩
          cases hclosing with
          | cons hrest =>
              cases hrest
              have hsum := ih levels _ _ hinner rfl ⟨rfl, rfl⟩
              rw [goOn, Reader.extend_stop _ rfl] at hsum
              rw [reader] at hsum
              rw [reader, Reader.outcome_primary_openParen, hinner.ready rfl, Except.bind, hsum,
                within_bind, Except.bind, Reader.close, hready]
              rfl

end Phrase

/-!
# Trees and depths are determined
-/

theorem Derives.ne_nil {phrase : Phrase} {tokens : List Token} {e : Expr} {depth : Nat}
    (h : Derives phrase tokens e depth) : tokens ≠ [] := by
  induction h with
  | product _ ih => exact ih
  | add => simp
  | power _ ih => exact ih
  | multiply => simp
  | base _ ih => exact ih
  | raise => simp
  | negate => simp
  | primary _ ih => exact ih
  | number value => simp
  | parens => simp

/-- Reading with any number of levels tells the trees of two derivations apart, and
their depths. -/
theorem Derives.unique {tokens : List Token} {e e' : Expr} {m n : Nat}
    (h : Derives .sum tokens e m) (h' : Derives .sum tokens e' n) : e = e' ∧ m = n := by
  rcases exists_yields tokens (.finish 0) with ⟨s, hyields⟩
  have hwithin : forall levels,
      Phrase.within levels m (.ok (e, TokenStream.finish 0)) =
        Phrase.within levels n (.ok (e', TokenStream.finish 0)) := by
    intro levels
    have hread := Phrase.complete h levels s _ hyields rfl ⟨rfl, rfl⟩
    have hread' := Phrase.complete h' levels s _ hyields rfl ⟨rfl, rfl⟩
    rw [Phrase.goOn, Reader.extend_stop _ rfl] at hread hread'
    rw [← hread, hread']
  have hboth := hwithin (max m n)
  rw [Phrase.within_of_le _ (Nat.le_max_left m n),
    Phrase.within_of_le _ (Nat.le_max_right m n)] at hboth
  cases hboth
  refine ⟨rfl, ?_⟩
  rcases Nat.lt_trichotomy m n with hlt | heq | hgt
  · have hm := hwithin m
    rw [Phrase.within_of_le _ (Nat.le_refl m), Phrase.within_of_lt _ hlt] at hm
    cases hm
  · exact heq
  · have hn := hwithin n
    rw [Phrase.within_of_le _ (Nat.le_refl n), Phrase.within_of_lt _ hgt] at hn
    cases hn

/-!
# Entries
-/

namespace Expr

theorem ofTokens_of_derives {s : TokenStream} {tokens : List Token} {e : Expr}
    {depth position : Nat} (hyields : Yields s tokens (.finish position))
    (h : Derives .sum tokens e depth) :
    ofTokens s = Phrase.within maxDepth depth (.ok e) := by
  have hread := Phrase.complete h maxDepth s _ hyields rfl ⟨rfl, rfl⟩
  rw [Phrase.goOn, Reader.extend_stop _ rfl, Phrase.reader] at hread
  cases hyields with
  | nil => exact absurd rfl h.ne_nil
  | cons htail =>
      rw [ofTokens_next, hread, Phrase.within_bind]
      rfl

theorem outcome_of_ofTokens {s : TokenStream} {e : Expr} (h : ofTokens s = .ok e) :
    exists position, (Reader.sum (Reader.power maxDepth)).outcome s = .ok (e, .finish position) := by
  cases s with
  | finish position => cases h
  | fault error => cases h
  | next position token rest =>
      rw [ofTokens_next] at h
      rcases exists_of_bind_eq_ok h with ⟨read, hread, hconclude⟩
      rcases eq_of_conclude_eq_ok hconclude with ⟨heq, last, hlast⟩
      refine ⟨last, ?_⟩
      rw [hread, ← heq, ← hlast]

theorem derives_of_ofTokens {s : TokenStream} {e : Expr} (h : ofTokens s = .ok e) :
    exists tokens depth position,
      Yields s tokens (.finish position) ∧ Derives .sum tokens e depth ∧ depth <= maxDepth := by
  rcases outcome_of_ofTokens h with ⟨position, hread⟩
  rcases Phrase.sound_sum (Phrase.sound_power_and_signed maxDepth).left _ _ _ hread with
    ⟨tokens, depth, hyields, hderives, hdepth⟩
  exact ⟨tokens, depth, position, hyields, hderives, hdepth⟩

/-- An entry is an expression exactly if its tokens are a sum of the grammar within the
limit of the depth, and its tree is the one that is derived. A sum beyond the limit is
refused as too deep, and no sum has two trees. -/
theorem ofText_eq_ok_iff_derives (f : NumberFormat) (text : List Char) :
    (forall e, ofText f text = .ok e <->
      exists tokens depth,
        (TokenStream.ofText f text).tokens = .ok (tokens ++ [.finish]) ∧
          Derives .sum tokens e depth ∧ depth <= maxDepth) ∧
    (forall tokens e depth,
      (TokenStream.ofText f text).tokens = .ok (tokens ++ [.finish]) ->
        Derives .sum tokens e depth -> maxDepth < depth ->
          ofText f text = .error (.tooDeep maxDepth)) ∧
    (forall tokens e e' depth depth',
      Derives .sum tokens e depth -> Derives .sum tokens e' depth' ->
        e = e' ∧ depth = depth') := by
  refine ⟨fun e => ⟨fun h => ?_, fun h => ?_⟩, fun tokens e depth htokens hderives hdepth => ?_,
    fun tokens e e' depth depth' => Derives.unique⟩
  · rcases derives_of_ofTokens h with ⟨tokens, depth, position, hyields, hderives, hdepth⟩
    exact ⟨tokens, depth, tokens_eq_ok_iff.mpr ⟨position, hyields⟩, hderives, hdepth⟩
  · rcases h with ⟨tokens, depth, htokens, hderives, hdepth⟩
    rcases tokens_eq_ok_iff.mp htokens with ⟨position, hyields⟩
    rw [ofText, ofTokens_of_derives hyields hderives, Phrase.within_of_le _ hdepth]
  · rcases tokens_eq_ok_iff.mp htokens with ⟨position, hyields⟩
    rw [ofText, ofTokens_of_derives hyields hderives, Phrase.within_of_lt _ hdepth]

theorem derives_nested (value : Float) (n : Nat) :
    Derives .sum (List.replicate n .openParen ++ .number value :: List.replicate n .closeParen)
      (.number value) (2 * n + 2) := by
  induction n with
  | zero =>
      exact Derives.product (Derives.power (Derives.base (Derives.primary (Derives.number value))))
  | succ n ih =>
      have htokens : List.replicate (n + 1) Token.openParen ++
            .number value :: List.replicate (n + 1) .closeParen =
          .openParen :: ((List.replicate n .openParen ++
            .number value :: List.replicate n .closeParen) ++ [.closeParen]) := by
        rw [List.replicate_succ, List.replicate_succ']
        simp
      rw [htokens]
      exact Derives.product
        (Derives.power (Derives.base (Derives.primary (Derives.parens ih))))

theorem ofText_nested_parens :
    ofText { decimal := .point, group := some .comma }
        (List.replicate 127 '(' ++ '1' :: List.replicate 127 ')') =
      .ok (.number (Number.ofMagnitudeBits (0x3FF <<< 52))) ∧
    ofText { decimal := .point, group := some .comma }
        (List.replicate 128 '(' ++ '1' :: List.replicate 128 ')') =
      .error (.tooDeep maxDepth) :=
  ⟨((ofText_eq_ok_iff_derives _ _).left _).mpr
      ⟨_, _, by decide +kernel, derives_nested _ 127, by decide⟩,
    (ofText_eq_ok_iff_derives _ _).right.left _ _ _ (by decide +kernel)
      (derives_nested (Number.ofMagnitudeBits (0x3FF <<< 52)) 128) (by decide)⟩

end Expr
end RegionalCalculator
