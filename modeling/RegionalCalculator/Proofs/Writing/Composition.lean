import RegionalCalculator.Proofs.Scanning.Appending
import RegionalCalculator.Proofs.Writing.Logical

/-!
# Entries put together

Entries that are accepted may be put in parentheses and joined by an operator, with blanks
at will, and the trees are put together in the same way. Inside the parentheses an entry has
the tokens that it has by itself, and its tree does not depend on what stands around it; only
its depth grows with every pair of parentheses, which may be too much.
-/

namespace RegionalCalculator

structure Text.Blanks where
  chars : List Char
  all_isBlank : chars.all Text.isBlank = true

theorem Text.Blanks.isBlank_of_mem (blanks : Text.Blanks) :
    forall c, c ∈ blanks.chars -> Text.isBlank c = true :=
  List.all_eq_true.mp blanks.all_isBlank

def Entry.enclosed (before : Text.Blanks) (entry : List Char) (after : Text.Blanks) : List Char :=
  '(' :: (before.chars ++ entry ++ after.chars ++ [')'])

/-!
# Blanks around a piece
-/

namespace Scan

open TokenStream

variable {f : NumberFormat} {text : List Char} {tokens : List Token}

theorem Makes.behindBlanks (h : Makes f text tokens) (blanks : Text.Blanks) :
    Makes f (blanks.chars ++ text) tokens := by
  intro position rest hrest
  rw [List.append_assoc, tokensFrom_blanks f true position _ blanks.isBlank_of_mem]
  exact h _ rest hrest

theorem Makes.beforeBlanks (h : Makes f text tokens) (blanks : Text.Blanks) :
    Makes f (text ++ blanks.chars) tokens := by
  intro position rest hrest
  rcases h position _ (spanRun_blanks_append hrest blanks.isBlank_of_mem) with ⟨after, hyields⟩
  rw [tokensFrom_blanks f false after rest blanks.isBlank_of_mem] at hyields
  rw [List.append_assoc]
  exact ⟨_, hyields⟩

theorem Makes.enclosed (h : Makes f text tokens) (before after : Text.Blanks) :
    Makes f (Entry.enclosed before text after) (.openParen :: (tokens ++ [.closeParen])) :=
  ((h.behindBlanks before).beforeBlanks after).parens

end Scan

/-!
# Sums of the grammar as pieces
-/

theorem Derives.awaitsBehind {phrase : Phrase} {tokens : List Token} {e : Expr} {depth : Nat}
    (h : Derives phrase tokens e depth) (awaitsOperand : Bool) :
    Token.awaitsBehind awaitsOperand tokens = false := by
  have hjoin : forall (op : Operator) (front back : List Token),
      (forall awaits, Token.awaitsBehind awaits back = false) ->
        forall awaits, Token.awaitsBehind awaits (front ++ .operator op :: back) = false := by
    intro op front back hback awaits
    rw [Token.awaitsBehind, List.foldl_append, List.foldl_cons]
    exact hback _
  induction h generalizing awaitsOperand with
  | product _ ih => exact ih awaitsOperand
  | add _ _ _ _ ihback => exact hjoin _ _ _ ihback awaitsOperand
  | power _ ih => exact ih awaitsOperand
  | multiply _ _ _ _ ihback => exact hjoin _ _ _ ihback awaitsOperand
  | base _ ih => exact ih awaitsOperand
  | raise _ _ _ ihback => exact hjoin _ _ _ ihback awaitsOperand
  | negate _ ih => exact hjoin .minus [] _ ih awaitsOperand
  | primary _ ih => exact ih awaitsOperand
  | number value => rfl
  | parens _ _ =>
      rw [Token.awaitsBehind, List.foldl_cons, List.foldl_append]
      rfl

namespace Expr

/-- The tokens of the entry are a sum of the grammar, with this tree and this depth. The entry
is accepted if the depth is within the limit. -/
def Reads (f : NumberFormat) (text : List Char) (e : Expr) (depth : Nat) : Prop :=
  exists tokens, (TokenStream.ofText f text).tokens = .ok (tokens ++ [.finish]) ∧
    Derives .sum tokens e depth

/-- The text stands for an operand with this tree and this depth, wherever one is due. -/
def Operand (f : NumberFormat) (text : List Char) (e : Expr) (depth : Nat) : Prop :=
  exists tokens, Scan.Makes f text tokens ∧ Derives .signed tokens e depth

section

variable {f : NumberFormat} {text front back : List Char} {e left right : Expr} {depth m n : Nat}

theorem exists_reads (h : ofText f text = .ok e) : exists depth, Reads f text e depth := by
  rcases derives_of_ofTokens h with ⟨tokens, depth, position, hyields, hderives, _⟩
  exact ⟨depth, tokens, TokenStream.tokens_eq_ok_iff.mpr ⟨position, hyields⟩, hderives⟩

theorem Reads.ofText_eq (h : Reads f text e depth) :
    ofText f text = Phrase.within maxDepth depth (.ok e) := by
  rcases h with ⟨tokens, htokens, hderives⟩
  rcases TokenStream.tokens_eq_ok_iff.mp htokens with ⟨position, hyields⟩
  exact ofTokens_of_derives hyields hderives

theorem Reads.unique {e' : Expr} (h : Reads f text e m) (h' : Reads f text e' n) :
    e = e' ∧ m = n := by
  rcases h with ⟨tokens, htokens, hderives⟩
  rcases h' with ⟨tokens', htokens', hderives'⟩
  rw [htokens] at htokens'
  rw [List.append_cancel_right (Except.ok.inj htokens')] at hderives
  exact hderives.unique hderives'

theorem reads_of_makes {tokens : List Token} (h : Scan.Makes f text tokens)
    (hderives : Derives .sum tokens e depth) : Reads f text e depth :=
  ⟨tokens, TokenStream.tokens_eq_ok_iff.mpr h.ofText, hderives⟩

/-- An entry that is a sum makes the same tokens wherever it stands as an operand. -/
theorem Reads.exists_makes (h : Reads f text e depth) :
    exists tokens, Scan.Makes f text tokens ∧ Derives .sum tokens e depth := by
  rcases h with ⟨tokens, htokens, hderives⟩
  rcases TokenStream.tokens_eq_ok_iff.mp htokens with ⟨last, hyields⟩
  refine ⟨tokens, fun position rest hrest => ?_, hderives⟩
  rcases Scan.exists_yields_append hrest hyields position with ⟨after, hbefore⟩
  rw [hderives.awaitsBehind] at hbefore
  exact ⟨after, hbefore⟩

theorem Reads.enclosed (h : Reads f text e depth) (before after : Text.Blanks) :
    Operand f (Entry.enclosed before text after) e (depth + 1) := by
  rcases h.exists_makes with ⟨tokens, hmakes, hderives⟩
  exact ⟨_, hmakes.enclosed before after, Derives.primary (Derives.parens hderives)⟩

/-!
# Putting operands together
-/

theorem Operand.reads (h : Operand f text e depth) : Reads f text e (depth + 1) := by
  rcases h with ⟨tokens, hmakes, hderives⟩
  exact reads_of_makes hmakes (Logical.derives_sum_of_signed hderives)

theorem Operand.negate (h : Operand f text e depth)
    (hsign : forall rest, Scan.startsNumber f (text ++ rest) = false) :
    Operand f ('-' :: text) (.negate e) (depth + 1) := by
  rcases h with ⟨tokens, hmakes, hderives⟩
  exact ⟨_, hmakes.minus hsign, Derives.negate hderives⟩

theorem Operand.join (hleft : Operand f front left m) (hright : Operand f back right n)
    (op : Operator) (before after : Text.Blanks) :
    Reads f (front ++ before.chars ++ op.symbol :: (after.chars ++ back))
      (.binary op left right) (op.joinedDepth m n) := by
  rcases hleft with ⟨tokens, hmakes, hderives⟩
  rcases hright with ⟨others, hmakes', hderives'⟩
  exact reads_of_makes ((hmakes.beforeBlanks before).join op (hmakes'.behindBlanks after))
    (Logical.derives_binary op hderives hderives')

end

/-!
# Accepted entries
-/

/-- Accepted entries may be enclosed in parentheses, negated and joined by any operator, with
blanks inside the parentheses and around the operator. The trees are put together in the same
way, unless the depth, which grows by two levels with the parentheses, is beyond the limit. -/
theorem ofText_composed {f : NumberFormat} {front back : List Char} {left right : Expr}
    (hleft : ofText f front = .ok left) (hright : ofText f back = .ok right) (op : Operator)
    (before after gap gap' before' after' : Text.Blanks) :
    exists m n, Reads f front left m ∧ Reads f back right n ∧
      ofText f (Entry.enclosed before front after) =
        Phrase.within maxDepth (m + 2) (.ok left) ∧
      ofText f ('-' :: Entry.enclosed before front after) =
        Phrase.within maxDepth (m + 3) (.ok (.negate left)) ∧
      ofText f (Entry.enclosed before front after ++ gap.chars ++
          op.symbol :: (gap'.chars ++ Entry.enclosed before' back after')) =
        Phrase.within maxDepth (op.joinedDepth (m + 1) (n + 1)) (.ok (.binary op left right)) := by
  rcases exists_reads hleft with ⟨m, hfront⟩
  rcases exists_reads hright with ⟨n, hback⟩
  have henclosed := hfront.enclosed before after
  have henclosed' := hback.enclosed before' after'
  refine ⟨m, n, hfront, hback, ?_, ?_, ?_⟩
  · exact henclosed.reads.ofText_eq
  · have hsign : forall rest,
        Scan.startsNumber f (Entry.enclosed before front after ++ rest) = false :=
      fun _ => Scan.startsNumber_of_belongs_eq_false _ (f.belongs_of_ofChar? rfl)
    exact (henclosed.negate hsign).reads.ofText_eq
  · exact (henclosed.join henclosed' op gap gap').ofText_eq

theorem ofText_composed_spaces :
    ofText { decimal := .comma, group := some .space } "2-3".toList =
        .ok (.binary .minus (.number (Number.ofMagnitudeBits 0x4000000000000000))
          (.number (Number.ofMagnitudeBits 0x4008000000000000))) ∧
      ofText { decimal := .comma, group := some .space } "-1 234,".toList =
        .ok (.number (-Number.ofMagnitudeBits 0x4093480000000000)) ∧
      ofText { decimal := .comma, group := some .space } "(2-3\u202f) ^ (\t-1 234, )".toList =
        .ok (.binary .power
          (.binary .minus (.number (Number.ofMagnitudeBits 0x4000000000000000))
            (.number (Number.ofMagnitudeBits 0x4008000000000000)))
          (.number (-Number.ofMagnitudeBits 0x4093480000000000))) := by
  have hfront : Reads { decimal := .comma, group := some .space } "2-3".toList
      (.binary .minus (.number (Number.ofMagnitudeBits 0x4000000000000000))
        (.number (Number.ofMagnitudeBits 0x4008000000000000))) 2 :=
    ⟨_, by decide +kernel, Logical.derives_binary .minus
      (Derives.primary (Derives.number _)) (Derives.primary (Derives.number _))⟩
  have hback : Reads { decimal := .comma, group := some .space } "-1 234,".toList
      (.number (-Number.ofMagnitudeBits 0x4093480000000000)) 2 :=
    ⟨_, by decide +kernel, Logical.derives_sum_of_signed (Derives.primary (Derives.number _))⟩
  have hleft := hfront.ofText_eq.trans (if_pos (by decide))
  have hright := hback.ofText_eq.trans (if_pos (by decide))
  rcases ofText_composed hleft hright .power ⟨[], rfl⟩ ⟨['\u202f'], rfl⟩ ⟨[' '], rfl⟩ ⟨[' '], rfl⟩
    ⟨['\t'], rfl⟩ ⟨[' '], rfl⟩ with ⟨m, n, hm, hn, _, _, hpower⟩
  rw [(hm.unique hfront).right, (hn.unique hback).right] at hpower
  exact ⟨hleft, hright, hpower.trans (if_pos (by decide))⟩

end Expr
end RegionalCalculator
