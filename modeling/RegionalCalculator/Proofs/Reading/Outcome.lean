import RegionalCalculator.Expr.Reading

/-!
# Outcomes of readers

A reader hands back what it read together with the proof that something was
consumed. This module forgets that proof: the outcome of a reader is an
expression and the rest of the stream. For each reader there is one equation that
says what it does to the front of a stream, and later proofs use these equations
instead of the definitions.
-/

namespace RegionalCalculator

/-!
# Steps one after the other
-/

section

variable {ε α β γ : Type}

theorem bind_of_bind (x : Except ε α) (f : α -> Except ε β) (g : β -> Except ε γ) :
    (x.bind f).bind g = x.bind fun a => (f a).bind g := by
  cases x with
  | error error => rfl
  | ok a => rfl

theorem bind_of_map (x : Except ε α) (f : α -> β) (g : β -> Except ε γ) :
    (x.map f).bind g = x.bind fun a => g (f a) := by
  cases x with
  | error error => rfl
  | ok a => rfl

theorem map_of_bind (x : Except ε α) (f : α -> Except ε β) (g : β -> γ) :
    (x.bind f).map g = x.bind fun a => (f a).map g := by
  cases x with
  | error error => rfl
  | ok a => rfl

theorem bind_congr_of_eq_ok {x : Except ε α} {f g : α -> Except ε β}
    (h : forall a, x = .ok a -> f a = g a) : x.bind f = x.bind g := by
  cases x with
  | error error => rfl
  | ok a => exact h a rfl

end

theorem exists_of_bind_eq_ok {ε α β : Type} {x : Except ε α} {f : α -> Except ε β} {b : β}
    (h : x.bind f = .ok b) : exists a, x = .ok a ∧ f a = .ok b := by
  cases x with
  | error error => cases h
  | ok a => exact ⟨a, rfl, h⟩

theorem exists_of_map_eq_ok {ε α β : Type} {x : Except ε α} {f : α -> β} {b : β}
    (h : x.map f = .ok b) : exists a, x = .ok a ∧ f a = b := by
  cases x with
  | error error => cases h
  | ok a =>
      cases h
      exact ⟨a, rfl, rfl⟩

/-!
# Outcomes
-/

/-- An expression and what is left of the stream, or the first fault. -/
abbrev Outcome :=
  Except EntryError (Expr × TokenStream)

def Parsed.pair {s : TokenStream} (p : Parsed s) : Expr × TokenStream :=
  (p.expr, p.rest)

namespace Reader

def outcome (r : Reader) (s : TokenStream) : Outcome :=
  (r s).map Parsed.pair

theorem map_pair_bind {r : Reader} {s t : TokenStream}
    {next : Parsed s -> Except EntryError (Parsed t)} {next' : Expr × TokenStream -> Outcome}
    (h : forall p, (next p).map Parsed.pair = next' p.pair) :
    (r s >>= next).map Parsed.pair = (outcome r s).bind next' := by
  rw [outcome]
  cases r s with
  | error error => rfl
  | ok p => exact h p

theorem map_pair_ready {s t : TokenStream} {next : Unit -> Except EntryError (Parsed t)}
    {o : Outcome} (h : (next ()).map Parsed.pair = o) :
    (s.ready >>= next).map Parsed.pair = s.ready.bind fun _ => o := by
  cases s.ready with
  | error error => rfl
  | ok _ => exact h

theorem length_lt_of_outcome {r : Reader} {s rest : TokenStream} {e : Expr}
    (h : outcome r s = .ok (e, rest)) : rest.length < s.length := by
  cases hread : r s with
  | error error =>
      rw [outcome, hread] at h
      cases h
  | ok p =>
      rw [outcome, hread] at h
      cases h
      exact p.shorter

/-!
# Chains
-/

theorem length_lt_of_next (rest : TokenStream) :
    rest.length < (TokenStream.next 0 .finish rest).length :=
  Nat.lt_succ_self rest.length

/-- What a chain makes of its first operand when `rest` follows it. The stream that
this operand is read from does not matter; here it has one token more than `rest`. -/
def extend (joins : Operator -> Bool) (operand : Reader) (left : Expr) (rest : TokenStream) :
    Outcome :=
  let first : Parsed (.next 0 .finish rest) :=
    { expr := left, rest := rest, shorter := length_lt_of_next rest }
  (chainFrom joins operand first).map Parsed.pair

def continues (joins : Operator -> Bool) : TokenStream -> Bool
  | .next _ (.operator op) _ => joins op
  | _ => false

variable {joins : Operator -> Bool} {operand : Reader}

theorem continues_eq_false {s : TokenStream}
    (h : forall position op rest, s = .next position (.operator op) rest -> joins op = false) :
    continues joins s = false := by
  cases s with
  | finish position => rfl
  | fault error => rfl
  | next position token rest =>
      cases token with
      | operator op => exact h position op rest rfl
      | number value => rfl
      | openParen => rfl
      | closeParen => rfl
      | finish => rfl

theorem exists_of_continues {s : TokenStream} (h : continues joins s = true) :
    exists position op rest,
      s = .next position (.operator op) rest ∧ joins op = true := by
  unfold continues at h
  split at h
  · exact ⟨_, _, _, rfl, h⟩
  · cases h

theorem chainFrom_of_not_continues {start : TokenStream} (left : Parsed start)
    (h : continues joins left.rest = false) : chainFrom joins operand left = .ok left := by
  fun_cases chainFrom joins operand left with
  | case1 position op rest hnext hjoins =>
      rw [hnext, continues, hjoins] at h
      cases h
  | case2 => rfl
  | case3 => rfl

theorem chainFrom_congr {start start' : TokenStream} (left : Parsed start)
    (left' : Parsed start') (h : left.pair = left'.pair) :
    (chainFrom joins operand left).map Parsed.pair =
      (chainFrom joins operand left').map Parsed.pair := by
  have hexpr : left.expr = left'.expr := congrArg Prod.fst h
  have hrest : left.rest = left'.rest := congrArg Prod.snd h
  fun_induction chainFrom joins operand left generalizing left' with
  | case1 left position op rest hnext hjoins ih =>
      rcases left' with ⟨expr', rest', shorter'⟩
      simp only at hexpr hrest
      rw [hnext] at hrest
      subst hexpr hrest
      rw [chainFrom]
      simp only [hjoins, if_true]
      cases rest.ready with
      | error error => rfl
      | ok _ =>
          cases hright : operand rest with
          | error error => rfl
          | ok right => exact ih right _ rfl rfl rfl
  | case2 left position op rest hnext hjoins =>
      rw [chainFrom_of_not_continues left', Except.map, Except.map, h]
      rw [← hrest, hnext, continues]
      exact Bool.eq_false_iff.mpr hjoins
  | case3 left hother =>
      rw [chainFrom_of_not_continues left', Except.map, Except.map, h]
      rw [← hrest]
      exact continues_eq_false fun position op rest hnext =>
        absurd hnext (hother position op rest)

theorem extend_next {position : Nat} {op : Operator} {rest : TokenStream} (left : Expr)
    (hjoins : joins op = true) :
    extend joins operand left (.next position (.operator op) rest) =
      rest.ready.bind fun _ =>
        (outcome operand rest).bind fun right =>
          extend joins operand (.binary op left right.1) right.2 := by
  rw [extend, chainFrom]
  simp only [hjoins, if_true]
  apply map_pair_ready
  apply map_pair_bind
  intro right
  exact chainFrom_congr _ _ rfl

theorem extend_stop {rest : TokenStream} (left : Expr)
    (h : continues joins rest = false) :
    extend joins operand left rest = .ok (left, rest) := by
  rw [extend, chainFrom_of_not_continues _ h]
  rfl

theorem outcome_chain (s : TokenStream) :
    outcome (chain joins operand) s =
      (outcome operand s).bind fun first => extend joins operand first.1 first.2 := by
  unfold chain
  apply map_pair_bind
  intro first
  exact chainFrom_congr first _ rfl

/-- Induction along a chain: every further operand leaves a shorter stream. -/
theorem extend_induction (joins : Operator -> Bool) (operand : Reader)
    {motive : Expr -> TokenStream -> Prop}
    (stop : forall left rest, continues joins rest = false -> motive left rest)
    (next : forall left position op rest, joins op = true ->
      (forall right last, outcome operand rest = .ok (right, last) ->
        motive (.binary op left right) last) ->
      motive left (.next position (.operator op) rest))
    (left : Expr) (rest : TokenStream) : motive left rest := by
  induction hlength : rest.length using Nat.strongRecOn generalizing left rest with
  | ind length ih =>
      cases hcontinues : continues joins rest with
      | false => exact stop left rest hcontinues
      | true =>
          rcases exists_of_continues hcontinues with ⟨position, op, after, hnext, hjoins⟩
          subst hnext
          apply next left position op after hjoins
          intro right last hright
          have hshorter := length_lt_of_outcome hright
          have hlast : last.length < length := by
            rw [← hlength, TokenStream.length]
            omega
          exact ih last.length hlast _ last rfl

theorem last_of_outcome_chain {s rest : TokenStream} {e : Expr}
    (h : outcome (chain joins operand) s = .ok (e, rest)) :
    continues joins rest = false ∧
      exists s' member, outcome operand s' = .ok (member, rest) := by
  have hextend : forall left after,
      (exists s' member, outcome operand s' = .ok (member, after)) ->
      extend joins operand left after = .ok (e, rest) ->
      continues joins rest = false ∧
        exists s' member, outcome operand s' = .ok (member, rest) := by
    refine extend_induction joins operand ?_ ?_
    · intro left after hstop hmember hextend
      rw [extend_stop left hstop] at hextend
      cases hextend
      exact ⟨hstop, hmember⟩
    · intro left position op after hjoins ih _ hextend
      rw [extend_next left hjoins] at hextend
      rcases exists_of_bind_eq_ok hextend with ⟨_, _, hoperand⟩
      rcases exists_of_bind_eq_ok hoperand with ⟨right, hright, hlast⟩
      exact ih right.1 right.2 hright ⟨after, right.1, hright⟩ hlast
  rw [outcome_chain] at h
  rcases exists_of_bind_eq_ok h with ⟨first, hfirst, hlast⟩
  exact hextend first.1 first.2 ⟨s, first.1, hfirst⟩ hlast

/-!
# Powers, signed operands and primaries
-/

def raise (power : Reader) (base : Expr) : TokenStream -> Outcome
  | .next _ (.operator .power) rest =>
      rest.ready.bind fun _ =>
        (outcome power rest).map fun raised => (.binary .power base raised.1, raised.2)
  | rest => .ok (base, rest)

def close (opening : Nat) (inner : Expr) : TokenStream -> Outcome
  | .next _ .closeParen rest => rest.ready.map fun _ => (inner, rest)
  | .next position _ _ => .error (.trailingInput position)
  | .finish _ => .error (.unmatchedParen opening)
  | .fault error => .error error

theorem raise_stop (power : Reader) (base : Expr) {rest : TokenStream}
    (h : continues (· == .power) rest = false) : raise power base rest = .ok (base, rest) := by
  rw [raise]
  intro position after hnext
  rw [hnext] at h
  cases h

theorem raise_eq_ok {power : Reader} {base e : Expr} {s rest : TokenStream}
    (h : raise power base s = .ok (e, rest)) :
    (continues (· == .power) s = false ∧ e = base ∧ rest = s) ∨
      exists position after raised,
        s = .next position (.operator .power) after ∧
          outcome power after = .ok (raised, rest) ∧ e = .binary .power base raised := by
  cases hcontinues : continues (· == .power) s with
  | false =>
      rw [raise_stop power base hcontinues] at h
      cases h
      exact Or.inl ⟨rfl, rfl, rfl⟩
  | true =>
      rcases exists_of_continues hcontinues with ⟨position, op, after, hnext, hop⟩
      cases eq_of_beq hop
      rw [hnext, raise] at h
      rcases exists_of_bind_eq_ok h with ⟨_, _, hafter⟩
      rcases exists_of_map_eq_ok hafter with ⟨raised, hraised, heq⟩
      cases heq
      exact Or.inr ⟨position, after, raised.1, hnext, hraised, rfl⟩

theorem eq_of_close_eq_ok {opening : Nat} {inner e : Expr} {s rest : TokenStream}
    (h : close opening inner s = .ok (e, rest)) :
    e = inner ∧ exists position, s = .next position .closeParen rest := by
  unfold close at h
  split at h
  · rcases exists_of_map_eq_ok h with ⟨_, _, heq⟩
    cases heq
    exact ⟨rfl, _, rfl⟩
  · cases h
  · cases h
  · cases h

theorem outcome_exponent (power : Reader) {start : TokenStream} (base : Parsed start) :
    (exponent power base).map Parsed.pair = raise power base.expr base.rest := by
  fun_cases exponent power base with
  | case1 position rest hnext =>
      rw [hnext, raise]
      apply map_pair_ready
      rw [outcome]
      cases power rest with
      | error error => rfl
      | ok raised => rfl
  | case2 hother =>
      rw [raise]
      · rfl
      · exact hother

theorem outcome_closing (opening : Nat) {start : TokenStream} (inner : Parsed start) :
    (closing opening inner).map Parsed.pair = close opening inner.expr inner.rest := by
  fun_cases closing opening inner with
  | case1 position rest hnext =>
      rw [hnext, close]
      cases rest.ready <;> rfl
  | case2 position token rest hother hnext =>
      rw [hnext, close]
      · rfl
      · exact hother
  | case3 position hnext =>
      rw [hnext]
      rfl
  | case4 error hnext =>
      rw [hnext]
      rfl

theorem outcome_power_zero (s : TokenStream) :
    outcome (power 0) s = .error (.tooDeep maxDepth) := by
  rw [outcome, power]
  rfl

theorem outcome_power_succ (levels : Nat) (s : TokenStream) :
    outcome (power (levels + 1)) s =
      (outcome (signed levels) s).bind fun base => raise (power levels) base.1 base.2 := by
  rw [outcome, power]
  apply map_pair_bind
  intro base
  exact outcome_exponent _ base

theorem outcome_signed_zero (s : TokenStream) :
    outcome (signed 0) s = .error (.tooDeep maxDepth) := by
  rw [outcome, signed]
  rfl

theorem outcome_signed_minus (levels position : Nat) (rest : TokenStream) :
    outcome (signed (levels + 1)) (.next position (.operator .minus) rest) =
      rest.ready.bind fun _ =>
        (outcome (signed levels) rest).map fun operand => (.negate operand.1, operand.2) := by
  rw [outcome, signed]
  apply map_pair_ready
  rw [outcome]
  cases signed levels rest with
  | error error => rfl
  | ok operand => rfl

theorem outcome_signed_primary (levels : Nat) {s : TokenStream}
    (h : forall position rest, s ≠ .next position (.operator .minus) rest) :
    outcome (signed (levels + 1)) s = outcome (primary (power levels)) s := by
  rw [outcome, signed, outcome]
  exact h

theorem outcome_primary_number (power : Reader) (position : Nat) (value : Float)
    (rest : TokenStream) :
    outcome (primary power) (.next position (.number value) rest) =
      rest.ready.map fun _ => (.number value, rest) := by
  rw [outcome, primary]
  cases rest.ready <;> rfl

theorem outcome_primary_openParen (power : Reader) (position : Nat) (rest : TokenStream) :
    outcome (primary power) (.next position .openParen rest) =
      rest.ready.bind fun _ =>
        (outcome (sum power) rest).bind fun inner => close position inner.1 inner.2 := by
  rw [outcome, primary]
  apply map_pair_ready
  apply map_pair_bind
  intro inner
  exact outcome_closing _ (inner.afterToken _)

theorem continues_of_outcome_power {levels : Nat} {s rest : TokenStream} {e : Expr}
    (h : outcome (power levels) s = .ok (e, rest)) :
    continues (· == .power) rest = false := by
  induction levels generalizing s e with
  | zero =>
      rw [outcome_power_zero] at h
      cases h
  | succ levels ih =>
      rw [outcome_power_succ] at h
      rcases exists_of_bind_eq_ok h with ⟨base, _, hraise⟩
      rcases raise_eq_ok hraise with ⟨hstop, _, hrest⟩ | ⟨_, _, _, _, hraised, _⟩
      · rw [hrest]
        exact hstop
      · exact ih hraised

theorem continues_of_outcome_sum {levels : Nat} {s rest : TokenStream} {e : Expr}
    (h : outcome (sum (power levels)) s = .ok (e, rest)) :
    continues (fun _ => true) rest = false := by
  rcases last_of_outcome_chain h with ⟨hadditive, _, _, hproduct⟩
  rcases last_of_outcome_chain hproduct with ⟨hmultiplicative, _, _, hpower⟩
  have hcaret := continues_of_outcome_power hpower
  apply continues_eq_false
  intro position op after hnext
  rw [hnext] at hadditive hmultiplicative hcaret
  cases op with
  | plus => cases hadditive
  | minus => cases hadditive
  | times => cases hmultiplicative
  | divide => cases hmultiplicative
  | power => cases hcaret

end Reader

/-!
# Whole streams
-/

def Expr.conclude (e : Expr) : TokenStream -> Except EntryError Expr
  | .finish _ => .ok e
  | .next position .closeParen _ => .error (.unmatchedParen position)
  | .next position _ _ => .error (.trailingInput position)
  | .fault error => .error error

theorem Expr.ofTokens_next (position : Nat) (token : Token) (rest : TokenStream) :
    Expr.ofTokens (.next position token rest) =
      ((Reader.sum (Reader.power maxDepth)).outcome (.next position token rest)).bind
        fun read => read.1.conclude read.2 := by
  rw [Expr.ofTokens, Reader.outcome, bind_of_map]
  rfl

theorem Expr.eq_of_conclude_eq_ok {e e' : Expr} {s : TokenStream} (h : e.conclude s = .ok e') :
    e = e' ∧ exists position, s = .finish position := by
  unfold Expr.conclude at h
  split at h
  · cases h
    exact ⟨rfl, _, rfl⟩
  · cases h
  · cases h
  · cases h

end RegionalCalculator
