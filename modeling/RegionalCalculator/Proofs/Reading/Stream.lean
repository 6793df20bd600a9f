import RegionalCalculator.Token.Scan

/-!
# Fronts of token streams

A reader takes tokens off the front of a stream. `Yields` relates a stream to the
tokens at its front and to the stream behind them; it is how the theory of reading
speaks of the tokens that a phrase consists of, whatever their positions are.
-/

namespace RegionalCalculator
namespace TokenStream

/-- The stream starts with these tokens, and `rest` follows them. -/
inductive Yields : TokenStream -> List Token -> TokenStream -> Prop where
  | nil (s : TokenStream) : Yields s [] s
  | cons {position : Nat} {token : Token} {s rest : TokenStream} {tokens : List Token} :
      Yields s tokens rest ->
      Yields (.next position token s) (token :: tokens) rest

theorem Yields.single (position : Nat) (token : Token) (s : TokenStream) :
    Yields (.next position token s) [token] s :=
  Yields.cons (Yields.nil s)

theorem Yields.append {s mid rest : TokenStream} {front back : List Token}
    (hfront : Yields s front mid) (hback : Yields mid back rest) :
    Yields s (front ++ back) rest := by
  induction hfront with
  | nil s => exact hback
  | cons _ ih => exact Yields.cons (ih hback)

theorem Yields.split {s rest : TokenStream} {front back : List Token}
    (h : Yields s (front ++ back) rest) :
    exists mid, Yields s front mid ∧ Yields mid back rest := by
  induction front generalizing s with
  | nil => exact ⟨s, Yields.nil s, h⟩
  | cons token front ih =>
      cases h with
      | cons htail =>
          rcases ih htail with ⟨mid, hfront, hback⟩
          exact ⟨mid, Yields.cons hfront, hback⟩

theorem Yields.ready {s rest : TokenStream} {tokens : List Token}
    (h : Yields s tokens rest) (hrest : rest.ready = .ok ()) : s.ready = .ok () := by
  cases h with
  | nil => exact hrest
  | cons _ => rfl

theorem exists_yields (tokens : List Token) (rest : TokenStream) :
    exists s, Yields s tokens rest := by
  induction tokens with
  | nil => exact ⟨rest, Yields.nil rest⟩
  | cons token tokens ih =>
      rcases ih with ⟨s, hs⟩
      exact ⟨.next 0 token s, Yields.cons hs⟩

/-!
# Streams without a fault
-/

theorem Yields.tokens_eq {s rest : TokenStream} {front : List Token}
    (h : Yields s front rest) : s.tokens = rest.tokens.map (front ++ ·) := by
  induction h with
  | nil s => cases htokens : s.tokens <;> simp [Except.map]
  | cons _ ih =>
      rename_i rest _ _
      rw [TokenStream.tokens, ih]
      cases htokens : rest.tokens <;> simp [Except.map]

theorem ready_of_tokens {s : TokenStream} {tokens : List Token} (h : s.tokens = .ok tokens) :
    s.ready = .ok () := by
  cases s with
  | finish position => rfl
  | fault error => cases h
  | next position token rest => rfl

theorem exists_tokens_rest {position : Nat} {token : Token} {rest : TokenStream}
    {tokens : List Token} (h : (next position token rest).tokens = .ok tokens) :
    exists others, rest.tokens = .ok others ∧ tokens = token :: others := by
  rw [TokenStream.tokens] at h
  cases hrest : rest.tokens with
  | error error =>
      rw [hrest] at h
      cases h
  | ok others =>
      rw [hrest] at h
      exact ⟨others, rfl, (Except.ok.inj h).symm⟩

theorem exists_front_of_tokens {s : TokenStream} {tokens : List Token}
    (h : s.tokens = .ok tokens) :
    exists front position,
      tokens = front ++ [.finish] ∧ Yields s front (.finish position) := by
  induction s generalizing tokens with
  | finish position =>
      cases h
      exact ⟨[], position, rfl, Yields.nil _⟩
  | fault error => cases h
  | next position token rest ih =>
      rcases exists_tokens_rest h with ⟨others, hrest, rfl⟩
      rcases ih hrest with ⟨front, last, hothers, hyields⟩
      exact ⟨token :: front, last, by rw [hothers]; rfl, Yields.cons hyields⟩

theorem tokens_eq_ok_iff {s : TokenStream} {front : List Token} :
    s.tokens = .ok (front ++ [.finish]) <->
      exists position, Yields s front (.finish position) := by
  constructor
  · intro h
    rcases exists_front_of_tokens h with ⟨front', position, hfront, hyields⟩
    rw [List.append_cancel_right hfront]
    exact ⟨position, hyields⟩
  · intro h
    rcases h with ⟨position, hyields⟩
    rw [hyields.tokens_eq]
    rfl

theorem finish_or_ne (s : TokenStream) :
    (exists position, s = finish position) ∨ forall position, s ≠ finish position := by
  cases s with
  | finish position => exact Or.inl ⟨position, rfl⟩
  | fault error => exact Or.inr fun _ => TokenStream.noConfusion
  | next position token rest => exact Or.inr fun _ => TokenStream.noConfusion

/-!
# The end mark

Scanning puts the end mark at the end only, never among the tokens before it.
-/

def EndsOnce : TokenStream -> Prop
  | finish _ => True
  | fault _ => True
  | next _ token rest => token ≠ .finish ∧ rest.EndsOnce

theorem Yields.endsOnce {s rest : TokenStream} {tokens : List Token}
    (h : Yields s tokens rest) (hs : s.EndsOnce) : rest.EndsOnce := by
  induction h with
  | nil s => exact hs
  | cons _ ih => exact ih hs.right

/-!
# Changing the fault
-/

def mapFault (change : EntryError -> EntryError) : TokenStream -> TokenStream
  | finish position => finish position
  | fault error => fault (change error)
  | next position token rest => next position token (rest.mapFault change)

theorem items_mapFault (change : EntryError -> EntryError) (s : TokenStream) :
    (s.mapFault change).items = s.items.map (Except.mapError change) := by
  induction s with
  | finish position => rfl
  | fault error => rfl
  | next position token rest ih =>
      rw [mapFault, items, ih, items, List.map_cons]
      rfl

theorem mapFault_of_fixes {change : EntryError -> EntryError}
    (h : forall error, change error = error) (s : TokenStream) : s.mapFault change = s := by
  induction s with
  | finish position => rfl
  | fault error => rw [mapFault, h]
  | next position token rest ih => rw [mapFault, ih]

end TokenStream

theorem Token.ne_finish_of_ofChar? {c : Char} {token : Token} (h : Token.ofChar? c = some token) :
    token ≠ .finish := by
  intro hfinish
  rcases cases_of_ofChar? h with ⟨_, htoken⟩ | ⟨_, htoken⟩ | ⟨op, _, htoken⟩
  · exact Token.noConfusion (htoken.symm.trans hfinish)
  · exact Token.noConfusion (htoken.symm.trans hfinish)
  · exact Token.noConfusion (htoken.symm.trans hfinish)

theorem Scan.endsOnce_tokensFrom (f : NumberFormat) (awaitsOperand : Bool) (position : Nat)
    (text : List Char) : (tokensFrom f awaitsOperand position text).EndsOnce := by
  fun_induction tokensFrom f awaitsOperand position text with
  | case1 => exact True.intro
  | case2 awaitsOperand position c rest hblank ih => exact ih
  | case3 awaitsOperand position c rest hblank found hfound value hvalue ih =>
      exact ⟨fun h => Token.noConfusion h, ih⟩
  | case4 => exact True.intro
  | case5 awaitsOperand position c rest hblank hfound token htoken ih =>
      exact ⟨Token.ne_finish_of_ofChar? htoken, ih⟩
  | case6 => exact True.intro

end RegionalCalculator
