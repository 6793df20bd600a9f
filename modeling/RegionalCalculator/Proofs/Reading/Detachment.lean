import RegionalCalculator.Proofs.Number.SignMagnitude
import RegionalCalculator.Proofs.Reading.FlatScan

/-!
# Detached signs

A number with a sign can be replaced by a minus sign and the number without it,
wherever an operand is due. In the tree a negation takes the place of the sign, and
the value stays what it was. The negation costs one level of the descent, so that the
replacement can make an entry too deep; apart from this, an entry is refused after the
replacement exactly if it was refused before, and for the same kind of error.
-/

namespace RegionalCalculator

open TokenStream

/-!
# Outcomes of the same kind
-/

/-- The second outcome mirrors the first: it gives a related value, or an error of the
same kind, unless it is refused for its depth. -/
inductive Mirrors {α : Type} (related : α -> α -> Prop) :
    Except EntryError α -> Except EntryError α -> Prop where
  | value {a b : α} : related a b -> Mirrors related (.ok a) (.ok b)
  | error {error error' : EntryError} :
      error'.kind = error.kind -> Mirrors related (.error error) (.error error')
  | tooDeep {o : Except EntryError α} {error : EntryError} :
      error.kind = .tooDeep -> Mirrors related o (.error error)

theorem Mirrors.map_mapError {α β : Type} {related : α -> α -> Prop} {o o' : Except EntryError α}
    (h : Mirrors related o o') {g g' : α -> β} (hsame : forall a b, related a b -> g' b = g a) :
    o'.mapError EntryError.kind = .error .tooDeep ∨
      (o'.map g').mapError EntryError.kind = (o.map g).mapError EntryError.kind := by
  cases h with
  | value hrelated => exact Or.inr (congrArg Except.ok (hsame _ _ hrelated))
  | error hkind => exact Or.inr (congrArg Except.error hkind)
  | tooDeep hkind => exact Or.inl (congrArg Except.error hkind)

theorem Mirrors.tooDeep_of_tooDeep {α : Type} {related : α -> α -> Prop}
    {o o' : Except EntryError α} (h : Mirrors related o o')
    (hdeep : o.mapError EntryError.kind = .error .tooDeep) :
    o'.mapError EntryError.kind = .error .tooDeep := by
  cases h with
  | value _ => cases hdeep
  | error hkind => exact (congrArg Except.error hkind).trans hdeep
  | tooDeep hkind => exact congrArg Except.error hkind

/-!
# Trees
-/

def Token.isSigned : Token -> Bool
  | number value => Number.isNegative value
  | _ => false

namespace Expr

/-- The tree in which every number with a sign has become the negation of its magnitude. -/
def detachSigns : Expr -> Expr
  | number value =>
      if Number.isNegative value then .negate (.number (Number.magnitude value)) else number value
  | negate operand => negate operand.detachSigns
  | binary op left right => binary op left.detachSigns right.detachSigns

/-- In the second tree some signs of the first are detached; `all` says that no number
keeps its sign. -/
inductive Detached (all : Bool) : Expr -> Expr -> Prop where
  | number {value : Float} :
      (all = true -> Number.isNegative value = false) ->
      Detached all (number value) (number value)
  | sign {value : Float} :
      Number.isNegative value = true ->
      Detached all (number value) (negate (number (Number.magnitude value)))
  | negate {operand operand' : Expr} :
      Detached all operand operand' ->
      Detached all (negate operand) (negate operand')
  | binary {op : Operator} {left left' right right' : Expr} :
      Detached all left left' ->
      Detached all right right' ->
      Detached all (binary op left right) (binary op left' right')

theorem Detached.eval_eq {all : Bool} {e e' : Expr} (h : e.Detached all e') :
    e'.eval = e.eval := by
  induction h with
  | number _ => rfl
  | sign hsign => exact Number.neg_magnitude hsign
  | negate _ ih => rw [eval, ih, eval]
  | binary _ _ ihleft ihright => rw [eval, ihleft, ihright, eval]

theorem Detached.eq_detachSigns {e e' : Expr} (h : e.Detached true e') : e' = e.detachSigns := by
  induction h with
  | number hsign => rw [detachSigns, hsign rfl, if_neg Bool.false_ne_true]
  | sign hsign => rw [detachSigns, if_pos hsign]
  | negate _ ih => rw [detachSigns, ih]
  | binary _ _ ihleft ihright => rw [detachSigns, ihleft, ihright]

end Expr

/-!
# Tokens of a phrase
-/

namespace Token

/-- In the second list some signs of the first are detached. -/
inductive Detached (all : Bool) : List Token -> List Token -> Prop where
  | nil : Detached all [] []
  | keep {token : Token} {tokens tokens' : List Token} :
      (all = true -> token.isSigned = false) ->
      Detached all tokens tokens' ->
      Detached all (token :: tokens) (token :: tokens')
  | sign {value : Float} {tokens tokens' : List Token} :
      Number.isNegative value = true ->
      Detached all tokens tokens' ->
      Detached all (.number value :: tokens)
        (.operator .minus :: .number (Number.magnitude value) :: tokens')

variable {all : Bool}

theorem Detached.split {front back tokens' : List Token}
    (h : Detached all (front ++ back) tokens') :
    exists front' back',
      tokens' = front' ++ back' ∧ Detached all front front' ∧ Detached all back back' := by
  induction front generalizing tokens' with
  | nil => exact ⟨[], tokens', rfl, Detached.nil, h⟩
  | cons token front ih =>
      cases h with
      | keep hkeep htail =>
          rcases ih htail with ⟨front', back', heq, hfront, hback⟩
          exact ⟨_ :: front', back', by rw [heq]; rfl, Detached.keep hkeep hfront, hback⟩
      | sign hsign htail =>
          rcases ih htail with ⟨front', back', heq, hfront, hback⟩
          exact ⟨_ :: _ :: front', back', by rw [heq]; rfl, Detached.sign hsign hfront, hback⟩

theorem Detached.split_at {token : Token} {front back tokens' : List Token}
    (h : Detached all (front ++ token :: back) tokens')
    (hnumber : forall value, token ≠ .number value) :
    exists front' back',
      tokens' = front' ++ token :: back' ∧ Detached all front front' ∧
        Detached all back back' := by
  rcases h.split with ⟨front', others, heq, hfront, hothers⟩
  cases hothers with
  | keep _ hback => exact ⟨front', _, heq, hfront, hback⟩
  | sign _ _ => exact absurd rfl (hnumber _)

end Token

def Phrase.orSigned : Phrase -> Phrase
  | primary => signed
  | phrase => phrase

theorem Derives.detached {all : Bool} {phrase : Phrase} {tokens : List Token} {e : Expr}
    {depth : Nat} (h : Derives phrase tokens e depth) :
    forall tokens', Token.Detached all tokens tokens' ->
      exists e' depth', Derives phrase.orSigned tokens' e' depth' ∧ e.Detached all e' := by
  induction h with
  | product _ ih =>
      intro tokens' hdetached
      rcases ih tokens' hdetached with ⟨e', depth', hderives, htree⟩
      exact ⟨e', depth', Derives.product hderives, htree⟩
  | add hop _ _ ihfront ihback =>
      intro tokens' hdetached
      rcases hdetached.split_at (fun _ => Token.noConfusion) with
        ⟨front', back', heq, hfront, hback⟩
      rcases ihfront front' hfront with ⟨left', m', hleft, htreeLeft⟩
      rcases ihback back' hback with ⟨right', n', hright, htreeRight⟩
      rw [heq]
      exact ⟨_, _, Derives.add hop hleft hright, Expr.Detached.binary htreeLeft htreeRight⟩
  | power _ ih =>
      intro tokens' hdetached
      rcases ih tokens' hdetached with ⟨e', depth', hderives, htree⟩
      exact ⟨e', depth', Derives.power hderives, htree⟩
  | multiply hop _ _ ihfront ihback =>
      intro tokens' hdetached
      rcases hdetached.split_at (fun _ => Token.noConfusion) with
        ⟨front', back', heq, hfront, hback⟩
      rcases ihfront front' hfront with ⟨left', m', hleft, htreeLeft⟩
      rcases ihback back' hback with ⟨right', n', hright, htreeRight⟩
      rw [heq]
      exact ⟨_, _, Derives.multiply hop hleft hright, Expr.Detached.binary htreeLeft htreeRight⟩
  | base _ ih =>
      intro tokens' hdetached
      rcases ih tokens' hdetached with ⟨e', depth', hderives, htree⟩
      exact ⟨e', depth' + 1, Derives.base hderives, htree⟩
  | raise _ _ ihbase ihexponent =>
      intro tokens' hdetached
      rcases hdetached.split_at (fun _ => Token.noConfusion) with
        ⟨front', back', heq, hfront, hback⟩
      rcases ihbase front' hfront with ⟨base', m', hbase, htreeBase⟩
      rcases ihexponent back' hback with ⟨exponent', n', hexponent, htreeExponent⟩
      rw [heq]
      exact ⟨_, _, Derives.raise hbase hexponent,
        Expr.Detached.binary htreeBase htreeExponent⟩
  | negate _ ih =>
      intro tokens' hdetached
      cases hdetached with
      | keep _ htail =>
          rcases ih _ htail with ⟨e', depth', hderives, htree⟩
          exact ⟨_, _, Derives.negate hderives, Expr.Detached.negate htree⟩
  | primary _ ih => exact ih
  | number value =>
      intro tokens' hdetached
      cases hdetached with
      | keep hkeep htail =>
          cases htail
          exact ⟨_, _, Derives.primary (Derives.number value), Expr.Detached.number hkeep⟩
      | sign hsign htail =>
          cases htail
          exact ⟨_, _, Derives.negate (Derives.primary (Derives.number _)),
            Expr.Detached.sign hsign⟩
  | parens _ ih =>
      intro tokens' hdetached
      cases hdetached with
      | keep _ htail =>
          rcases htail.split_at (fun _ => Token.noConfusion) with
            ⟨inner', back', heq, hinner, hback⟩
          cases hback
          rcases ih inner' hinner with ⟨e', depth', hderives, htree⟩
          rw [heq]
          exact ⟨e', _, Derives.primary (Derives.parens hderives), htree⟩

/-!
# Token streams
-/

/-- In the second stream some signs of the first are detached. This can be done only
where an operand is awaited. A number that is malformed with its sign is so without it. -/
inductive TokenStream.Detached (all : Bool) : Bool -> TokenStream -> TokenStream -> Prop where
  | finish {awaits : Bool} {position position' : Nat} :
      Detached all awaits (.finish position) (.finish position')
  | fault {awaits : Bool} {error error' : EntryError} :
      error'.kind = error.kind ->
      Detached all awaits (.fault error) (.fault error')
  | keep {awaits : Bool} {position position' : Nat} {token : Token} {s s' : TokenStream} :
      (all = true -> token.isSigned = false) ->
      Detached all token.awaitsOperand s s' ->
      Detached all awaits (.next position token s) (.next position' token s')
  | sign {position position' position'' : Nat} {value : Float} {s s' : TokenStream} :
      Number.isNegative value = true ->
      Detached all false s s' ->
      Detached all true (.next position (.number value) s)
        (.next position' (.operator .minus)
          (.next position'' (.number (Number.magnitude value)) s'))
  | signedFault {position : Nat} {error error' : EntryError} :
      error'.kind = error.kind ->
      Detached all true (.fault error) (.next position (.operator .minus) (.fault error'))

variable {all awaits : Bool} {s s' : TokenStream}

theorem TokenStream.Detached.yields {position : Nat} {tokens : List Token}
    (h : s.Detached all awaits s') (hyields : Yields s tokens (.finish position)) :
    exists tokens' position',
      Yields s' tokens' (.finish position') ∧ Token.Detached all tokens tokens' := by
  induction h generalizing tokens with
  | finish =>
      cases hyields
      exact ⟨[], _, Yields.nil _, Token.Detached.nil⟩
  | fault _ => cases hyields
  | keep hkeep _ ih =>
      cases hyields with
      | cons htail =>
          rcases ih htail with ⟨tokens', position', hyields', hdetached⟩
          exact ⟨_, position', Yields.cons hyields', Token.Detached.keep hkeep hdetached⟩
  | sign hsign _ ih =>
      cases hyields with
      | cons htail =>
          rcases ih htail with ⟨tokens', position', hyields', hdetached⟩
          exact ⟨_, position', Yields.cons (Yields.cons hyields'),
            Token.Detached.sign hsign hdetached⟩
  | signedFault _ => cases hyields

theorem TokenStream.Detached.ne_finish (h : s.Detached all awaits s')
    (hs : forall position, s ≠ .finish position) (position : Nat) : s' ≠ .finish position := by
  intro hfinish
  subst hfinish
  cases h
  exact hs _ rfl

/-!
# The pass over both streams

The pass that judges an entry takes an unsigned number behind a minus sign to the same
place as a signed number, only that the number stands one level deeper.
-/

def OpenParen.around (paren : OpenParen) : Nat × Nat :=
  (paren.base, paren.carets)

def Due.awaitsOperand : Due -> Bool
  | operand _ => true
  | operator => false

namespace Nesting

structure Alike (place place' : Nesting) : Prop where
  base : place'.base = place.base
  carets : place'.carets = place.carets
  opened : place'.opened.map OpenParen.around = place.opened.map OpenParen.around

/-- Two steps over the same token from places that are alike. What is due afterwards is
what the scanner awaits behind the token. -/
inductive StepsAlike (token : Token) :
    Except EntryError (Option (Nesting × Due)) ->
      Except EntryError (Option (Nesting × Due)) -> Prop where
  | error {error error' : EntryError} :
      error'.kind = error.kind ->
      StepsAlike token (.error error) (.error error')
  | done : StepsAlike token (.ok none) (.ok none)
  | next {place place' : Nesting} {due : Due} :
      place.Alike place' ->
      due.awaitsOperand = token.awaitsOperand ->
      StepsAlike token (.ok (some (place, due))) (.ok (some (place', due)))

variable {place place' : Nesting} {due : Due} {token : Token} {minuses : Nat}

theorem Alike.level_eq (h : place.Alike place') (minuses : Nat) :
    place'.level minuses = place.level minuses := by
  rw [level, level, h.base, h.carets]

theorem takeOperand_alike (h : place.Alike place') (minuses position position' : Nat)
    (token : Token) :
    StepsAlike token (place.takeOperand minuses position token)
      (place'.takeOperand minuses position' token) := by
  cases token with
  | number value => exact StepsAlike.next h rfl
  | operator op =>
      cases op with
      | minus => exact StepsAlike.next h rfl
      | plus => exact StepsAlike.error rfl
      | times => exact StepsAlike.error rfl
      | divide => exact StepsAlike.error rfl
      | power => exact StepsAlike.error rfl
  | openParen =>
      apply StepsAlike.next _ rfl
      constructor
      · exact h.level_eq minuses
      · rfl
      · rw [List.map_cons, List.map_cons, h.opened, OpenParen.around, OpenParen.around, h.base,
          h.carets]
  | closeParen => exact StepsAlike.error rfl
  | finish => exact StepsAlike.error rfl

theorem takeOperator_alike (h : place.Alike place') (position position' : Nat) (token : Token) :
    StepsAlike token (place.takeOperator position token) (place'.takeOperator position' token) := by
  have hopened := h.opened
  cases token with
  | number value => exact StepsAlike.error rfl
  | operator op =>
      have hreset : ({ place with carets := 0 } : Nesting).Alike { place' with carets := 0 } :=
        ⟨h.base, rfl, h.opened⟩
      cases op with
      | power => exact StepsAlike.next ⟨h.base, congrArg (· + 1) h.carets, h.opened⟩ rfl
      | plus => exact StepsAlike.next hreset rfl
      | minus => exact StepsAlike.next hreset rfl
      | times => exact StepsAlike.next hreset rfl
      | divide => exact StepsAlike.next hreset rfl
  | openParen => exact StepsAlike.error rfl
  | closeParen =>
      rw [takeOperator, takeOperator]
      cases hleft : place.opened with
      | nil =>
          rw [hleft, List.map_nil, List.map_eq_nil_iff] at hopened
          rw [hopened]
          exact StepsAlike.error rfl
      | cons paren opened =>
          rw [hleft, List.map_cons, List.map_eq_cons_iff] at hopened
          rcases hopened with ⟨paren', opened', hright, haround, hrest⟩
          rw [hright]
          exact StepsAlike.next
            ⟨congrArg Prod.fst haround, congrArg Prod.snd haround, hrest⟩ rfl
  | finish =>
      rw [takeOperator, takeOperator]
      cases hleft : place.opened with
      | nil =>
          rw [hleft, List.map_nil, List.map_eq_nil_iff] at hopened
          rw [hopened]
          exact StepsAlike.done
      | cons paren opened =>
          rw [hleft, List.map_cons, List.map_eq_cons_iff] at hopened
          rcases hopened with ⟨paren', opened', hright, _, _⟩
          rw [hright]
          exact StepsAlike.error rfl

theorem step_alike (h : place.Alike place') (due : Due) (position position' : Nat)
    (token : Token) :
    StepsAlike token (place.step position due token) (place'.step position' due token) := by
  cases due with
  | operand minuses =>
      rw [step, step, h.level_eq]
      split
      · exact StepsAlike.error rfl
      · exact takeOperand_alike h minuses position position' token
  | operator => exact takeOperator_alike h position position' token

theorem run_alike {items items' : List (Except EntryError (Nat × Token))}
    (h : place.Alike place') (position position' : Nat)
    (hnext : forall next next' due, Alike next next' -> due.awaitsOperand = token.awaitsOperand ->
      Mirrors (fun _ _ => True) (next.run due items) (next'.run due items')) :
    Mirrors (fun _ _ => True) (place.run due (.ok (position, token) :: items))
      (place'.run due (.ok (position', token) :: items')) := by
  have hsteps := step_alike h due position position' token
  rw [run, run]
  generalize place.step position due token = o at hsteps ⊢
  generalize place'.step position' due token = o' at hsteps ⊢
  cases hsteps with
  | error hkind => exact Mirrors.error hkind
  | done => exact Mirrors.value True.intro
  | next halike hdue => exact hnext _ _ _ halike hdue

theorem run_minus_tooDeep {position : Nat} (hdeep : maxDepth < place'.level minuses) :
    Mirrors (fun _ _ => True) (place.run (.operand minuses) s.items)
      (place'.run (.operand minuses)
        (TokenStream.next position (.operator .minus) s').items) := by
  rw [run_operand_tooDeep rfl hdeep]
  exact Mirrors.tooDeep rfl

theorem run_sign {position position' position'' : Nat} {value value' : Float}
    (h : place.Alike place')
    (hnext : Mirrors (fun _ _ => True) (place.run .operator s.items)
      (place'.run .operator s'.items)) :
    Mirrors (fun _ _ => True)
      (place.run (.operand minuses) (TokenStream.next position (.number value) s).items)
      (place'.run (.operand minuses) (TokenStream.next position' (.operator .minus)
        (.next position'' (.number value') s')).items) := by
  by_cases hdeep : maxDepth < place'.level minuses
  · exact run_minus_tooDeep hdeep
  · -- Behind the minus sign one level more is asked for, which may be the one too many.
    have hlevel : place'.level minuses <= maxDepth := Nat.le_of_not_lt hdeep
    have hminus := step_operand hlevel position' (.operator .minus)
    rw [run_next hminus]
    by_cases hdeeper : maxDepth < place'.level (minuses + 1)
    · rw [run_operand_tooDeep rfl hdeeper]
      exact Mirrors.tooDeep rfl
    · have hnumber' := step_operand (Nat.le_of_not_lt hdeeper) position'' (.number value')
      rw [h.level_eq] at hlevel
      have hnumber := step_operand hlevel position (.number value)
      rw [run_next hnumber, run_next hnumber']
      exact hnext

theorem run_signedFault {position : Nat} {error error' : EntryError}
    (h : error'.kind = error.kind) :
    Mirrors (fun _ _ => True) (place.run (.operand minuses) (TokenStream.fault error).items)
      (place'.run (.operand minuses)
        (TokenStream.next position (.operator .minus) (.fault error')).items) := by
  by_cases hdeep : maxDepth < place'.level minuses
  · exact run_minus_tooDeep hdeep
  · have hminus := step_operand (Nat.le_of_not_lt hdeep) position (.operator .minus)
    rw [run_next hminus]
    exact Mirrors.error h

/-- The invariant of both passes: they are at places that are alike, and what is due is what
the scanner awaits. -/
theorem run_detached (h : s.Detached all awaits s') (halike : place.Alike place')
    (hdue : due.awaitsOperand = awaits) :
    Mirrors (fun _ _ => True) (place.run due s.items) (place'.run due s'.items) := by
  induction h generalizing place place' due with
  | finish => exact run_alike halike _ _ fun _ _ _ _ _ => Mirrors.value True.intro
  | fault hkind => exact Mirrors.error hkind
  | keep _ _ ih => exact run_alike halike _ _ fun _ _ _ hnext hnextDue => ih hnext hnextDue
  | sign _ _ ih =>
      cases due with
      | operand minuses => exact run_sign halike (ih halike rfl)
      | operator => cases hdue
  | signedFault hkind =>
      cases due with
      | operand minuses => exact run_signedFault hkind
      | operator => cases hdue

theorem verdict_detached (hends : s.EndsOnce) (hends' : s'.EndsOnce)
    (h : s.Detached all true s') :
    Mirrors (fun _ _ => True) (verdict s.items) (verdict s'.items) := by
  rcases s.finish_or_ne with ⟨position, rfl⟩ | hs
  · cases h
    exact Mirrors.error rfl
  · rw [verdict_eq_run hends hs, verdict_eq_run hends' (h.ne_finish hs)]
    exact run_detached h ⟨rfl, rfl, rfl⟩ rfl

end Nesting

/-- Detaching signs changes nothing but the tree, where negations take their place, unless
this makes the stream too deep. -/
theorem Expr.ofTokens_detached (hends : s.EndsOnce) (hends' : s'.EndsOnce)
    (h : s.Detached all true s') :
    Mirrors (Expr.Detached all) (Expr.ofTokens s) (Expr.ofTokens s') := by
  -- Trees are compared along the grammar, and errors along the pass, which builds no tree.
  cases hread : Expr.ofTokens s with
  | ok e =>
      rcases derives_of_ofTokens hread with ⟨tokens, depth, position, hyields, hderives, _⟩
      rcases h.yields hyields with ⟨tokens', position', hyields', hdetached⟩
      rcases hderives.detached tokens' hdetached with ⟨e', depth', hderives', htree⟩
      rw [ofTokens_of_derives hyields' hderives', Phrase.within]
      split
      · exact Mirrors.value htree
      · exact Mirrors.tooDeep rfl
  | error error =>
      have hverdict := Nesting.verdict_detached hends hends' h
      rw [← Nesting.verdict_items hends, ← Nesting.verdict_items hends', hread] at hverdict
      cases hread' : Expr.ofTokens s' with
      | ok e' =>
          rw [hread'] at hverdict
          cases hverdict
      | error error' =>
          rw [hread'] at hverdict
          cases hverdict with
          | error hkind => exact Mirrors.error hkind
          | tooDeep hkind => exact Mirrors.tooDeep hkind

end RegionalCalculator
