import RegionalCalculator.Evaluation
import RegionalCalculator.Format.Named
import RegionalCalculator.Proofs.Number.LiteralSign
import RegionalCalculator.Proofs.Reading.Detachment
import RegionalCalculator.Proofs.Scanning.Steps

/-!
# Loosened entries

Spaces around operators and parentheses make no difference to an entry, except behind a
minus sign that would otherwise belong to a number: there the sign is detached. This
holds even where spaces group digits, because such a space would have to stand between
two digits.
-/

namespace RegionalCalculator

theorem Token.isSigned_of_ofChar? {c : Char} {token : Token} (h : ofChar? c = some token) :
    token.isSigned = false := by
  rcases cases_of_ofChar? h with ⟨_, htoken⟩ | ⟨_, htoken⟩ | ⟨op, _, htoken⟩
  · rw [htoken]
    rfl
  · rw [htoken]
    rfl
  · rw [htoken]
    rfl

namespace Scan

/-- The second text is the first with spaces added around operators and parentheses; `all`
says that no minus sign touches what follows it. -/
inductive Loosened (all : Bool) : List Char -> List Char -> Prop where
  | nil : Loosened all [] []
  | keep {c : Char} {text text' : List Char} :
      (all = true -> c ≠ '-') ->
      Loosened all text text' ->
      Loosened all (c :: text) (c :: text')
  | single {c : Char} {token : Token} {before after : Nat} {text text' : List Char} :
      Token.ofChar? c = some token ->
      (all = true -> c = '-' -> 0 < after) ->
      Loosened all text text' ->
      Loosened all (c :: text)
        (List.replicate before ' ' ++ c :: (List.replicate after ' ' ++ text'))

/-!
# Spaces
-/

section

variable {f : NumberFormat}

theorem tokensFrom_spaces (f : NumberFormat) (awaitsOperand : Bool) (position n : Nat)
    (text : List Char) :
    tokensFrom f awaitsOperand position (List.replicate n ' ' ++ text) =
      tokensFrom f awaitsOperand (position + n) text := by
  induction n generalizing position with
  | zero => rfl
  | succ n ih =>
      have hsize : position + ' '.utf8Size + n = position + (n + 1) := Nat.add_right_comm position 1 n
      rw [List.replicate_succ, List.cons_append, tokensFrom_blank f awaitsOperand position _ rfl, ih,
        hsize]

theorem startsNumber_of_spaces {n : Nat} {text : List Char}
    (h : startsNumber f (List.replicate n ' ' ++ text) = true) : startsNumber f text = true := by
  cases n with
  | zero => exact h
  | succ n =>
      rw [List.replicate_succ, List.cons_append, startsNumber_blank f _ rfl] at h
      cases h

variable {c : Char} {token : Token}

theorem startsWithDigit_spaces (h : Token.ofChar? c = some token) (n : Nat) (text : List Char) :
    startsWithDigit (List.replicate n ' ' ++ c :: text) = false := by
  cases n with
  | zero =>
      have hchars : Token.chars.any Char.isDigit = false := rfl
      exact Bool.eq_false_iff.mpr
        (List.any_eq_false.mp hchars c (Token.mem_chars_of_ofChar? h))
  | succ n => rfl

theorem startsNumber_spaces (h : Token.ofChar? c = some token) (n : Nat) (text : List Char) :
    startsNumber f (List.replicate n ' ' ++ c :: text) = false := by
  rw [Bool.eq_false_iff]
  intro hstarts
  have hsingle := startsNumber_of_spaces hstarts
  rw [startsNumber_of_belongs_eq_false text (f.belongs_of_ofChar? h)] at hsingle
  cases hsingle

theorem spanRun_spaces (h : Token.ofChar? c = some token) (n : Nat) (text : List Char) :
    spanRun f (List.replicate n ' ' ++ c :: text) = ([], List.replicate n ' ' ++ c :: text) := by
  cases n with
  | zero => exact spanRun_of_belongs_eq_false text (f.belongs_of_ofChar? h)
  | succ n => exact spanRun_blank f rfl (startsWithDigit_spaces h n text)

end

/-!
# What loosening leaves alone
-/

namespace Loosened

variable {all : Bool} {text text' : List Char} {c : Char}

theorem behind {token : Token} {after : Nat} (htoken : Token.ofChar? c = some token)
    (hsign : all = true -> c = '-' -> 0 < after) (h : Loosened all text text') :
    Loosened all (c :: text) (c :: (List.replicate after ' ' ++ text')) :=
  @single all c token 0 after text text' htoken hsign h

theorem startsWithDigit_eq (h : Loosened all text text') :
    startsWithDigit text' = startsWithDigit text := by
  cases h with
  | nil => rfl
  | keep _ _ => rfl
  | single htoken _ _ =>
      rw [startsWithDigit_spaces htoken]
      exact (startsWithDigit_spaces htoken 0 _).symm

theorem startsNumber_eq (h : Loosened all text text') (f : NumberFormat) :
    startsNumber f text' = startsNumber f text := by
  cases h with
  | nil => rfl
  | keep _ hrest => rw [startsNumber, startsNumber, hrest.startsWithDigit_eq]
  | single htoken _ _ =>
      rw [startsNumber_spaces htoken]
      exact (startsNumber_spaces htoken 0 _).symm

theorem exists_spanRun (h : Loosened all text text') (f : NumberFormat) :
    exists rest', spanRun f text' = ((spanRun f text).1, rest') ∧
      Loosened all (spanRun f text).2 rest' := by
  induction h with
  | nil => exact ⟨[], rfl, Loosened.nil⟩
  | keep hc hrest ih =>
      rename_i c text text'
      have hextends : extendsNumber f c text' = extendsNumber f c text := by
        rw [extendsNumber, extendsNumber, hrest.startsWithDigit_eq]
      cases hcase : extendsNumber f c text with
      | true =>
          rcases ih with ⟨rest', hspan, hloosened⟩
          rw [hcase] at hextends
          rw [spanRun_cons hextends, spanRun_cons hcase, hspan]
          exact ⟨rest', rfl, hloosened⟩
      | false =>
          rw [hcase] at hextends
          rw [spanRun_stop hextends, spanRun_stop hcase]
          exact ⟨_, rfl, Loosened.keep hc hrest⟩
  | single htoken hsign hrest _ =>
      rename_i c token before after text text' _
      have hstop : spanRun f (c :: text) = ([], c :: text) := spanRun_spaces htoken 0 text
      rw [spanRun_spaces htoken, hstop]
      exact ⟨_, rfl, Loosened.single htoken hsign hrest⟩

theorem exists_splitLiteral? (h : Loosened all text text') {f : NumberFormat}
    (hstarts : startsNumber f text = true) (awaitsOperand : Bool) :
    exists rest', splitLiteral? f awaitsOperand text' = some ((spanRun f text).1, rest') ∧
      Loosened all (spanRun f text).2 rest' := by
  rw [← h.startsNumber_eq] at hstarts
  rw [splitLiteral?_of_startsNumber awaitsOperand hstarts]
  rcases h.exists_spanRun f with ⟨rest', hspan, hloosened⟩
  exact ⟨rest', congrArg some hspan, hloosened⟩

theorem exists_splitLiteral?_minus (h : Loosened all text text') {f : NumberFormat}
    (hstarts : startsNumber f text = true) :
    exists rest', splitLiteral? f true ('-' :: text') = some ('-' :: (spanRun f text).1, rest') ∧
      Loosened all (spanRun f text).2 rest' := by
  rw [← h.startsNumber_eq] at hstarts
  rcases h.exists_spanRun f with ⟨rest', hspan, hloosened⟩
  refine ⟨rest', ?_, hloosened⟩
  rw [splitLiteral?_minus, if_pos ⟨rfl, hstarts⟩, hspan]

/-!
# The first character
-/

theorem exists_of_ofChar?_eq_none (h : Loosened all (c :: text) text')
    (hc : Token.ofChar? c = none) :
    exists rest', text' = c :: rest' ∧ Loosened all text rest' := by
  cases h with
  | keep _ hrest => exact ⟨_, rfl, hrest⟩
  | single htoken _ _ =>
      rw [htoken] at hc
      cases hc

theorem exists_replicate (h : Loosened all (c :: text) text') :
    exists before after rest',
      text' = List.replicate before ' ' ++ c :: (List.replicate after ' ' ++ rest') ∧
        (all = true -> c = '-' -> 0 < after) ∧ Loosened all text rest' := by
  cases h with
  | keep hminus hrest =>
      exact ⟨0, 0, _, rfl, fun hall hc => absurd hc (hminus hall), hrest⟩
  | single _ hsign hrest => exact ⟨_, _, _, rfl, hsign, hrest⟩

/-!
# Loosened texts put together and turned round
-/

theorem append {front front' : List Char} (hfront : Loosened all front front')
    (h : Loosened all text text') : Loosened all (front ++ text) (front' ++ text') := by
  induction hfront with
  | nil => exact h
  | keep hminus _ ih => exact Loosened.keep hminus ih
  | single htoken hsign _ ih =>
      rw [List.cons_append, List.append_assoc, List.cons_append, List.append_assoc]
      exact Loosened.single htoken hsign ih

theorem reverse (h : Loosened false text text') : Loosened false text.reverse text'.reverse := by
  induction h with
  | nil => exact Loosened.nil
  | keep hminus _ ih =>
      rw [List.reverse_cons, List.reverse_cons]
      exact ih.append (Loosened.keep hminus Loosened.nil)
  | single htoken _ _ ih =>
      rename_i c token before after text text' _ _
      have hsides : (List.replicate before ' ' ++ c :: (List.replicate after ' ' ++ text')).reverse =
          text'.reverse ++ (List.replicate after ' ' ++ c :: (List.replicate before ' ' ++ [])) := by
        simp
      rw [List.reverse_cons, hsides]
      exact ih.append (Loosened.single htoken (fun hall => Bool.noConfusion hall) Loosened.nil)

theorem filter_eq (h : Loosened all text text') :
    text'.filter (fun c => c != ' ') = text.filter (fun c => c != ' ') := by
  induction h with
  | nil => rfl
  | keep _ _ ih => rw [List.filter_cons, List.filter_cons, ih]
  | single _ _ _ ih =>
      rw [List.filter_append, List.filter_replicate, List.filter_cons, List.filter_cons,
        List.filter_append, List.filter_replicate, ih]
      rfl

end Loosened

/-!
# Signed numbers

Behind a minus sign that has been set apart, the number is scanned without its sign.
-/

section

variable {all : Bool} {f : NumberFormat} {rest rest' : List Char} {after : Nat}

theorem tokensFrom_apart (f : NumberFormat) (position after : Nat) (text : List Char) :
    tokensFrom f true position ('-' :: (List.replicate (after + 1) ' ' ++ text)) =
      .next position (.operator .minus)
        (tokensFrom f true (position + '-'.utf8Size + (after + 1)) text) := by
  rw [tokensFrom_token position rfl, Token.awaitsOperand, tokensFrom_spaces]
  intro _
  exact startsNumber_blank f _ rfl

theorem detached_signed {position position' : Nat} {value : Float} {s : TokenStream}
    (h : Loosened all rest rest') (hafter : all = true -> 0 < after)
    (hstarts : startsNumber f rest = true)
    (hread : readLiteral f ('-' :: (spanRun f rest).1) = .ok value)
    (hs : forall position' text', Loosened all (spanRun f rest).2 text' ->
      s.Detached all false (tokensFrom f false position' text')) :
    (TokenStream.next position (.number value) s).Detached all true
      (tokensFrom f true position' ('-' :: (List.replicate after ' ' ++ rest'))) := by
  rcases magnitude_of_readLiteral_minus (head?_spanRun_ne_minus hstarts) hread with
    ⟨hnegative, hmagnitude⟩
  cases after with
  | zero =>
      rcases h.exists_splitLiteral?_minus hstarts with ⟨last, hsplit, hlast⟩
      rw [List.replicate_zero, List.nil_append, tokensFrom_number position' rfl hsplit hread]
      exact TokenStream.Detached.keep (fun hall => absurd (hafter hall) (Nat.lt_irrefl 0))
        (hs _ _ hlast)
  | succ after =>
      rcases h.exists_splitLiteral? hstarts true with ⟨last, hsplit, hlast⟩
      rw [tokensFrom_apart, tokensFrom_literal _ hsplit hmagnitude]
      exact TokenStream.Detached.sign hnegative (hs _ _ hlast)

theorem detached_signedFault {position' : Nat} {error : EntryError}
    (h : Loosened all rest rest') (hstarts : startsNumber f rest = true)
    (hread : readLiteral f ('-' :: (spanRun f rest).1) = .error error) :
    (TokenStream.fault error).Detached all true
      (tokensFrom f true position' ('-' :: (List.replicate after ' ' ++ rest'))) := by
  rcases error_of_readLiteral_minus (head?_spanRun_ne_minus hstarts) hread with
    ⟨error', hread', hkind⟩
  cases after with
  | zero =>
      rcases h.exists_splitLiteral?_minus hstarts with ⟨last, hsplit, _⟩
      rw [List.replicate_zero, List.nil_append, tokensFrom_malformed position' rfl hsplit hread]
      exact TokenStream.Detached.fault rfl
  | succ after =>
      rcases h.exists_splitLiteral? hstarts true with ⟨last, hsplit, _⟩
      rcases exists_cons_of_splitLiteral? hsplit with ⟨c, others, hcons, hblank⟩
      rw [hcons] at hsplit
      rw [tokensFrom_apart, hcons, tokensFrom_malformed _ hblank hsplit hread']
      exact TokenStream.Detached.signedFault hkind

end

/-!
# Scanning a loosened text
-/

theorem Loosened.not_signed {all : Bool} {f : NumberFormat} {awaitsOperand : Bool} {after : Nat}
    {rest rest' : List Char} (h : Loosened all rest rest')
    (hsplit : splitLiteral? f awaitsOperand ('-' :: rest) = none) :
    ¬ (awaitsOperand = true ∧
      startsNumber f (List.replicate after ' ' ++ rest') = true) := by
  intro hsigned
  have hstarts := startsNumber_of_spaces hsigned.right
  rw [h.startsNumber_eq] at hstarts
  rw [splitLiteral?_minus, if_pos ⟨hsigned.left, hstarts⟩] at hsplit
  cases hsplit

theorem Loosened.splitLiteral?_foreign {all : Bool} {f : NumberFormat} {awaitsOperand : Bool}
    {c : Char} {rest rest' : List Char} (h : Loosened all (c :: rest) (c :: rest'))
    (hsplit : splitLiteral? f awaitsOperand (c :: rest) = none) (hc : Token.ofChar? c = none) :
    splitLiteral? f awaitsOperand (c :: rest') = none := by
  have hminus : (c :: rest').head? ≠ some '-' := by
    intro heq
    rw [Option.some.inj heq] at hc
    cases hc
  have hstops : ¬ startsNumber f (c :: rest') = true := by
    intro hstarts
    rw [h.startsNumber_eq] at hstarts
    rw [splitLiteral?_of_startsNumber awaitsOperand hstarts] at hsplit
    cases hsplit
  rw [splitLiteral?_of_ne_minus f awaitsOperand hminus, if_neg hstops]

theorem Loosened.detached {all : Bool} {text text' : List Char} (h : Loosened all text text')
    (f : NumberFormat) (awaitsOperand : Bool) (position position' : Nat) :
    (tokensFrom f awaitsOperand position text).Detached all awaitsOperand
      (tokensFrom f awaitsOperand position' text') := by
  fun_induction tokensFrom f awaitsOperand position text generalizing text' position' with
  | case1 awaitsOperand position =>
      cases h
      rw [tokensFrom]
      exact TokenStream.Detached.finish
  | case2 awaitsOperand position c rest hblank ih =>
      rcases h.exists_of_ofChar?_eq_none (Token.ofChar?_of_isBlank hblank) with
        ⟨rest', htext, hrest⟩
      rw [htext, tokensFrom_blank f awaitsOperand position' rest' hblank]
      exact ih hrest _
  | case3 awaitsOperand position c rest hblank found hfound value hvalue ih =>
      rcases splitLiteral?_cases (splitLiteral?_of_literal? hfound) with
        ⟨hminus, hawaits, hstarts, hliteral, hafter⟩ | ⟨_, hstarts, hliteral, hafter⟩
      · subst hminus hawaits
        rcases h.exists_replicate with ⟨before, after, rest', htext, hsign, hrest⟩
        -- Without spaces behind it the sign stays with its number, with spaces it is set apart.
        rw [hliteral] at hvalue
        rw [htext, tokensFrom_spaces]
        apply detached_signed hrest (fun hall => hsign hall rfl) hstarts hvalue
        intro position' text' hloosened
        rw [← hafter] at hloosened
        exact ih hloosened position'
      · rcases h.exists_of_ofChar?_eq_none (ofChar?_of_startsNumber hstarts) with
          ⟨rest', htext, hrest⟩
        subst htext
        rcases h.exists_splitLiteral? hstarts awaitsOperand with ⟨last, hsplit, hlast⟩
        rw [← hliteral] at hsplit
        rw [← hafter] at hlast
        rw [tokensFrom_number position' (Bool.eq_false_iff.mpr hblank) hsplit hvalue]
        rw [hliteral] at hvalue
        exact TokenStream.Detached.keep (fun _ => isNegative_of_readLiteral_spanRun hstarts hvalue)
          (ih hlast _)
  | case4 awaitsOperand position c rest hblank found hfound error herror =>
      rcases splitLiteral?_cases (splitLiteral?_of_literal? hfound) with
        ⟨hminus, hawaits, hstarts, hliteral, _⟩ | ⟨_, hstarts, hliteral, _⟩
      · subst hminus hawaits
        rcases h.exists_replicate with ⟨before, after, rest', htext, _, hrest⟩
        rw [hliteral] at herror
        rw [htext, tokensFrom_spaces]
        exact detached_signedFault hrest hstarts herror
      · rcases h.exists_of_ofChar?_eq_none (ofChar?_of_startsNumber hstarts) with
          ⟨rest', htext, hrest⟩
        subst htext
        rcases h.exists_splitLiteral? hstarts awaitsOperand with ⟨last, hsplit, _⟩
        rw [← hliteral] at hsplit
        rw [tokensFrom_malformed position' (Bool.eq_false_iff.mpr hblank) hsplit herror]
        exact TokenStream.Detached.fault rfl
  | case5 awaitsOperand position c rest hblank hfound token htoken ih =>
      rcases h.exists_replicate with ⟨before, after, rest', htext, _, hrest⟩
      -- Both texts may hold a minus sign that touches no number, or one behind a value.
      have hsingle : c = '-' ->
          ¬ (awaitsOperand = true ∧ startsNumber f (List.replicate after ' ' ++ rest') = true) := by
        intro hminus
        subst hminus
        exact hrest.not_signed (splitLiteral?_eq_none_iff.mpr hfound)
      rw [htext, tokensFrom_spaces, tokensFrom_unsigned _ htoken hsingle, tokensFrom_spaces]
      exact TokenStream.Detached.keep (fun _ => Token.isSigned_of_ofChar? htoken) (ih hrest _)
  | case6 awaitsOperand position c rest hblank hfound htoken =>
      rcases h.exists_of_ofChar?_eq_none htoken with ⟨rest', htext, _⟩
      subst htext
      have hsplit := h.splitLiteral?_foreign (splitLiteral?_eq_none_iff.mpr hfound) htoken
      rw [tokensFrom_foreign position' (Bool.eq_false_iff.mpr hblank) hsplit htoken]
      exact TokenStream.Detached.fault rfl

/-!
# Reading a loosened text
-/

def spaceMinus (text : List Char) : List Char :=
  text.flatMap fun c => if c = '-' then [c, ' '] else [c]

theorem loosened_spaceMinus (text : List Char) : Loosened true text (spaceMinus text) := by
  induction text with
  | nil => exact Loosened.nil
  | cons c text ih =>
      rw [spaceMinus, List.flatMap_cons]
      split
      · rename_i hminus
        subst hminus
        have hspaced :
            Loosened true ('-' :: text) ('-' :: (List.replicate 1 ' ' ++ spaceMinus text)) :=
          Loosened.behind rfl (fun _ _ => Nat.one_pos) ih
        exact hspaced
      · rename_i hother
        exact Loosened.keep (fun _ => hother) ih

end Scan

theorem Expr.ofText_loosened {all : Bool} {text text' : List Char}
    (h : Scan.Loosened all text text') (f : NumberFormat) :
    Mirrors (Expr.Detached all) (Expr.ofText f text) (Expr.ofText f text') :=
  Expr.ofTokens_detached (Scan.endsOnce_tokensFrom f true 0 text)
    (Scan.endsOnce_tokensFrom f true 0 text') (h.detached f true 0 0)

theorem evaluate_tooDeep_iff {f : NumberFormat} {text : List Char} :
    (evaluate f text).mapError EntryError.kind = .error .tooDeep <->
      (Expr.ofText f text).mapError EntryError.kind = .error .tooDeep := by
  rw [evaluate]
  cases Expr.ofText f text with
  | error error =>
      constructor
      · intro h
        exact congrArg Except.error (Except.error.inj h)
      · intro h
        exact congrArg Except.error (Except.error.inj h)
  | ok e =>
      constructor
      · intro h
        cases h
      · intro h
        cases h

/-- Loosening changes no value, unless it makes the entry too deep. -/
theorem evaluate_loosened {all : Bool} {text text' : List Char}
    (h : Scan.Loosened all text text') (f : NumberFormat) :
    (evaluate f text').mapError EntryError.kind = .error .tooDeep ∨
      (evaluate f text').mapError EntryError.kind = (evaluate f text).mapError EntryError.kind := by
  rw [evaluate_tooDeep_iff]
  exact (Expr.ofText_loosened h f).map_mapError fun _ _ => Expr.Detached.eval_eq

/-- A sign that belongs to a number means what a minus sign in front of it means. With a
space behind every minus sign no number has a sign of its own; what is read then is the tree
with its signs detached, and the value or the kind of error stays. Only the depth can differ:
every detached sign takes one level. -/
theorem Expr.ofText_spaceMinus (f : NumberFormat) (text : List Char) :
    ((ofText f (Scan.spaceMinus text)).mapError EntryError.kind ≠ .error .tooDeep ->
      (ofText f (Scan.spaceMinus text)).mapError EntryError.kind =
          ((ofText f text).map detachSigns).mapError EntryError.kind ∧
        (evaluate f (Scan.spaceMinus text)).mapError EntryError.kind =
          (evaluate f text).mapError EntryError.kind) ∧
    ((ofText f text).mapError EntryError.kind = .error .tooDeep ->
      (ofText f (Scan.spaceMinus text)).mapError EntryError.kind = .error .tooDeep) := by
  have hmirrors := ofText_loosened (Scan.loosened_spaceMinus text) f
  have hsame : forall e e' : Expr, e.Detached true e' -> id e' = e.detachSigns :=
    fun _ _ => Detached.eq_detachSigns
  have htree := hmirrors.map_mapError hsame
  have hvalue := evaluate_loosened (Scan.loosened_spaceMinus text) f
  rw [Except.map_id, id] at htree
  rw [evaluate_tooDeep_iff] at hvalue
  constructor
  · intro hshallow
    exact ⟨htree.resolve_left hshallow, hvalue.resolve_left hshallow⟩
  · exact hmirrors.tooDeep_of_tooDeep

theorem Expr.ofText_spaceMinus_signs :
    (ofText .standard "-2^-1--.5".toList =
        .ok (.binary .minus
          (.binary .power (.number (Float.ofBits 0xC000000000000000))
            (.number (Float.ofBits 0xBFF0000000000000)))
          (.number (Float.ofBits 0xBFE0000000000000))) ∧
      (ofText .standard "- 2^- 1- - .5".toList).mapError EntryError.kind =
        .ok (.binary .minus
          (.binary .power (.negate (.number (Float.ofBits 0x4000000000000000)))
            (.negate (.number (Float.ofBits 0x3FF0000000000000))))
          (.negate (.number (Float.ofBits 0x3FE0000000000000)))) ∧
      (evaluate .standard "- 2^- 1- - .5".toList).mapError EntryError.kind =
        (evaluate .standard "-2^-1--.5".toList).mapError EntryError.kind) ∧
    (ofText .standard (Scan.spaceMinus (List.replicate 300 '-'))).mapError EntryError.kind =
      .error .tooDeep := by
  have hspaced : Scan.spaceMinus "-2^-1--.5".toList = "- 2^- 1- - .5".toList := rfl
  have hread : ofText .standard "-2^-1--.5".toList =
      .ok (.binary .minus
        (.binary .power (.number (Float.ofBits 0xC000000000000000))
          (.number (Float.ofBits 0xBFF0000000000000)))
        (.number (Float.ofBits 0xBFE0000000000000))) := by
    decide +kernel
  constructor
  · rcases (ofText_spaceMinus .standard "-2^-1--.5".toList).left (by decide +kernel) with
      ⟨htree, hvalue⟩
    rw [hspaced] at htree hvalue
    refine ⟨hread, htree.trans ?_, hvalue⟩
    rw [hread]
    decide +kernel
  · exact (ofText_spaceMinus .standard (List.replicate 300 '-')).right (by decide +kernel)

end RegionalCalculator
