import RegionalCalculator.Proofs.Reading.Cause
import RegionalCalculator.Proofs.Reading.Relocation
import RegionalCalculator.Proofs.Writing.Canonical

/-!
# What is wrong with the literals of an entry

Any text can be taken for a literal, and then much can be wrong with it. The literals that
are found in an entry are runs of a number: there is a digit in each of them, and nothing
that is foreign to the format. So all that can be wrong there is a second decimal mark, or a
grouping mark behind the decimal mark, and in an ambiguous format nothing at all.
-/

namespace RegionalCalculator

open Numeral

/-!
# Runs as literals
-/

namespace Scan

variable {f : NumberFormat} {run rest literal : List Char} {negative : Bool}

theorem Run.not_hasForeign (h : Run f run rest) : ¬ HasForeign f run := by
  rintro ⟨c, hc, hdigit, hdecimal, hgroup⟩
  rcases List.append_of_mem hc with ⟨front, back, hrun⟩
  rcases h.inside front c back hrun with hinside | hinside | ⟨hinside, _⟩
  · rw [hinside] at hdigit
    cases hdigit
  · exact hdecimal hinside
  · rw [hinside] at hgroup
    cases hgroup

theorem Run.hasDigit (h : Run f run rest) : HasDigit run := by
  rcases h.starts with ⟨c, tail, hrun, hdigit | ⟨_, digit, others, htail, hdigit⟩⟩
  · exact ⟨c, by simp [hrun], hdigit⟩
  · exact ⟨digit, by simp [hrun, htail], hdigit⟩

theorem Run.head?_ne_minus (h : Run f run rest) : run.head? ≠ some '-' := by
  rcases h.starts with ⟨c, tail, rfl, hstarts⟩
  exact Scan.head?_ne_minus (startsNumber_cons_iff.mpr hstarts)

theorem count_withSign (f : NumberFormat) (negative : Bool) (run : List Char) :
    (withSign negative run).count f.decimal.toChar = run.count f.decimal.toChar := by
  cases negative with
  | false => rfl
  | true => cases hdecimal : f.decimal <;> simp [withSign, DecimalMark.toChar]

theorem sublist_withSign (negative : Bool) (run : List Char) :
    List.Sublist run (withSign negative run) :=
  List.sublist_append_right _ _

theorem count_eq_one (hrepeated : ¬ RepeatsDecimal f run) (hgrouped : GroupsDecimals f run) :
    run.count f.decimal.toChar = 1 := by
  rcases hgrouped with ⟨mark, _, hsublist⟩
  have hmem : f.decimal.toChar ∈ run := hsublist.subset List.mem_cons_self
  have hpos : 0 < run.count f.decimal.toChar := List.count_pos_iff.mpr hmem
  have hlt : ¬ 2 <= run.count f.decimal.toChar := by
    intro hle
    exact hrepeated (two_le_countP_iff.mp hle)
  omega

/-- The run of a number can only be refused for the marks in it. -/
theorem Run.misplaced_of_readLiteral (h : Run f run rest) {error : EntryError}
    (hread : readLiteral f (withSign negative run) = .error error) :
    f.isAmbiguous = false ∧
      (error = .malformedLiteral (withSign negative run) .repeatedDecimal ∧
          RepeatsDecimal f (withSign negative run) ∨
        error = .malformedLiteral (withSign negative run) .groupAfterDecimal ∧
          (withSign negative run).count f.decimal.toChar = 1 ∧
          GroupsDecimals f (withSign negative run)) := by
  have hsublist := sublist_withSign negative run
  have hbody := body_withSign negative h.head?_ne_minus
  rcases exists_normalizes f (withSign negative run) with ⟨outcome, houtcome⟩
  have hrefused := map_toChars_of_normalizes houtcome
  rw [normalizeLiteral_of_readLiteral hread] at hrefused
  subst hrefused
  cases houtcome with
  | foreign hforeign =>
      rw [hbody] at hforeign
      exact absurd hforeign h.not_hasForeign
  | noDigit _ hdigit =>
      rw [hbody] at hdigit
      exact absurd h.hasDigit hdigit
  | repeated _ _ hambiguous hrepeated =>
      rw [hbody] at hrepeated
      exact ⟨hambiguous, Or.inl ⟨rfl, hrepeated.trans hsublist⟩⟩
  | grouped _ _ hambiguous hrepeated hgrouped =>
      rw [hbody] at hrepeated hgrouped
      have hcount := count_eq_one hrepeated hgrouped
      rw [← count_withSign f negative] at hcount
      rcases hgrouped with ⟨mark, hmark, hbehind⟩
      exact ⟨hambiguous, Or.inr ⟨rfl, hcount, mark, hmark, hbehind.trans hsublist⟩⟩

end Scan

/-!
# From the error to the run
-/

theorem TokenStream.mem_items_of_tokens {s : TokenStream} {error : EntryError}
    (h : s.tokens = .error error) : .error error ∈ s.items := by
  induction s with
  | finish position => cases h
  | fault found =>
      cases h
      exact List.mem_singleton_self _
  | next position token rest ih =>
      rw [tokens] at h
      cases hrest : rest.tokens with
      | ok others =>
          rw [hrest] at h
          cases h
      | error found =>
          rw [hrest] at h
          cases h
          exact List.mem_cons_of_mem _ (ih hrest)

namespace Nesting

variable {error : EntryError}

theorem mem_items_of_run {place : Nesting} {next : Due}
    {items : List (Except EntryError (Nat × Token))} (hmet : error.isStructural = false)
    (h : place.run next items = .error error) : .error error ∈ items := by
  induction items generalizing place next with
  | nil => cases h
  | cons item items ih =>
      cases item with
      | error found =>
          cases h
          exact List.mem_cons_self
      | ok positioned =>
          rcases run_cons_error h with hstep | ⟨after, _, hrest⟩
          · rw [isStructural_of_step hstep] at hmet
            cases hmet
          · exact List.mem_cons_of_mem _ (ih hrest)

theorem mem_items_of_ofTokens {s : TokenStream} (hends : s.EndsOnce)
    (hmet : error.isStructural = false) (h : Expr.ofTokens s = .error error) :
    .error error ∈ s.items := by
  have hverdict := verdict_items hends
  rw [h] at hverdict
  rcases s.finish_or_ne with ⟨position, rfl⟩ | hs
  · cases h
    cases hmet
  · rw [verdict_eq_run hends hs] at hverdict
    exact mem_items_of_run hmet hverdict.symm

end Nesting

theorem Scan.Tiled.exists_run {f : NumberFormat} {due : Prop} {position : Nat}
    {text literal : List Char} {fault : LiteralFault}
    {items : List (Except EntryError (Nat × Token))} (h : Tiled f due position text items)
    (hmem : .error (.malformedLiteral literal fault) ∈ items) :
    exists negative run rest, literal = withSign negative run ∧ Run f run rest ∧
      readLiteral f literal = .error (.malformedLiteral literal fault) := by
  induction h with
  | last _ hcloses =>
      rw [List.mem_singleton] at hmem
      rw [← hmem] at hcloses
      cases hcloses with
      | malformed hrun _ hread =>
          rcases readLiteral_eq_error_iff.mp hread with ⟨_, _, herror⟩
          cases herror
          exact ⟨_, _, _, rfl, hrun, hread⟩
  | token _ _ _ ih =>
      rcases List.mem_cons.mp hmem with hhere | hlater
      · cases hhere
      · exact ih hlater

/-- Whether an entry is evaluated or only cut into tokens, a literal is refused for one of two
reasons, and the marks that are to blame stand in it. No literal is refused in an ambiguous
format. -/
theorem misplaced_of_malformedLiteral {f : NumberFormat} {entry literal : List Char}
    {fault : LiteralFault}
    (h : evaluate f entry = .error (.malformedLiteral literal fault) ∨
      (TokenStream.ofText f entry).tokens = .error (.malformedLiteral literal fault)) :
    f.isAmbiguous = false ∧
      (fault = .repeatedDecimal ∧ fault.reason = "séparateur décimal répété" ∧
          RepeatsDecimal f literal ∨
        fault = .groupAfterDecimal ∧
          fault.reason = "séparateur de milliers après le séparateur décimal" ∧
          literal.count f.decimal.toChar = 1 ∧ GroupsDecimals f literal) := by
  have hitem : .error (.malformedLiteral literal fault) ∈ (TokenStream.ofText f entry).items := by
    rcases h with hvalue | htokens
    · exact Nesting.mem_items_of_ofTokens (Scan.endsOnce_tokensFrom f true 0 entry) rfl
        (evaluate_eq_error_iff.mp hvalue)
    · exact TokenStream.mem_items_of_tokens htokens
  have htiled := Scan.tiled_tokensFrom f 0 entry (iff_of_true True.intro rfl)
  rcases htiled.exists_run hitem with ⟨negative, run, rest, rfl, hrun, hread⟩
  rcases hrun.misplaced_of_readLiteral hread with ⟨hambiguous, hmarks⟩
  refine ⟨hambiguous, ?_⟩
  rcases hmarks with ⟨herror, hrepeated⟩ | ⟨herror, hcount, hgrouped⟩
  · cases herror
    exact Or.inl ⟨rfl, rfl, hrepeated⟩
  · cases herror
    exact Or.inr ⟨rfl, rfl, hcount, hgrouped⟩

theorem misplaced_of_malformedLiteral_narrow_space :
    evaluate NamedFormat.spaceDot.format "1+-2.5\u202f000".toList =
        .error (.malformedLiteral "-2.5\u202f000".toList .groupAfterDecimal) ∧
      "-2.5\u202f000".toList.count '.' = 1 ∧
      GroupsDecimals NamedFormat.spaceDot.format "-2.5\u202f000".toList := by
  have h : evaluate NamedFormat.spaceDot.format "1+-2.5\u202f000".toList =
      .error (.malformedLiteral "-2.5\u202f000".toList .groupAfterDecimal) := by
    decide +kernel
  rcases (misplaced_of_malformedLiteral (Or.inl h)).right with ⟨hfault, _⟩ | ⟨_, _, hmarks⟩
  · cases hfault
  · exact ⟨h, hmarks⟩

end RegionalCalculator
