import RegionalCalculator.Evaluation
import RegionalCalculator.Proofs.Scanning.Exchange

/-!
# What a format is for reading

Reading looks at the two marks of a format and at nothing else, so formats with the same marks
give every entry the same value or the same error. Formats with different marks disagree on
some entry, namely on a number that is written with the marks of one of them.
-/

namespace RegionalCalculator

variable {f g : NumberFormat}

/-!
# Formats with the same marks

The same marks are exchanged marks of which none has moved.
-/

def MarkExchange.refl : MarkExchange :=
  { perm := Equiv.refl Char
    fixes := fun _ _ => rfl }

theorem MarkExchange.carries_refl (h : f.sameMarks g = true) : MarkExchange.refl.Carries f g := by
  rcases NumberFormat.sameMarks_iff.mp h with ⟨hdecimal, hgroup⟩
  constructor
  · rw [← hdecimal]
    rfl
  · rw [← hgroup]
    rfl

theorem EntryError.mapChars_refl (error : EntryError) :
    error.mapChars MarkExchange.refl = error := by
  cases error with
  | malformedLiteral text fault => exact congrArg (malformedLiteral · fault) (List.map_id text)
  | unexpectedCharacter c position => rfl
  | emptyEntry => rfl
  | unmatchedParen position => rfl
  | trailingInput position => rfl
  | unexpectedToken token position => rfl
  | tooDeep limit => rfl

theorem evaluate_eq_of_sameMarks (h : f.sameMarks g = true) (entry : List Char) :
    evaluate g entry = evaluate f entry := by
  have hscan := MarkExchange.ofText_map (MarkExchange.carries_refl h) entry
  have hentry : entry.map MarkExchange.refl = entry := List.map_id entry
  rw [hentry, TokenStream.mapFault_of_fixes EntryError.mapChars_refl] at hscan
  rw [evaluate, evaluate, Expr.ofText, Expr.ofText, hscan]

/-!
# Formats with different marks
-/

namespace NumberFormat

/-- Twelve and a half, with a grouping mark behind its first digit if the format has one. -/
def specimen (f : NumberFormat) : List Char :=
  '1' :: (f.group.map GroupMark.toChar).toList ++ ['2', f.decimal.toChar, '5']

def everyMarks : List NumberFormat :=
  [DecimalMark.point, .comma].flatMap fun decimal =>
    [none, some GroupMark.comma, some .point, some .apostrophe, some .space].map fun group =>
      { decimal := decimal, group := group }

theorem exists_mem_everyMarks (f : NumberFormat) :
    exists g, g ∈ everyMarks ∧ f.sameMarks g = true := by
  refine ⟨{ f with hidesDecimals := false }, ?_, f.sameMarks_refl⟩
  rw [everyMarks, List.mem_flatMap]
  refine ⟨f.decimal, ?_, List.mem_map.mpr ⟨f.group, ?_, rfl⟩⟩
  · cases f.decimal <;> decide
  · cases f.group with
    | none => decide
    | some mark => cases mark <;> decide

theorem specimen_eq_of_sameMarks (h : f.sameMarks g = true) : g.specimen = f.specimen := by
  rcases sameMarks_iff.mp h with ⟨hdecimal, hgroup⟩
  rw [specimen, specimen, hdecimal, hgroup]

theorem evaluate_specimen_everyMarks :
    (everyMarks.all fun f => everyMarks.all fun g =>
      decide (evaluate g f.specimen = .ok (Float.ofBits 0x4029000000000000)) ==
        (f.decimal == g.decimal && (f.group.isNone || f.group == g.group))) = true := by
  decide +kernel

theorem evaluate_specimen_iff (f g : NumberFormat) :
    evaluate g f.specimen = .ok (Float.ofBits 0x4029000000000000) <->
      f.decimal = g.decimal ∧ (f.group = none ∨ f.group = g.group) := by
  rcases f.exists_mem_everyMarks with ⟨f', hf', hf⟩
  rcases g.exists_mem_everyMarks with ⟨g', hg', hg⟩
  have htable :=
    List.all_eq_true.mp (List.all_eq_true.mp evaluate_specimen_everyMarks f' hf') g' hg'
  rw [evaluate_eq_of_sameMarks hg, specimen_eq_of_sameMarks hf, beq_iff_eq, Bool.eq_iff_iff,
    decide_eq_true_iff, Bool.and_eq_true, Bool.or_eq_true, beq_iff_eq, beq_iff_eq,
    Option.isNone_iff_eq_none] at htable
  rcases sameMarks_iff.mp hf with ⟨hfdecimal, hfgroup⟩
  rcases sameMarks_iff.mp hg with ⟨hgdecimal, hggroup⟩
  rw [hfdecimal, hfgroup, hgdecimal, hggroup]
  exact htable

end NumberFormat

/-- Two formats read every entry alike exactly if they have the same marks. -/
theorem forall_evaluate_eq_iff (f g : NumberFormat) :
    (forall entry, evaluate f entry = evaluate g entry) <-> f.sameMarks g = true := by
  constructor
  · intro h
    have hself : forall f : NumberFormat,
        evaluate f f.specimen = .ok (Float.ofBits 0x4029000000000000) :=
      fun f => (f.evaluate_specimen_iff f).mpr ⟨rfl, Or.inr rfl⟩
    have hf := (f.evaluate_specimen_iff g).mp ((h f.specimen).symm.trans (hself f))
    have hg := (g.evaluate_specimen_iff f).mp ((h g.specimen).trans (hself g))
    refine NumberFormat.sameMarks_iff.mpr ⟨hf.left, ?_⟩
    -- A format without a grouping mark reads no specimen that has one.
    rcases hf.right with hnone | hgroup
    · rcases hg.right with hnone' | hgroup
      · rw [hnone, hnone']
      · exact hgroup.symm
    · exact hgroup
  · intro h entry
    exact (evaluate_eq_of_sameMarks h entry).symm

end RegionalCalculator
