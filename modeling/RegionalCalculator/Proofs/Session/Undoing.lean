import Mathlib.Data.List.DropRight
import RegionalCalculator.Session.Window

/-!
# Taking keys back

Each key of the keypad puts one character into the entry, and around it spaces that depend
on what the entry ends with. Deleting takes away the last character together with the
spaces on both sides, which is all that the last key has put in. The spaces that the entry
ended with before are lost on the way, but no deletion and no further key depends on them.
-/

namespace RegionalCalculator
namespace Entry

/-!
# Spaces at the end
-/

theorem trimSpaces_eq_rdropWhile (entry : List Char) :
    trimSpaces entry = entry.rdropWhile fun c => c == ' ' :=
  rfl

theorem trimSpaces_trimSpaces (entry : List Char) :
    trimSpaces (trimSpaces entry) = trimSpaces entry :=
  List.rdropWhile_idempotent _ entry

theorem trimSpaces_concat_space (entry : List Char) :
    trimSpaces (entry ++ [' ']) = trimSpaces entry :=
  List.rdropWhile_concat_pos _ entry ' ' rfl

theorem trimSpaces_concat {c : Char} (h : c ≠ ' ') (entry : List Char) :
    trimSpaces (entry ++ [c]) = entry ++ [c] := by
  apply List.rdropWhile_concat_neg
  simpa using h

theorem exists_eq_trimSpaces_append (entry : List Char) :
    exists count, entry = trimSpaces entry ++ List.replicate count ' ' ∧
      (trimSpaces entry).getLast? ≠ some ' ' := by
  have hspaces : forall c, c ∈ entry.rtakeWhile (fun c => c == ' ') -> c = ' ' := by
    intro c hc
    simpa using List.mem_rtakeWhile_imp hc
  have hcut : trimSpaces entry ++ entry.rtakeWhile (fun c => c == ' ') = entry :=
    List.rdropWhile_append_rtakeWhile
  rw [List.eq_replicate_of_mem hspaces] at hcut
  refine ⟨_, hcut.symm, ?_⟩
  intro hlast
  rcases List.getLast?_eq_some_iff.mp hlast with ⟨front, hfront⟩
  -- Then there would be something left to trim.
  have hagain := trimSpaces_trimSpaces entry
  rw [hfront, trimSpaces_concat_space] at hagain
  have hprefix := (List.rdropWhile_prefix (fun c => c == ' ') (l := front)).length_le
  rw [← trimSpaces_eq_rdropWhile, hagain] at hprefix
  simp only [List.length_append, List.length_singleton] at hprefix
  exact Nat.not_succ_le_self _ hprefix

theorem trimSpaces_append_replicate {trimmed : List Char} (h : trimmed.getLast? ≠ some ' ')
    (count : Nat) : trimSpaces (trimmed ++ List.replicate count ' ') = trimmed := by
  induction count with
  | zero =>
      rw [List.replicate_zero, List.append_nil]
      rcases List.eq_nil_or_concat' trimmed with hnil | ⟨front, c, hconcat⟩
      · rw [hnil]
        rfl
      · rw [hconcat] at h ⊢
        apply trimSpaces_concat
        simpa using h
  | succ count ih =>
      rw [List.replicate_succ', ← List.append_assoc, trimSpaces_concat_space, ih]

/-!
# Deleting

What deleting gives is trimmed, and it does not depend on the spaces at the end.
-/

theorem trimSpaces_deleteLast (entry : List Char) :
    trimSpaces (deleteLast entry) = deleteLast entry :=
  trimSpaces_trimSpaces _

theorem deleteLast_trimSpaces (entry : List Char) :
    deleteLast (trimSpaces entry) = deleteLast entry := by
  unfold deleteLast
  rw [trimSpaces_trimSpaces]

theorem deleteLast_concat {c : Char} (h : c ≠ ' ') (entry : List Char) :
    deleteLast (entry ++ [c]) = trimSpaces entry := by
  unfold deleteLast
  rw [trimSpaces_concat h, List.dropLast_concat]

theorem deleteLast_concat_space (entry : List Char) :
    deleteLast (entry ++ [' ']) = deleteLast entry := by
  unfold deleteLast
  rw [trimSpaces_concat_space]

theorem deleteLast_insert (entry : List Char) (insertion : Insertion) :
    deleteLast (insert entry insertion) = trimSpaces entry := by
  have hsymbol := insertion.symbol_ne_space
  cases insertion with
  | digit d => exact deleteLast_concat hsymbol entry
  | decimal mark => exact deleteLast_concat hsymbol entry
  | openParen =>
      rw [insert, deleteLast_concat hsymbol]
      split
      · exact trimSpaces_concat_space entry
      · rfl
  | closeParen =>
      rw [insert, deleteLast_concat hsymbol]
      exact trimSpaces_trimSpaces entry
  | operator op =>
      have hspaced (before : List Char) :
          deleteLast (before ++ [op.symbol, ' ']) = trimSpaces before := by
        rw [List.append_cons, deleteLast_concat_space]
        exact deleteLast_concat hsymbol before
      show deleteLast
        ((if (trimSpaces entry).isEmpty then [] else trimSpaces entry ++ [' ']) ++
          [op.symbol, ' ']) = _
      rw [hspaced]
      split
      · rename_i hempty
        rw [List.isEmpty_iff.mp hempty]
        rfl
      · rw [trimSpaces_concat_space, trimSpaces_trimSpaces]

end Entry

/-!
# Keys and deletions at the window
-/

/-- The keys are pressed in this order, and then DEL as many times. -/
def Gesture.typeAndDelete (insertions : List Insertion) : List Gesture :=
  (insertions.map fun insertion => .press (.insert insertion)) ++
    List.replicate insertions.length (.press .delete)

namespace Session

def tidied (s : Session) : Session :=
  { s with entry := Entry.trimSpaces s.entry, focused := true }

theorem tidied_delete (s : Session) :
    (s.react (.press .delete)).tidied = s.react (.press .delete) := by
  simp [react, pressKey, tidied, Entry.trimSpaces_deleteLast]

theorem delete_tidied (s : Session) :
    s.tidied.react (.press .delete) = s.react (.press .delete) := by
  simp [react, pressKey, tidied, Entry.deleteLast_trimSpaces]

theorem delete_insert (s : Session) (insertion : Insertion) :
    (s.react (.press (.insert insertion))).react (.press .delete) = s.tidied := by
  simp [react, pressKey, tidied, Entry.deleteLast_insert]

theorem foldl_typeAndDelete_cons (s : Session) (insertion : Insertion)
    (insertions : List Insertion) :
    (Gesture.typeAndDelete (insertion :: insertions)).foldl react s =
      ((Gesture.typeAndDelete insertions).foldl react
        (s.react (.press (.insert insertion)))).react (.press .delete) := by
  unfold Gesture.typeAndDelete
  rw [List.length_cons, List.replicate_succ', List.map_cons, List.cons_append, List.foldl_cons,
    ← List.append_assoc, List.foldl_concat]

/-- The invariant of the keys that are taken back: up to the spaces at its end, the entry is
what it was before them. -/
theorem tidied_foldl_typeAndDelete (s : Session) (insertions : List Insertion) :
    ((Gesture.typeAndDelete insertions).foldl react s).tidied = s.tidied := by
  induction insertions generalizing s with
  | nil => rfl
  | cons insertion insertions ih =>
      rw [foldl_typeAndDelete_cons, tidied_delete, ← delete_tidied, ih, delete_tidied,
        delete_insert]

/-- Keys that are pressed and then deleted one by one leave an entry as it was, without the
spaces that it ended with, and everything else of the session too. -/
theorem foldl_typeAndDelete (s : Session) {insertions : List Insertion}
    (hkeys : insertions ≠ []) :
    exists trimmed count, s.entry = trimmed ++ List.replicate count ' ' ∧
      trimmed.getLast? ≠ some ' ' ∧
      (Gesture.typeAndDelete insertions).foldl react s =
        { s with entry := trimmed, focused := true } := by
  rcases Entry.exists_eq_trimSpaces_append s.entry with ⟨count, hentry, hlast⟩
  refine ⟨Entry.trimSpaces s.entry, count, hentry, hlast, ?_⟩
  cases insertions with
  | nil => exact absurd rfl hkeys
  | cons insertion insertions =>
      rw [foldl_typeAndDelete_cons, ← delete_tidied, tidied_foldl_typeAndDelete, delete_tidied,
        delete_insert]
      rfl

theorem foldl_typeAndDelete_parens :
    (Gesture.typeAndDelete [.openParen, .operator .minus, .closeParen]).foldl react
        { start .standard with entry := "2\u00a0  ".toList } =
      { start .standard with entry := "2\u00a0".toList, focused := true } := by
  rcases @foldl_typeAndDelete { start .standard with entry := "2\u00a0  ".toList }
      [.openParen, .operator .minus, .closeParen] (List.cons_ne_nil _ _) with
    ⟨trimmed, count, hentry, hlast, hrun⟩
  have htrimmed : trimmed = "2\u00a0".toList := by
    rw [← Entry.trimSpaces_append_replicate hlast count, ← hentry]
    decide
  rw [hrun, htrimmed]

end Session
end RegionalCalculator
