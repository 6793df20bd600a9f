import RegionalCalculator.Proofs.Scanning.Loosening
import RegionalCalculator.Session.Window

/-!
# Writing with the keypad

The keypad puts spaces around what it inserts and takes spaces away with what it deletes.
Apart from these spaces the entry is what was typed: the symbols of the insertions, each
deletion taking the last one back. The spaces stand beside operators and parentheses only,
whatever the order of insertions and deletions, so that the entry has the value of the typed
text in every format.
-/

namespace RegionalCalculator

open Scan

/-!
# What was typed
-/

namespace Gesture

/-- The typed text after a gesture: a key pushes its symbol, and DEL takes the last one
away. -/
def typedAfter (typed : List Char) : Gesture -> List Char
  | .press (.insert insertion) => typed ++ [insertion.symbol]
  | .press .delete => typed.dropLast
  | .press .clearEntry => []
  | .press .resetAll => []
  | .pressEscape => []
  | _ => typed

def isAssignment : Gesture -> Bool
  | .assignEntry _ => true
  | _ => false

end Gesture

namespace Entry

/-- The entry is the typed text with spaces around operators and parentheses. Both are
compared from their ends, where the keys change them. -/
structure Shows (typed entry : List Char) : Prop where
  loosened : Loosened false typed.reverse entry.reverse
  unspaced : ' ' ∉ typed

variable {typed entry text text' : List Char} {c : Char} {token : Token}

theorem Shows.nil : Shows [] [] :=
  ⟨Loosened.nil, List.not_mem_nil⟩

/-!
# Deleting

Seen from the end, deleting takes the spaces in front away, then one character, then again
the spaces in front.
-/

theorem dropWhile_of_ne_space (h : c ≠ ' ') (text : List Char) :
    (c :: text).dropWhile (fun c => c == ' ') = c :: text := by
  rw [List.dropWhile_cons_of_neg]
  rw [beq_iff_eq]
  exact h

theorem dropWhile_spaces (n : Nat) (text : List Char) :
    (List.replicate n ' ' ++ text).dropWhile (fun c => c == ' ') =
      text.dropWhile (fun c => c == ' ') := by
  rw [List.dropWhile_append_of_pos]
  intro c hmem
  rw [List.eq_of_mem_replicate hmem]
  rfl

theorem loosened_dropWhile (h : Loosened false text text') (hspace : ' ' ∉ text) :
    Loosened false text (text'.dropWhile fun c => c == ' ') := by
  cases h with
  | nil => exact Loosened.nil
  | keep hminus hrest =>
      rw [dropWhile_of_ne_space (List.ne_of_not_mem_cons hspace).symm]
      exact Loosened.keep hminus hrest
  | single htoken hsign hrest =>
      rw [dropWhile_spaces, dropWhile_of_ne_space (List.ne_of_not_mem_cons hspace).symm]
      exact Loosened.behind htoken hsign hrest

theorem loosened_tail (h : Loosened false text text') (hspace : ' ' ∉ text) :
    Loosened false text.tail
      ((text'.dropWhile fun c => c == ' ').tail.dropWhile fun c => c == ' ') := by
  cases h with
  | nil => exact Loosened.nil
  | keep _ hrest =>
      rw [dropWhile_of_ne_space (List.ne_of_not_mem_cons hspace).symm]
      exact loosened_dropWhile hrest (List.not_mem_of_not_mem_cons hspace)
  | single htoken _ hrest =>
      rw [dropWhile_spaces, dropWhile_of_ne_space (List.ne_of_not_mem_cons hspace).symm,
        List.tail_cons, List.tail_cons, dropWhile_spaces]
      exact loosened_dropWhile hrest (List.not_mem_of_not_mem_cons hspace)

theorem Shows.not_mem_reverse (h : Shows typed entry) : ' ' ∉ typed.reverse :=
  fun hmem => h.unspaced (List.mem_reverse.mp hmem)

theorem Shows.trimSpaces (h : Shows typed entry) : Shows typed (trimSpaces entry) := by
  constructor
  · rw [Entry.trimSpaces, List.reverse_reverse]
    exact loosened_dropWhile h.loosened h.not_mem_reverse
  · exact h.unspaced

theorem Shows.deleteLast (h : Shows typed entry) : Shows typed.dropLast (deleteLast entry) := by
  constructor
  · rw [Entry.deleteLast, Entry.trimSpaces, List.reverse_reverse, ← List.tail_reverse,
      ← List.tail_reverse, Entry.trimSpaces, List.reverse_reverse]
    exact loosened_tail h.loosened h.not_mem_reverse
  · exact fun hmem => h.unspaced (List.mem_of_mem_dropLast hmem)

/-!
# Insertions
-/

theorem unspaced_concat (h : ' ' ∉ typed) (insertion : Insertion) :
    ' ' ∉ typed ++ [insertion.symbol] := by
  rw [List.mem_append, List.mem_singleton, not_or]
  exact ⟨h, insertion.symbol_ne_space.symm⟩

theorem Shows.push (h : Shows typed entry) (insertion : Insertion) :
    Shows (typed ++ [insertion.symbol]) (entry ++ [insertion.symbol]) := by
  constructor
  · rw [List.reverse_concat, List.reverse_concat]
    exact Loosened.keep (fun hall => Bool.noConfusion hall) h.loosened
  · exact unspaced_concat h.unspaced insertion

theorem Shows.pushSpaced (h : Shows typed entry) (insertion : Insertion)
    (htoken : Token.ofChar? insertion.symbol = some token) (before after : Nat) :
    Shows (typed ++ [insertion.symbol])
      (entry ++ (List.replicate before ' ' ++ insertion.symbol :: List.replicate after ' ')) := by
  constructor
  · have hsides : (entry ++ (List.replicate before ' ' ++
          insertion.symbol :: List.replicate after ' ')).reverse =
        List.replicate after ' ' ++ insertion.symbol ::
          (List.replicate before ' ' ++ entry.reverse) := by
      simp
    rw [hsides, List.reverse_concat]
    exact Loosened.single htoken (fun hall => Bool.noConfusion hall) h.loosened
  · exact unspaced_concat h.unspaced insertion

theorem Shows.insert (h : Shows typed entry) (insertion : Insertion) :
    Shows (typed ++ [insertion.symbol]) (insert entry insertion) := by
  cases insertion with
  | digit d => exact h.push (.digit d)
  | decimal mark => exact h.push (.decimal mark)
  | openParen =>
      rw [Entry.insert]
      split
      · rw [List.append_assoc]
        exact h.pushSpaced .openParen rfl 1 0
      · exact h.push .openParen
  | closeParen => exact h.trimSpaces.push .closeParen
  | operator op =>
      rw [Entry.insert]
      have htoken := op.token_ofChar?_symbol
      split
      · rename_i hempty
        have hspaced := h.trimSpaces.pushSpaced (.operator op) htoken 0 1
        rw [List.isEmpty_iff.mp hempty] at hspaced
        exact hspaced
      · rw [List.append_assoc]
        exact h.trimSpaces.pushSpaced (.operator op) htoken 1 1

end Entry

/-!
# Runs of gestures
-/

namespace Session

theorem entry_compute (s : Session) : s.compute.entry = s.entry := by
  rw [compute_frame]

/-- The invariant of a gesture: the entry goes on showing what was typed. -/
theorem shows_react {s : Session} {typed : List Char} (h : Entry.Shows typed s.entry)
    {g : Gesture} (hkeys : g.isAssignment = false) :
    Entry.Shows (g.typedAfter typed) (s.react g).entry := by
  cases g with
  | assignEntry text => cases hkeys
  | press key =>
      cases key with
      | insert insertion => exact h.insert insertion
      | delete => exact h.deleteLast
      | clearEntry => exact Entry.Shows.nil
      | clearResults => exact h
      | resetAll => exact Entry.Shows.nil
      | equals =>
          rw [react, pressKey, entry_compute]
          exact h
  | pickFormat n =>
      rw [react]
      split
      · exact h
      · exact h
  | toggleDecimals => exact h
  | pressEscape => exact Entry.Shows.nil
  | pressEnter focused =>
      cases focused with
      | true =>
          rw [react, entry_compute]
          exact h
      | false => exact h
  | writeSetting f => exact h

theorem shows_run {s : Session} {typed : List Char} (h : Entry.Shows typed s.entry)
    {gestures : List Gesture} (hkeys : forall g, g ∈ gestures -> g.isAssignment = false) :
    Entry.Shows (gestures.foldl Gesture.typedAfter typed) (gestures.foldl react s).entry := by
  induction gestures generalizing s typed with
  | nil => exact h
  | cons g gestures ih =>
      rw [List.forall_mem_cons] at hkeys
      exact ih (shows_react h hkeys.left) hkeys.right

/-- From an empty entry on, the spaces that the keys put in make no difference: without them
the entry is what was typed, and in every format it has the value of the typed text, or is
refused for the same kind of error, unless it has become too deep. -/
theorem evaluate_typed (s : Session) (hempty : s.entry = []) (gestures : List Gesture)
    (hkeys : forall g, g ∈ gestures -> g.isAssignment = false) :
    (gestures.foldl react s).entry.filter (fun c => c != ' ') =
        gestures.foldl Gesture.typedAfter [] ∧
      forall f : NumberFormat,
        (evaluate f (gestures.foldl react s).entry).mapError EntryError.kind = .error .tooDeep ∨
          (evaluate f (gestures.foldl react s).entry).mapError EntryError.kind =
            (evaluate f (gestures.foldl Gesture.typedAfter [])).mapError EntryError.kind := by
  have hstart : Entry.Shows [] s.entry := by
    rw [hempty]
    exact Entry.Shows.nil
  have hshows := shows_run hstart hkeys
  -- The invariant looks at the entry from its end, scanning starts at its beginning.
  have hloosened := hshows.loosened.reverse
  rw [List.reverse_reverse, List.reverse_reverse] at hloosened
  constructor
  · rw [hloosened.filter_eq, List.filter_eq_self]
    intro c hmem
    rw [bne_iff_ne]
    intro hspace
    rw [hspace] at hmem
    exact hshows.unspaced hmem
  · exact evaluate_loosened hloosened

theorem evaluate_typed_two_minuses :
    let gestures : List Gesture :=
      [.press (.insert (.digit 1)), .press (.insert .openParen), .press .delete,
        .press (.insert (.operator .minus)), .press (.insert (.operator .minus)),
        .press (.insert (.digit 2)), .press (.insert (.operator .plus)), .press .delete,
        .press .equals]
    (gestures.foldl react (start .standard)).entry = "1 - - 2".toList ∧
      gestures.foldl Gesture.typedAfter [] = "1--2".toList ∧
      "1 - - 2".toList.filter (fun c => c != ' ') = "1--2".toList ∧
      forall f : NumberFormat,
        (evaluate f "1 - - 2".toList).mapError EntryError.kind = .error .tooDeep ∨
          (evaluate f "1 - - 2".toList).mapError EntryError.kind =
            (evaluate f "1--2".toList).mapError EntryError.kind := by
  intro gestures
  have hkeys : forall g, g ∈ gestures -> g.isAssignment = false := by
    decide
  have hentry : (gestures.foldl react (start .standard)).entry = "1 - - 2".toList := by
    decide +kernel
  have htyped : gestures.foldl Gesture.typedAfter [] = "1--2".toList := rfl
  have h := evaluate_typed (start .standard) rfl gestures hkeys
  rw [hentry, htyped] at h
  exact ⟨hentry, htyped, h⟩

end Session
end RegionalCalculator
