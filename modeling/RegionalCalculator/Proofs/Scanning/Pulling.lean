import RegionalCalculator.Proofs.Scanning.Steps
import RegionalCalculator.Token.Scanner

/-!
# The scanner and the token stream

Asked again and again, the scanner hands out the items of the token stream, and then nothing
for good. One answer takes one item off those that the scanner has still to hand out.
-/

namespace RegionalCalculator
namespace Scanner

variable {f : NumberFormat} {s : Scanner}

def items (f : NumberFormat) (s : Scanner) : List (Except EntryError (Nat × Token)) :=
  if s.finished then [] else (Scan.tokensFrom f s.awaitsOperand s.position s.rest).items

theorem items_of_finished (h : s.finished = true) : s.items f = [] := by
  simp [items, h]

theorem items_start (f : NumberFormat) (entry : List Char) :
    (start entry).items f = (TokenStream.ofText f entry).items :=
  rfl

/-!
# One answer
-/

theorem next?_of_finished (h : s.finished = true) : s.next? f = (none, s) := by
  simp [next?, h]

theorem items_skipBlanks (f : NumberFormat) (s : Scanner) : s.skipBlanks.items f = s.items f := by
  have hblanks : forall c, c ∈ s.rest.takeWhile Text.isBlank -> Text.isBlank c = true := by
    intro c hc
    exact List.all_eq_true.mp List.all_takeWhile c hc
  have hskip := Scan.tokensFrom_blanks f s.awaitsOperand s.position
    (s.rest.dropWhile Text.isBlank) hblanks
  rw [List.takeWhile_append_dropWhile] at hskip
  unfold items
  rw [hskip]
  rfl

theorem head?_skipBlanks {c : Char} (h : s.skipBlanks.rest.head? = some c) :
    Text.isBlank c = false := by
  have hhead := List.head?_dropWhile_not Text.isBlank s.rest
  change (s.rest.dropWhile Text.isBlank).head? = some c at h
  rw [h] at hhead
  simpa using hhead

theorem takeItem_cons (hfinished : s.finished = false)
    (hblank : forall c, s.rest.head? = some c -> Text.isBlank c = false) :
    s.items f = (s.takeItem f).1 :: (s.takeItem f).2.items f := by
  rcases s with ⟨text, position, awaitsOperand, finished⟩
  cases hfinished
  cases text with
  | nil => simp [items, takeItem, Scan.tokensFrom, TokenStream.items]
  | cons c rest =>
      have hc := hblank c rfl
      cases hfound : Scan.literal? f awaitsOperand (c :: rest) with
      | some found =>
          have hsplit := Scan.splitLiteral?_of_literal? hfound
          cases hread : readLiteral f found.literal with
          | ok value =>
              have hstep := Scan.tokensFrom_number position hc hsplit hread
              simp [items, takeItem, hfound, hread, hstep, TokenStream.items]
          | error error =>
              have hstep := Scan.tokensFrom_malformed position hc hsplit hread
              simp [items, takeItem, hfound, hread, hstep, TokenStream.items]
      | none =>
          have hsplit := Scan.splitLiteral?_eq_none_iff.mpr hfound
          cases htoken : Token.ofChar? c with
          | some token =>
              have hstep := Scan.tokensFrom_single position hc hsplit htoken
              simp [items, takeItem, hfound, htoken, hstep, TokenStream.items]
          | none =>
              have hstep := Scan.tokensFrom_foreign position hc hsplit htoken
              simp [items, takeItem, hfound, htoken, hstep, TokenStream.items]

theorem next?_cons (h : s.finished = false) :
    exists item, (s.next? f).1 = some item ∧ s.items f = item :: (s.next? f).2.items f := by
  have hnext : s.next? f =
      (some (s.skipBlanks.takeItem f).1, (s.skipBlanks.takeItem f).2) := by
    simp [next?, h]
  rw [hnext, ← items_skipBlanks]
  exact ⟨_, rfl, takeItem_cons h fun _ => head?_skipBlanks⟩

/-!
# All answers
-/

theorem answers_of_finished (h : s.finished = true) (count : Nat) :
    s.answers f count = List.replicate count none := by
  induction count with
  | zero => rfl
  | succ count ih =>
      unfold answers
      rw [next?_of_finished h, ih, List.replicate_succ]

/-- All items come one after the other, and then nothing, however often it is asked for. -/
theorem answers_eq (f : NumberFormat) (s : Scanner) (count : Nat) :
    s.answers f ((s.items f).length + count) =
      (s.items f).map some ++ List.replicate count none := by
  generalize hitems : s.items f = items
  induction items generalizing s with
  | nil =>
      cases hfinished : s.finished with
      | true => simpa using answers_of_finished hfinished count
      | false =>
          rcases next?_cons (f := f) hfinished with ⟨item, _, hcons⟩
          rw [hitems] at hcons
          cases hcons
  | cons item items ih =>
      cases hfinished : s.finished with
      | true =>
          rw [items_of_finished hfinished] at hitems
          cases hitems
      | false =>
          rcases next?_cons (f := f) hfinished with ⟨first, hfirst, hcons⟩
          rw [hitems] at hcons
          cases hcons
          rw [List.length_cons, Nat.add_right_comm, answers, hfirst, ih _ rfl]
          rfl

example : (start "(?".toList).answers { decimal := .point, group := none } 4 =
    [some (.ok (0, .openParen)), some (.error (.unexpectedCharacter '?' 1)), none, none] :=
  rfl

end Scanner
end RegionalCalculator
