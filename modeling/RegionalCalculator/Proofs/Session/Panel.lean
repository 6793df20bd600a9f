import RegionalCalculator.Session.Window

/-!
# What the window shows of the computations

Below the entry, the window shows a result, an error and a working. All three are told by the
computations since the results were last cleared: the result is that of the last computation
that had one, the error and the working are those of the very last computation. The setting
plays its part at the moment of a computation only.
-/

namespace RegionalCalculator

/-!
# Computations
-/

/-- An evaluation that was asked for, with the setting and the entry of its moment. -/
structure Computation where
  setting : NumberFormat
  entry : List Char
deriving DecidableEq, Repr

namespace Computation

def outcome (c : Computation) : Except EntryError (Float × Working) :=
  evaluateWithWorking c.setting c.entry

def result? (c : Computation) : Option (List Char) :=
  match c.outcome with
  | .ok (value, _) => some (c.setting.display value)
  | .error _ => none

def working? (c : Computation) : Option Working :=
  match c.outcome with
  | .ok (_, working) => some working
  | .error _ => none

def error? (c : Computation) : Option String :=
  match c.outcome with
  | .ok _ => none
  | .error error => some error.message

end Computation

structure Panel where
  result : List Char := []
  error : String := ""
  working : Working := {}
deriving DecidableEq, Repr

/-- The panel after these computations, of which the newest comes first. -/
def Panel.ofLog (log : List Computation) : Panel :=
  { result := (log.findSome? Computation.result?).getD []
    error := (log.head?.bind Computation.error?).getD ""
    working := (log.head?.bind Computation.working?).getD {} }

def Session.panel (s : Session) : Panel :=
  { result := s.result
    error := s.error
    working := s.working }

/-!
# The log of a run
-/

namespace Gesture

def computes : Gesture -> Bool
  | .press .equals => true
  | .pressEnter focused => focused
  | _ => false

def clearsResults : Gesture -> Bool
  | .press .clearResults => true
  | .press .resetAll => true
  | _ => false

def changesFormat : Gesture -> Bool
  | .pickFormat _ => true
  | .toggleDecimals => true
  | .writeSetting _ => true
  | _ => false

end Gesture

namespace Session

def computation (s : Session) : Computation :=
  { setting := s.setting
    entry := s.entry }

def logAfter (s : Session) (log : List Computation) (g : Gesture) : List Computation :=
  if g.computes then s.computation :: log
  else if g.clearsResults then []
  else log

/-- The computations since the results were last cleared, after a run of gestures. -/
def log (s : Session) (before : List Computation) : List Gesture -> List Computation
  | [] => before
  | g :: gestures => (s.react g).log (s.logAfter before g) gestures

/-!
# Steps
-/

inductive PanelStep (s : Session) (g : Gesture) : Prop where
  | compute :
      g.computes = true ->
      s.react g = s.compute ->
      PanelStep s g
  | clear :
      g.computes = false ->
      g.clearsResults = true ->
      (s.react g).panel = {} ->
      PanelStep s g
  | keep :
      g.computes = false ->
      g.clearsResults = false ->
      (s.react g).panel = s.panel ->
      PanelStep s g

theorem panel_pickFormat (s : Session) (n : NamedFormat) :
    (s.react (.pickFormat n)).panel = s.panel := by
  rw [react]
  split
  · rfl
  · rfl

theorem panelStep (s : Session) (g : Gesture) : PanelStep s g := by
  cases g with
  | assignEntry text => exact .keep rfl rfl rfl
  | press key =>
      cases key with
      | insert insertion => exact .keep rfl rfl rfl
      | delete => exact .keep rfl rfl rfl
      | clearEntry => exact .keep rfl rfl rfl
      | clearResults => exact .clear rfl rfl rfl
      | resetAll => exact .clear rfl rfl rfl
      | equals => exact .compute rfl rfl
  | pickFormat n => exact .keep rfl rfl (s.panel_pickFormat n)
  | toggleDecimals => exact .keep rfl rfl rfl
  | pressEscape => exact .keep rfl rfl rfl
  | pressEnter focused =>
      cases focused with
      | true => exact .compute rfl rfl
      | false => exact .keep rfl rfl rfl
  | writeSetting f => exact .keep rfl rfl rfl

variable {s : Session} {value : Float} {working : Working} {error : EntryError}
  {before : List Computation} {g : Gesture}

theorem compute_of_ok (h : s.computation.outcome = .ok (value, working)) :
    s.compute = s.publishResult (s.setting.display value) working := by
  have hevaluate : evaluateWithWorking s.setting s.entry = .ok (value, working) := h
  rw [compute, hevaluate]

theorem compute_of_error (h : s.computation.outcome = .error error) :
    s.compute = s.reportError error.message := by
  have hevaluate : evaluateWithWorking s.setting s.entry = .error error := h
  rw [compute, hevaluate]

theorem react_of_error (hcomputes : g.computes = true)
    (herror : s.computation.outcome = .error error) :
    s.react g = s.reportError error.message := by
  cases s.panelStep g with
  | compute _ hreact => rw [hreact, compute_of_error herror]
  | clear hidle _ _ =>
      rw [hidle] at hcomputes
      cases hcomputes
  | keep hidle _ _ =>
      rw [hidle] at hcomputes
      cases hcomputes

theorem panel_of_changesFormat (h : g.changesFormat = true) : (s.react g).panel = s.panel := by
  cases g with
  | pickFormat n => exact s.panel_pickFormat n
  | toggleDecimals => rfl
  | writeSetting f => rfl
  | assignEntry text => cases h
  | press key => cases h
  | pressEscape => cases h
  | pressEnter focused => cases h

end Session

/-!
# The panel of a log
-/

namespace Panel

variable {c : Computation} {value : Float} {working : Working} {error : EntryError}

theorem ofLog_of_ok (h : c.outcome = .ok (value, working)) (log : List Computation) :
    ofLog (c :: log) =
      { result := c.setting.display value
        error := ""
        working := working } := by
  have hresult : c.result? = some (c.setting.display value) := by
    rw [Computation.result?, h]
  have herror : c.error? = none := by
    rw [Computation.error?, h]
  have hworking : c.working? = some working := by
    rw [Computation.working?, h]
  rw [ofLog, List.findSome?_cons, List.head?_cons, Option.bind_some, Option.bind_some, hresult,
    herror, hworking]
  rfl

theorem ofLog_of_error (h : c.outcome = .error error) (log : List Computation) :
    ofLog (c :: log) =
      { result := (ofLog log).result
        error := error.message
        working := {} } := by
  have hresult : c.result? = none := by
    rw [Computation.result?, h]
  have herror : c.error? = some error.message := by
    rw [Computation.error?, h]
  have hworking : c.working? = none := by
    rw [Computation.working?, h]
  rw [ofLog, List.findSome?_cons, List.head?_cons, Option.bind_some, Option.bind_some, hresult,
    herror, hworking]
  rfl

theorem error_or_working_ofLog (log : List Computation) :
    (ofLog log).error = "" ∨ (ofLog log).working = {} := by
  cases log with
  | nil => exact Or.inl rfl
  | cons c log =>
      cases h : c.outcome with
      | ok found =>
          rw [ofLog_of_ok h]
          exact Or.inl rfl
      | error error =>
          rw [ofLog_of_error h]
          exact Or.inr rfl

end Panel

/-!
# Runs
-/

namespace Session

variable {s : Session} {before : List Computation}

/-- The invariant: the panel is that of the log. -/
theorem panel_react (h : s.panel = Panel.ofLog before) (g : Gesture) :
    (s.react g).panel = Panel.ofLog (s.logAfter before g) := by
  cases s.panelStep g with
  | compute hcomputes hreact =>
      rw [logAfter, if_pos hcomputes, hreact]
      cases houtcome : s.computation.outcome with
      | ok found =>
          rw [Panel.ofLog_of_ok houtcome, compute_of_ok houtcome]
          rfl
      | error error =>
          rw [Panel.ofLog_of_error houtcome, compute_of_error houtcome, ← h]
          rfl
  | clear hidle hclears hpanel =>
      rw [logAfter, hidle, hclears, hpanel]
      rfl
  | keep hidle hkeeps hpanel =>
      rw [logAfter, hidle, hkeeps, hpanel, h]
      rfl

theorem panel_foldl_react (h : s.panel = Panel.ofLog before) (gestures : List Gesture) :
    (gestures.foldl react s).panel = Panel.ofLog (s.log before gestures) := by
  induction gestures generalizing s before with
  | nil => exact h
  | cons g gestures ih => exact ih (panel_react h g)

/-- Whatever was done at the window and by the host, the computations since the results were
last cleared tell what the panel shows. So it never shows an error together with a working; a
failed computation leaves the entry, the result and the formats as they are; and changes of
the format leave the whole panel as it is. -/
theorem panel_eq_ofLog (f : NumberFormat) (gestures : List Gesture) :
    let s := gestures.foldl react (start f)
    s.panel = Panel.ofLog ((start f).log [] gestures) ∧
      (s.error = "" ∨ s.working = {}) ∧
      (forall g error, g.computes = true ->
        evaluateWithWorking s.setting s.entry = .error error ->
        s.react g = { s with error := error.message, working := {}, focused := true }) ∧
      (forall g, g.changesFormat = true -> (s.react g).panel = s.panel) := by
  intro s
  have hstart : (start f).panel = Panel.ofLog [] := rfl
  have hpanel : s.panel = Panel.ofLog ((start f).log [] gestures) :=
    panel_foldl_react hstart gestures
  refine ⟨hpanel, ?_, fun g error hcomputes herror => react_of_error hcomputes herror,
    fun g hformat => panel_of_changesFormat hformat⟩
  have hone := Panel.error_or_working_ofLog ((start f).log [] gestures)
  rw [← hpanel] at hone
  exact hone

theorem panel_eq_ofLog_orphan :
    let gestures : List Gesture :=
      [.assignEntry "9".toList, .press .equals, .press .resetAll, .assignEntry "2 * 2.5".toList,
        .press .equals, .assignEntry "(1 + 2".toList, .pressEnter true, .toggleDecimals,
        .pickFormat .dotComma]
    let s := gestures.foldl react (start .standard)
    s.panel =
        { result := "5".toList
          error := "parenthèse orpheline (position 0)"
          working := {} } ∧
      (start .standard).log [] gestures =
        [{ setting := .standard, entry := "(1 + 2".toList },
          { setting := .standard, entry := "2 * 2.5".toList }] ∧
      (s.react .toggleDecimals).panel = s.panel := by
  intro gestures s
  have h := panel_eq_ofLog .standard gestures
  have hlog : (start .standard).log [] gestures =
      [{ setting := .standard, entry := "(1 + 2".toList },
        { setting := .standard, entry := "2 * 2.5".toList }] := by
    decide +kernel
  refine ⟨?_, hlog, h.right.right.right .toggleDecimals rfl⟩
  rw [h.left, hlog]
  decide +kernel

end Session
end RegionalCalculator
