import RegionalCalculator.Evaluation
import RegionalCalculator.Session.Display

/-!
# Sessions

A session is what the calculator remembers from one action to the next: the entry,
the outcome of the last computations, and the number format. The format in force
is a setting that a host program shares with the session and may write at any
time; the session keeps the named format it last chose, and its own wish to hide
decimals, beside it.
-/

namespace RegionalCalculator

structure Session where
  entry : List Char := []
  result : List Char := []
  error : String := ""
  working : Working := {}
  choice : NamedFormat
  hidesDecimals : Bool
  /-- The format in force, shared with the host. -/
  setting : NumberFormat
  /-- Whether the entry field is to take the focus. -/
  focused : Bool := true
deriving DecidableEq, Repr

namespace Session

/-- A new session takes over the setting that it finds. A setting that no named format
has stays in force, with the standard format as the choice. -/
def start (setting : NumberFormat) : Session :=
  { choice := (NamedFormat.matching? setting).getD .commaDot
    hidesDecimals := setting.hidesDecimals
    setting := setting }

/-!
# Clearing
-/

def clearEntry (s : Session) : Session :=
  { s with entry := [], focused := true }

def clearResults (s : Session) : Session :=
  { s with result := [], error := "", working := {}, focused := true }

def resetAll (s : Session) : Session :=
  s.clearEntry.clearResults

/-!
# Outcomes
-/

/-- An error leaves the last result in view, but its working no longer applies. -/
def reportError (s : Session) (message : String) : Session :=
  { s with error := message, working := {}, focused := true }

def publishResult (s : Session) (result : List Char) (working : Working) : Session :=
  { s with error := "", result := result, working := working, focused := true }

def compute (s : Session) : Session :=
  match evaluateWithWorking s.setting s.entry with
  | .ok (value, working) => s.publishResult (s.setting.display value) working
  | .error error => s.reportError error.message

theorem compute_frame (s : Session) :
    s.compute =
      { s with result := s.compute.result
               error := s.compute.error
               working := s.compute.working
               focused := true } := by
  rw [compute]
  split
  · rfl
  · rfl

/-!
# Formats
-/

def publishFormat (s : Session) : Session :=
  { s with setting := { s.choice.format with hidesDecimals := s.hidesDecimals }
           focused := true }

def chooseFormat (s : Session) (n : NamedFormat) : Session :=
  publishFormat { s with choice := n }

def hideDecimals (s : Session) (hide : Bool) : Session :=
  publishFormat { s with hidesDecimals := hide }

end Session

/-!
# Operations

The operations of a session, and the writes of its host to the shared setting.
-/

inductive Operation where
  | assignEntry (text : List Char)
  | dropFocus
  | clearEntry
  | clearResults
  | resetAll
  | reportError (message : String)
  | publishResult (result : List Char) (working : Working)
  | chooseFormat (n : NamedFormat)
  | hideDecimals (hide : Bool)
  | writeSetting (f : NumberFormat)
deriving DecidableEq, Repr

def Session.perform (s : Session) : Operation -> Session
  | .assignEntry text => { s with entry := text }
  | .dropFocus => { s with focused := false }
  | .clearEntry => s.clearEntry
  | .clearResults => s.clearResults
  | .resetAll => s.resetAll
  | .reportError message => s.reportError message
  | .publishResult result working => s.publishResult result working
  | .chooseFormat n => s.chooseFormat n
  | .hideDecimals hide => s.hideDecimals hide
  | .writeSetting f => { s with setting := f }

end RegionalCalculator
