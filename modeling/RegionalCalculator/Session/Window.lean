import RegionalCalculator.Session.Basic
import RegionalCalculator.Session.Entry

/-!
# The window

The window shows a session and turns what its user does into changes of it. Its
keys carry labels; the decimal key has the mark of the format in force, so the set
of labels changes with the format.
-/

namespace RegionalCalculator

/-!
# Keys
-/

inductive Key where
  | insert (insertion : Insertion)
  | delete
  | clearEntry
  | clearResults
  | resetAll
  | equals
deriving DecidableEq, Repr

namespace Key

def label : Key -> String
  | insert insertion => insertion.symbol.toString
  | delete => "DEL"
  | clearEntry => "C"
  | clearResults => "CLR"
  | resetAll => "AC"
  | equals => "="

def onWindow (mark : DecimalMark) : List Key :=
  [clearEntry, clearResults, resetAll, delete, equals] ++
    (Insertion.onKeypad mark).map insert

def labelled? (mark : DecimalMark) (text : String) : Option Key :=
  (onWindow mark).find? fun key => key.label == text

end Key

/-!
# Gestures

What can happen at the window. Pressing Enter counts only if the entry field has
the focus; picking the format that is chosen already changes nothing.
-/

inductive Gesture where
  | assignEntry (text : List Char)
  | press (key : Key)
  | pickFormat (n : NamedFormat)
  | toggleDecimals
  | pressEscape
  | pressEnter (focused : Bool)
  | writeSetting (f : NumberFormat)
deriving DecidableEq, Repr

namespace Session

def pressKey (s : Session) : Key -> Session
  | .insert insertion => { s with entry := Entry.insert s.entry insertion, focused := true }
  | .delete => { s with entry := Entry.deleteLast s.entry, focused := true }
  | .clearEntry => s.clearEntry
  | .clearResults => s.clearResults
  | .resetAll => s.resetAll
  | .equals => s.compute

def react (s : Session) : Gesture -> Session
  | .assignEntry text => { s with entry := text }
  | .press key => s.pressKey key
  | .pickFormat n => if n = s.choice then s else s.chooseFormat n
  | .toggleDecimals => s.hideDecimals (!s.hidesDecimals)
  | .pressEscape => s.clearEntry
  | .pressEnter true => s.compute
  | .pressEnter false => { s with focused := false }
  | .writeSetting f => { s with setting := f }

end Session
end RegionalCalculator
