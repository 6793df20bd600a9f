import RegionalCalculator.Format.Named
import RegionalCalculator.Number.Text

/-!
# Texts on display

A result is shown with the decimal mark of the format, without its decimals if
the format hides them, and never grouped. The entry field shows an example of an
entry while it is empty, and the selector describes each named format.
-/

namespace RegionalCalculator

namespace NumberFormat

def display (f : NumberFormat) (x : Float) : List Char :=
  let text := if f.hidesDecimals then Number.renderWhole x else Number.render x
  text.map fun c => if c = '.' then f.decimal.toChar else c

def exampleEntry (f : NumberFormat) : String :=
  let group := (f.group.map fun mark => mark.toChar.toString).getD ""
  s!"Ex: (1{group}234{f.decimal.toChar}5 + 10) * 2 ^ 3"

end NumberFormat

def NamedFormat.label (n : NamedFormat) : String :=
  let group :=
    match n.format.group with
    | none => "aucun"
    | some .space => "espace"
    | some mark => mark.toChar.toString
  s!"{n.name}  (milliers {group}, décimal {n.format.decimal.toChar})"

end RegionalCalculator
