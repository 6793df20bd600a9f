import RegionalCalculator.Expr.Reading

/-!
# Evaluation

The value of an entry under a number format, alone or with the working that
explains it: the format it was read with, its tokens and its tree. Both ways
refuse an entry for the same reason.
-/

namespace RegionalCalculator

def evaluate (f : NumberFormat) (entry : List Char) : Except EntryError Float :=
  (Expr.ofText f entry).map Expr.eval

def NumberFormat.summary (f : NumberFormat) : String :=
  let group :=
    match f.group with
    | none => "aucun"
    | some .space => "espace"
    | some mark => s!"'{mark.toChar}'"
  s!"décimal '{f.decimal.toChar}', milliers {group}"

/-- How a value came about. The empty working belongs to no computation. -/
structure Working where
  format : String := ""
  tokens : List Char := []
  tree : List Char := []
deriving DecidableEq, Repr

/-- The value of an entry and its working. The entry is read as an expression first,
so that its faults are found in the same order as by `evaluate`. -/
def evaluateWithWorking (f : NumberFormat) (entry : List Char) :
    Except EntryError (Float × Working) := do
  let expr <- Expr.ofText f entry
  let tokens <- (TokenStream.ofText f entry).tokens
  let working : Working :=
    { format := f.summary
      tokens := Token.renderAll tokens
      tree := expr.render }
  return (expr.eval, working)

end RegionalCalculator
