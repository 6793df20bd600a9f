import RegionalCalculator.Number.Decimal

/-!
# Shortest decimals

The decimal that shows a magnitude has the fewest digits among those that read
back as the same magnitude. It is found by walking the decimal grids from the
coarsest to the finest: on each, only the two points around the magnitude can be
the nearest one that reads back. The finest grid holds the magnitude itself, so
the walk always ends on a decimal that reads back.
-/

namespace RegionalCalculator
namespace Number

/-- The multiples of `10 ^ zeros / 10 ^ places`. -/
structure Grid where
  zeros : Nat
  places : Nat
deriving DecidableEq, Repr

namespace Grid

def step (grid : Grid) : Nat :=
  Nat.pow 10 grid.zeros

def below (grid : Grid) (bits : Nat) : Decimal :=
  { coefficient :=
      units bits * Nat.pow 10 grid.places / (unitsPerOne * grid.step) * grid.step
    places := grid.places }

def above (grid : Grid) (bits : Nat) : Decimal :=
  { coefficient := (grid.below bits).coefficient + grid.step
    places := grid.places }

def belowIsNearer (grid : Grid) (bits : Nat) : Bool :=
  2 * (units bits * Nat.pow 10 grid.places) <
    ((grid.below bits).coefficient + (grid.above bits).coefficient) * unitsPerOne

/-- The point of the grid next to the magnitude that reads back as that magnitude.
If both neighbours do, the nearer one is taken, and the upper one at equal distance. -/
def point? (grid : Grid) (bits : Nat) : Option Decimal :=
  if (grid.below bits).nearestBits = bits then
    if (grid.above bits).nearestBits = bits && !grid.belowIsNearer bits then
      some (grid.above bits)
    else
      some (grid.below bits)
  else if (grid.above bits).nearestBits = bits then
    some (grid.above bits)
  else
    none

/-- Grids from a step above the magnitude down to units of the last place that any
magnitude has. -/
def coarseToFine (bits : Nat) : List Grid :=
  let digits := (Nat.toDigits 10 (units bits / unitsPerOne)).length
  (List.range digits).reverse.map (fun zeros => { zeros := zeros + 1, places := 0 }) ++
    (List.range 1075).map fun places => { zeros := 0, places := places }

theorem nearestBits_of_point?_eq_some {grid : Grid} {bits : Nat} {d : Decimal}
    (h : grid.point? bits = some d) : d.nearestBits = bits := by
  simp only [point?, Bool.and_eq_true, decide_eq_true_eq] at h
  split at h
  · rename_i hbelow
    split at h
    · rename_i habove
      cases h
      exact habove.1
    · cases h
      exact hbelow
  · split at h
    · rename_i habove
      cases h
      exact habove
    · cases h

end Grid

def exactDecimal (bits : Nat) : Decimal :=
  { coefficient := units bits * Nat.pow 5 1074, places := 1074 }

def shortestDecimal (bits : Nat) : Decimal :=
  let found := (Grid.coarseToFine bits).findSome? fun grid => grid.point? bits
  found.getD (exactDecimal bits)

end Number
end RegionalCalculator
