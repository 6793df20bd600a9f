import RegionalCalculator.Number.Binary64

/-!
# Decimal numbers

A decimal is a whole number of tenths, hundredths and so on, without a sign. Its
text has at least one digit before the point and exactly `places` digits after it;
without places there is no point either.
-/

namespace RegionalCalculator

/-- The number `coefficient / 10 ^ places`. -/
structure Decimal where
  coefficient : Nat
  places : Nat
deriving DecidableEq, Repr

namespace Decimal

def scale (d : Decimal) : Nat :=
  Nat.pow 10 d.places

def nearestBits (d : Decimal) : Nat :=
  Number.nearest d.coefficient d.scale

/-!
# Text
-/

def wholeDigits (d : Decimal) : List Char :=
  Nat.toDigits 10 (d.coefficient / d.scale)

def fractionDigits (d : Decimal) : List Char :=
  (Nat.toDigits 10 (d.coefficient % d.scale)).leftpad d.places '0'

def toChars (d : Decimal) : List Char :=
  if d.places = 0 then d.wholeDigits else d.wholeDigits ++ '.' :: d.fractionDigits

/-- Reads digits, then possibly a point and at least one more digit. -/
def ofChars? (text : List Char) : Option Decimal :=
  let whole := text.takeWhile Char.isDigit
  if whole.isEmpty then
    none
  else
    match text.dropWhile Char.isDigit with
    | [] => some { coefficient := Nat.ofDigitChars 10 whole 0, places := 0 }
    | '.' :: fraction =>
        if fraction.isEmpty || !fraction.all Char.isDigit then
          none
        else
          some { coefficient := Nat.ofDigitChars 10 (whole ++ fraction) 0,
                 places := fraction.length }
    | _ => none

end Decimal
end RegionalCalculator
