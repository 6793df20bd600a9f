import RegionalCalculator.Number.Shortest

/-!
# Text of numbers

Numbers are shown with a point for the decimals, without an exponent, and with
only as many digits as are needed to read them back. The reader takes an optional
minus sign and a decimal.
-/

namespace RegionalCalculator
namespace Number

/-- The text of a number whose finite magnitudes are written by `digits`. -/
def signed (digits : Nat -> List Char) (x : Float) : List Char :=
  let bits := magnitudeBits x
  if infinityBits < bits then
    ['N', 'a', 'N']
  else
    (if isNegative x then ['-'] else []) ++
      if bits = infinityBits then ['i', 'n', 'f'] else digits bits

def render (x : Float) : List Char :=
  signed (fun bits => (shortestDecimal bits).toChars) x

/-- The nearest integer, a half going to the even one; the sign is kept even when
nothing but zero is left. -/
def renderWhole (x : Float) : List Char :=
  signed (fun bits => Nat.toDigits 10 (nearestEven (units bits) unitsPerOne)) x

/-!
# Reading
-/

def readUnsigned? (text : List Char) : Option Float :=
  (Decimal.ofChars? text).map fun d => ofMagnitudeBits d.nearestBits

def read? : List Char -> Option Float
  | '-' :: text => (readUnsigned? text).map fun x => -x
  | text => readUnsigned? text

theorem read?_neg (text : List Char) :
    read? ('-' :: text) = (readUnsigned? text).map fun x => -x :=
  rfl

theorem read?_of_head?_ne_minus {text : List Char} (h : text.head? ≠ some '-') :
    read? text = readUnsigned? text := by
  rw [read?]
  intro rest heq
  rw [heq] at h
  exact h rfl

end Number
end RegionalCalculator
