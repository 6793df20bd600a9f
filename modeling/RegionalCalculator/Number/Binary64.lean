import RegionalCalculator.Number.Rounding

/-!
# Magnitudes of binary64 numbers

Every finite binary64 number is a whole number of units of `2 ^ -1074`, up to its
sign. A magnitude is handled through its 63 bits, the bits of the number without
the sign; they order magnitudes by size, and the bits that follow those of a
finite magnitude are those of the next one. `units` reads the bits, and `nearest`
finds the bits of the magnitude closest to a quotient.
-/

namespace RegionalCalculator
namespace Number

/-- The number `1`, counted in units of `2 ^ -1074`. -/
def unitsPerOne : Nat :=
  1 <<< 1074

/-- The bits of the infinite magnitude; greater bits are those of a NaN. -/
def infinityBits : Nat :=
  0x7FF <<< 52

/-- The distance between neighbouring magnitudes is two to this power. The subnormal
magnitudes have the exponent of the smallest normal ones. -/
def exponent (bits : Nat) : Nat :=
  bits >>> 52 - 1

def mantissa (bits : Nat) : Nat :=
  bits - exponent bits <<< 52

/-- The exact value of a finite magnitude, in units of `2 ^ -1074`. -/
def units (bits : Nat) : Nat :=
  mantissa bits <<< exponent bits

/-- The bits of the magnitude nearest to `num / den`, ties to the even mantissa.
A mantissa that is rounded up to the next power of two carries into the exponent. -/
def nearest (num den : Nat) : Nat :=
  let scaled := num * unitsPerOne
  let e := (scaled / den).log2 - 52
  min (e <<< 52 + nearestEven scaled (den <<< e)) infinityBits

theorem nearest_le_infinityBits (num den : Nat) : nearest num den <= infinityBits :=
  Nat.min_le_right _ _

/-!
# Sign and magnitude of a float
-/

/-- A number is its bits; all NaNs have the same. -/
theorem toBits_inj {x y : Float} : x.toBits = y.toBits <-> x = y := by
  constructor
  · intro h
    cases x with
    | ofModel a =>
        cases y with
        | ofModel b =>
            cases a
            cases b
            cases h
            rfl
  · intro h
    rw [h]

instance decidableEqFloat : DecidableEq Float :=
  fun x y => decidable_of_iff (x.toBits = y.toBits) toBits_inj

def isNegative (x : Float) : Bool :=
  x.toBits.toNat.testBit 63

def magnitudeBits (x : Float) : Nat :=
  x.toBits.toNat % (1 <<< 63)

def ofMagnitudeBits (bits : Nat) : Float :=
  Float.ofBits (UInt64.ofNat bits)

end Number
end RegionalCalculator
