import Mathlib
import RegionalCalculator.Number.Binary64

/-!
# Sign and magnitude

A number that is not a NaN is determined by its sign and by the bits of its
magnitude. Any magnitude up to the infinite one can be given, and negation turns
the sign around and keeps the magnitude. These facts are derived from the fields of
the bits: one for the sign, eleven for the exponent, fifty-two for the mantissa. What is
known of these fields comes with Mathlib as a whole only, none of its modules brings it along.
-/

namespace RegionalCalculator
namespace Number

open Float.Model Float.Model.UnpackedFloat

/-!
# Fields
-/

section Fields

variable (sign : Sign) (e : BitVec 11) (m : BitVec 52)

theorem toNat_packComponents :
    (packComponents Format.binary64 sign e m).toNat =
      sign.toBitVec.toNat <<< 63 + (e.toNat <<< 52 + m.toNat) := by
  rw [packComponents, BitVec.toNat_append, BitVec.toNat_append,
    ← Nat.shiftLeft_add_eq_or_of_lt e.isLt, ← Nat.shiftLeft_add_eq_or_of_lt m.isLt]
  simp only [Nat.shiftLeft_eq]
  omega

theorem exists_packComponents (b : BitVec 64) :
    exists sign e m, b = packComponents Format.binary64 sign e m := by
  have hfields := @packComponents_unpackSign_unpackExponent_unpackMantissa Format.binary64 b
  exact ⟨_, _, _, hfields.symm⟩

theorem neg_unpack_packComponents :
    (UnpackedFloat.unpack Format.binary64 (packComponents Format.binary64 sign e m)).neg =
      UnpackedFloat.unpack Format.binary64 (packComponents Format.binary64 (-sign) e m) := by
  simp only [UnpackedFloat.unpack, unpackMantissa_packComponents, unpackExponent_packComponents,
    unpackSign_packComponents, Sign.ofBitVec_toBitVec]
  split
  · split <;> rfl
  · split
    · split <;> rfl
    · rfl

/-- Nothing is lost by unpacking, unless it is the payload of a NaN. -/
theorem pack_unpack_packComponents (h : e = -1#11 -> m = 0#52) :
    UnpackedFloat.pack Format.binary64
        (UnpackedFloat.unpack Format.binary64 (packComponents Format.binary64 sign e m)) =
      packComponents Format.binary64 sign e m := by
  rw [pack_unpack, if_neg]
  intro hnan
  have hfields := of_decide_eq_true hnan
  rw [unpackExponent_packComponents, unpackMantissa_packComponents] at hfields
  exact hfields.right (h hfields.left)

theorem eq_zero_of_le_infinityBits (h : e.toNat <<< 52 + m.toNat <= infinityBits)
    (hlast : e = -1#11) : m = 0#52 := by
  apply BitVec.eq_of_toNat_eq
  have he : e.toNat = 2047 := congrArg BitVec.toNat hlast
  simp only [infinityBits, he, Nat.shiftLeft_eq] at h
  rw [BitVec.toNat_zero]
  omega

end Fields

/-!
# Sign and magnitude of the fields
-/

variable {x y : Float} {sign : Sign} {e : BitVec 11} {m : BitVec 52}

theorem toNat_toBits (h : x.toBits.toBitVec = packComponents Format.binary64 sign e m) :
    x.toBits.toNat = sign.toBitVec.toNat <<< 63 + (e.toNat <<< 52 + m.toNat) := by
  rw [← UInt64.toNat_toBitVec, h, toNat_packComponents]

theorem isNegative_of_fields (h : x.toBits.toBitVec = packComponents Format.binary64 sign e m) :
    isNegative x = decide (sign.toBitVec = 1#1) := by
  have he := e.isLt
  have hm := m.isLt
  rw [isNegative, toNat_toBits h, Nat.testBit_eq_decide_div_mod_eq]
  simp only [Nat.shiftLeft_eq]
  cases sign with
  | negative =>
      simp only [Sign.toBitVec, BitVec.toNat_ofNat]
      apply decide_eq_true
      omega
  | positive =>
      simp only [Sign.toBitVec, BitVec.toNat_ofNat]
      apply decide_eq_false
      omega

theorem magnitudeBits_of_fields (h : x.toBits.toBitVec = packComponents Format.binary64 sign e m) :
    magnitudeBits x = e.toNat <<< 52 + m.toNat := by
  have he := e.isLt
  have hm := m.isLt
  rw [magnitudeBits, toNat_toBits h]
  simp only [Nat.shiftLeft_eq]
  omega

theorem eq_of_sign_of_magnitude (hsign : isNegative x = isNegative y)
    (hmagnitude : magnitudeBits x = magnitudeBits y) : x = y := by
  have hx := x.toBits.toNat_lt
  have hy := y.toBits.toNat_lt
  apply toBits_inj.mp
  apply UInt64.toNat_inj.mp
  simp only [isNegative, Nat.testBit_eq_decide_div_mod_eq, decide_eq_decide] at hsign
  simp only [magnitudeBits, Nat.shiftLeft_eq] at hmagnitude
  omega

/-!
# Negation
-/

theorem toBits_neg (h : x.toBits.toBitVec = packComponents Format.binary64 sign e m)
    (hx : magnitudeBits x <= infinityBits) :
    (-x).toBits.toBitVec = packComponents Format.binary64 (-sign) e m := by
  rw [magnitudeBits_of_fields h] at hx
  have hneg : (-x).toBits.toBitVec =
      UnpackedFloat.pack Format.binary64
        (UnpackedFloat.unpack Format.binary64 x.toBits.toBitVec).neg := rfl
  rw [hneg, h, neg_unpack_packComponents,
    pack_unpack_packComponents _ _ _ (eq_zero_of_le_infinityBits _ _ hx)]

theorem isNegative_neg (hx : magnitudeBits x <= infinityBits) :
    isNegative (-x) = !isNegative x := by
  rcases exists_packComponents x.toBits.toBitVec with ⟨sign, e, m, h⟩
  rw [isNegative_of_fields (toBits_neg h hx), isNegative_of_fields h]
  cases sign <;> rfl

theorem magnitudeBits_neg (hx : magnitudeBits x <= infinityBits) :
    magnitudeBits (-x) = magnitudeBits x := by
  rcases exists_packComponents x.toBits.toBitVec with ⟨sign, e, m, h⟩
  rw [magnitudeBits_of_fields (toBits_neg h hx), magnitudeBits_of_fields h]

/-!
# Numbers from their magnitude
-/

theorem toNat_toBits_ofMagnitudeBits {bits : Nat} (h : bits <= infinityBits) :
    (ofMagnitudeBits bits).toBits.toNat = bits := by
  have hlt : bits < 1 <<< 63 := Nat.lt_of_le_of_lt h (by decide)
  have hbits : (UInt64.ofNat bits).toNat = bits := by
    rw [UInt64.toNat_ofNat']
    simp only [Nat.shiftLeft_eq] at hlt
    omega
  rcases exists_packComponents (UInt64.ofNat bits).toBitVec with ⟨sign, e, m, hfields⟩
  have hsum : bits = sign.toBitVec.toNat <<< 63 + (e.toNat <<< 52 + m.toNat) := by
    rw [← toNat_packComponents, ← hfields, UInt64.toNat_toBitVec, hbits]
  have hpack : (ofMagnitudeBits bits).toBits.toBitVec =
      UnpackedFloat.pack Format.binary64
        (UnpackedFloat.unpack Format.binary64 (UInt64.ofNat bits).toBitVec) := rfl
  rw [← UInt64.toNat_toBitVec, hpack, hfields, pack_unpack_packComponents, toNat_packComponents,
    ← hsum]
  apply eq_zero_of_le_infinityBits
  omega

theorem isNegative_ofMagnitudeBits {bits : Nat} (h : bits <= infinityBits) :
    isNegative (ofMagnitudeBits bits) = false := by
  have hlt : bits < 1 <<< 63 := Nat.lt_of_le_of_lt h (by decide)
  rw [isNegative, toNat_toBits_ofMagnitudeBits h]
  exact Nat.testBit_lt_two_pow hlt

theorem magnitudeBits_ofMagnitudeBits {bits : Nat} (h : bits <= infinityBits) :
    magnitudeBits (ofMagnitudeBits bits) = bits := by
  have hlt : bits < 1 <<< 63 := Nat.lt_of_le_of_lt h (by decide)
  rw [magnitudeBits, toNat_toBits_ofMagnitudeBits h, Nat.mod_eq_of_lt hlt]

def negateIf (negative : Bool) (x : Float) : Float :=
  if negative then -x else x

theorem isNegative_negateIf (negative : Bool) {bits : Nat} (h : bits <= infinityBits) :
    isNegative (negateIf negative (ofMagnitudeBits bits)) = negative := by
  have hpositive := isNegative_ofMagnitudeBits h
  have hle := (magnitudeBits_ofMagnitudeBits h).le.trans h
  cases negative with
  | true =>
      show isNegative (-ofMagnitudeBits bits) = true
      rw [isNegative_neg hle, hpositive]
      rfl
  | false => exact hpositive

theorem magnitudeBits_negateIf (negative : Bool) {bits : Nat} (h : bits <= infinityBits) :
    magnitudeBits (negateIf negative (ofMagnitudeBits bits)) = bits := by
  have hmagnitude := magnitudeBits_ofMagnitudeBits h
  cases negative with
  | true => exact (magnitudeBits_neg (hmagnitude.le.trans h)).trans hmagnitude
  | false => exact hmagnitude

theorem negateIf_ofMagnitudeBits (hx : magnitudeBits x <= infinityBits) :
    negateIf (isNegative x) (ofMagnitudeBits (magnitudeBits x)) = x :=
  eq_of_sign_of_magnitude (isNegative_negateIf _ hx) (magnitudeBits_negateIf _ hx)

/-!
# Numbers without their sign
-/

def magnitude (x : Float) : Float :=
  ofMagnitudeBits (magnitudeBits x)

/-- The one NaN that there is has no sign, so whatever has a sign is not a NaN. -/
theorem magnitudeBits_le_of_isNegative (h : isNegative x = true) :
    magnitudeBits x <= infinityBits := by
  rcases exists_packComponents x.toBits.toBitVec with ⟨sign, e, m, hfields⟩
  have he : e.toNat < 1 <<< 11 := e.isLt
  have hm : m.toNat < 1 <<< 52 := m.isLt
  have hvalid : Format.binary64.Valid x.toBits.toBitVec := x.toModel.valid
  rw [magnitudeBits_of_fields hfields]
  by_contra hnan
  simp only [infinityBits, Nat.shiftLeft_eq] at he hm hnan
  have hlast : e = -1#11 := by
    apply BitVec.eq_of_toNat_eq
    change e.toNat = 2047
    omega
  have hpayload : m ≠ 0#52 := by
    intro hzero
    rw [hzero, BitVec.toNat_zero] at hnan
    omega
  rw [hfields] at hvalid
  have hpacked := hvalid.eq_packedNaN
  rw [unpackExponent_packComponents, unpackMantissa_packComponents, ← hfields] at hpacked
  rw [isNegative_of_fields (hpacked hlast hpayload)] at h
  cases h

theorem neg_magnitude (h : isNegative x = true) : -magnitude x = x := by
  have hx := negateIf_ofMagnitudeBits (magnitudeBits_le_of_isNegative h)
  rw [h, negateIf, if_pos rfl] at hx
  exact hx

theorem magnitude_neg (hx : magnitudeBits x <= infinityBits) (h : isNegative x = false) :
    magnitude (-x) = x := by
  have hsame := negateIf_ofMagnitudeBits hx
  rw [h, negateIf, if_neg Bool.false_ne_true] at hsame
  rw [magnitude, magnitudeBits_neg hx, hsame]

end Number
end RegionalCalculator
