import Mathlib
import RobotScript.Proofs.Double.Nearest

/-! # Packing doubles into bits

A double with a mantissa of 53 binary digits and an exponent within the format comes back
from its bits as it was, and so does a zero. -/
set_option autoImplicit false

namespace RobotScript

open Float.Model Float.Model.UnpackedFloat

/-- The digit in front is not stored, and comes back when the others are read. -/
theorem implicit_append {mantissa : Nat} (normal : IsNormal mantissa) :
    (1#1 ++ BitVec.ofNat 52 mantissa).toNat = mantissa := by
  obtain ⟨least, below⟩ := normal
  rw [BitVec.toNat_append, ← Nat.shiftLeft_add_eq_or_of_lt (BitVec.isLt _), BitVec.toNat_ofNat,
    BitVec.toNat_ofNat, Nat.shiftLeft_eq]
  omega

theorem unpack_pack_zero (sign : Sign) : (Float.Model.pack (.zero sign)).unpack = .zero sign :=
  unpack_packedZero

theorem exponentBias_eq : (Format.binary64.exponentBias : Int) = 1023 := rfl

theorem storedDigits_eq : (Format.binary64.mantissaBitsWithoutImplicit : Int) = 52 := rfl

theorem stored_toNat {place : Nat} (inRange : place < 1023) :
    (BitVec.ofNat 11 (place + 1023)).toNat = place + 1023 := by
  rw [BitVec.toNat_ofNat]
  omega

/-- The stored exponent is neither the one of zeros nor the one of infinities. -/
theorem biased_ne {place : Nat} (inRange : place < 1023) :
    BitVec.ofNat 11 (place + 1023) ≠ 0#11 ∧ BitVec.ofNat 11 (place + 1023) ≠ -1#11 := by
  have stored := stored_toNat inRange
  constructor
  · intro isZero
    have zero : (BitVec.ofNat 11 (place + 1023)).toNat = 0 := congrArg BitVec.toNat isZero
    omega
  · intro isLast
    have last : (BitVec.ofNat 11 (place + 1023)).toNat = 2047 := congrArg BitVec.toNat isLast
    omega

theorem unpack_pack_finite (sign : Sign) {mantissa place : Nat} (positive : 0 < mantissa)
    (normal : IsNormal mantissa) (inRange : place < 1023) :
    (Float.Model.pack (.finite sign mantissa (place - 52) positive)).unpack =
      .finite sign mantissa (place - 52) positive := by
  have packed : UnpackedFloat.pack Format.binary64 (.finite sign mantissa (place - 52) positive) =
      packComponents Format.binary64 sign (BitVec.ofNat 11 (place + 1023))
        (BitVec.ofNat 52 mantissa) := by
    have biased : ((place - 52 : Int) + Format.binary64.exponentBias +
        Format.binary64.mantissaBitsWithoutImplicit).toNat = place + 1023 := by
      rw [exponentBias_eq, storedDigits_eq]
      omega
    have digits : mantissa.log2 + 1 = Format.binary64.mantissaBits := by
      rw [log2_of_isNormal normal]
      rfl
    have fits : ¬ 2 ^ 11 ≤ place + 1023 + 1 := by omega
    simp only [UnpackedFloat.pack, biased, if_neg fits, if_pos digits]
  obtain ⟨notZero, notLast⟩ := biased_ne inRange
  change UnpackedFloat.unpack Format.binary64 (UnpackedFloat.pack Format.binary64 _) = _
  rw [packed]
  have exponent : ((BitVec.ofNat 11 (place + 1023)).toNat : Int) -
      (Format.binary64.exponentBias + Format.binary64.mantissaBitsWithoutImplicit) =
      place - 52 := by
    rw [exponentBias_eq, storedDigits_eq, stored_toNat inRange]
    omega
  simp only [UnpackedFloat.unpack, unpackMantissa_packComponents, unpackExponent_packComponents,
    unpackSign_packComponents, Sign.ofBitVec_toBitVec, if_neg notLast, if_neg notZero,
    implicit_append normal, exponent]

end RobotScript
