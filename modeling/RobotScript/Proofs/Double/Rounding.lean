import Mathlib
import RobotScript.Proofs.Double.Nearest

/-! # How doubles are rounded

Shifting a mantissa to the right keeps, beside the digits that are left, one that says
whether the rest is at least a half and one that says whether it is neither nothing nor
exactly a half. With these two the rounded mantissa is the nearest, ties to even; a carry
into a 54th digit moves the exponent up by one. -/
set_option autoImplicit false

namespace RobotScript

open Float.Model Float.Model.UnpackedFloat

def unshifted (mantissa : Nat) : ExtendedMantissa := .ofMantissaAndAccuracy mantissa .exact

theorem unshifted_shiftRight_succ (mantissa shift : Nat) :
    unshifted mantissa >>> (shift + 1) = (unshifted mantissa >>> shift).shiftRightOne := rfl

section

variable {whole part unit : Nat}

/-- The digit that is shifted out is the one that makes the new rest at least a half. -/
theorem roundBit_eq (below : part < unit) :
    (whole % 2 != 0) = decide (2 * unit ≤ 2 * (part + unit * (whole % 2))) := by
  rcases Nat.mod_two_eq_zero_or_one whole with even | odd
  · simp only [even, bne_self_eq_false, Nat.mul_zero, Nat.add_zero, Bool.false_eq,
      decide_eq_false_iff_not]
    omega
  · simp only [odd, Nat.mul_one, Bool.true_eq, decide_eq_true_eq, show (1 != 0) = true from rfl]
    omega

/-- What was at least a half or off it before the shift is off the half behind it. -/
theorem stickyBit_eq (below : part < unit) :
    (decide (unit ≤ 2 * part) || decide (2 * part ≠ 0 ∧ 2 * part ≠ unit)) =
      decide (2 * (part + unit * (whole % 2)) ≠ 0 ∧
        2 * (part + unit * (whole % 2)) ≠ 2 * unit) := by
  rw [← Bool.decide_or, decide_eq_decide]
  rcases Nat.mod_two_eq_zero_or_one whole with even | odd
  · rw [even, Nat.mul_zero, Nat.add_zero]
    omega
  · rw [odd, Nat.mul_one]
    omega

end

theorem unshifted_shiftRight (mantissa shift : Nat) :
    unshifted mantissa >>> shift =
      ⟨mantissa / 2 ^ shift, decide (2 ^ shift ≤ 2 * (mantissa % 2 ^ shift)),
        decide (2 * (mantissa % 2 ^ shift) ≠ 0 ∧ 2 * (mantissa % 2 ^ shift) ≠ 2 ^ shift)⟩ := by
  induction shift with
  | zero =>
    change ExtendedMantissa.mk mantissa false false = _
    simp [Nat.mod_one]
  | succ shift shifted =>
    have below : mantissa % 2 ^ shift < 2 ^ shift := Nat.mod_lt _ (Nat.two_pow_pos shift)
    have rest : mantissa % 2 ^ (shift + 1) =
        mantissa % 2 ^ shift + 2 ^ shift * (mantissa / 2 ^ shift % 2) := by
      rw [Nat.pow_succ, Nat.mod_mul]
    have digits : mantissa / 2 ^ (shift + 1) = mantissa / 2 ^ shift / 2 := by
      rw [Nat.pow_succ, Nat.div_div_eq_div_mul]
    have half : 2 ^ (shift + 1) = 2 * 2 ^ shift := by rw [Nat.pow_succ, Nat.mul_comm]
    rw [unshifted_shiftRight_succ, shifted, ExtendedMantissa.shiftRightOne, rest, digits, half,
      ← roundBit_eq below, ← stickyBit_eq below]

theorem shifted_roundedMantissa (mantissa shift : Nat) :
    (unshifted mantissa >>> shift).roundedMantissa = nearestEven mantissa (2 ^ shift) := by
  rw [unshifted_shiftRight, ExtendedMantissa.roundedMantissa, nearestEven]
  have below : mantissa % 2 ^ shift < 2 ^ shift := Nat.mod_lt _ (Nat.two_pow_pos shift)
  generalize mantissa / 2 ^ shift = whole
  generalize mantissa % 2 ^ shift = part at *
  generalize 2 ^ shift = unit at *
  by_cases low : 2 * part < unit
  · have noHalf : decide (unit ≤ 2 * part) = false := decide_eq_false (by omega)
    rw [noHalf, if_pos low]
    cases decide (2 * part ≠ 0 ∧ 2 * part ≠ unit) <;> rfl
  · have half : decide (unit ≤ 2 * part) = true := decide_eq_true (by omega)
    rw [half, if_neg low]
    by_cases tie : 2 * part = unit
    · rw [if_pos tie, decide_eq_false (by omega)]
      rfl
    · rw [if_neg tie, decide_eq_true (by omega)]
      rfl

/-! ## Rounding to the format -/

theorem shiftToTargetExponent_eq {mantissa : Nat} {exponent : Int} (long : 52 ≤ mantissa.log2)
    (notTiny : -1074 ≤ exponent) :
    shiftToTargetExponent Format.binary64 mantissa exponent .exact =
      (unshifted mantissa >>> (mantissa.log2 - 52), exponent + (mantissa.log2 - 52 : Nat)) := by
  have target : Format.binary64.targetExponent (totalExponent mantissa exponent) =
      exponent + (mantissa.log2 - 52 : Nat) := by
    have least : Format.binary64.minExponent = -1074 := by decide
    have digits : Format.binary64.mantissaBits = 53 := by decide
    rw [Format.targetExponent, totalExponent, least, digits]
    omega
  rw [shiftToTargetExponent, target, shiftToExponent]
  simp only [show (exponent + (mantissa.log2 - 52 : Nat) - exponent).toNat = mantissa.log2 - 52 by
    omega]
  rfl

/-- Rounding gives the nearest mantissa, without the digit that a carry may have added. -/
theorem roundWithAccuracy_eq (sign : Sign) {mantissa : Nat} {exponent : Int}
    (long : 52 ≤ mantissa.log2) (notTiny : -1074 ≤ exponent) :
    ∃ carry nearest positive,
      roundWithAccuracy Format.binary64 sign mantissa exponent .exact =
        .finite sign nearest (exponent + (mantissa.log2 - 52 : Nat) + (carry : Nat)) positive ∧
      IsNormal nearest ∧
      nearest * 2 ^ carry = nearestEven mantissa (spacing mantissa) := by
  have digits := isNormal_div_spacing long
  have least := digits.1.trans (le_nearestEven mantissa (spacing mantissa))
  have greatest := (nearestEven_le mantissa (spacing mantissa)).trans digits.2
  rw [roundWithAccuracy, shiftToTargetExponent_eq long notTiny]
  dsimp only
  rw [shifted_roundedMantissa, ← spacing]
  generalize nearestEven mantissa (spacing mantissa) = nearest at *
  have nearestLong : 52 ≤ nearest.log2 := (Nat.le_log2 (by omega)).mpr least
  rw [shiftToTargetExponent_eq nearestLong (by omega), unshifted_shiftRight]
  dsimp only
  rcases greatest.lt_or_eq with noCarry | carries
  · have normal : IsNormal nearest := ⟨least, noCarry⟩
    have noShift : nearest.log2 - 52 = 0 := by rw [log2_of_isNormal normal]
    have positive : nearest ≠ 0 := by omega
    simp only [noShift, Nat.pow_zero, Nat.div_one, dif_neg positive]
    exact ⟨0, nearest, Nat.pos_of_ne_zero positive, rfl, normal, Nat.mul_one nearest⟩
  · have oneShift : nearest.log2 - 52 = 1 := by rw [carries, Nat.log2_two_pow]
    have half : nearest / 2 ^ 1 = 2 ^ 52 := by omega
    simp only [oneShift, half]
    rw [dif_neg (by decide)]
    exact ⟨1, 2 ^ 52, by decide, rfl, ⟨le_refl _, by decide⟩, by rw [carries]; rfl⟩

theorem log2_mul_pow {number : Nat} (positive : 0 < number) (shift : Nat) :
    (number * 2 ^ shift).log2 = number.log2 + shift := by
  have scaled : 0 < number * 2 ^ shift := Nat.mul_pos positive (Nat.two_pow_pos shift)
  refine (Nat.log2_eq_iff scaled.ne').mpr ⟨?_, ?_⟩
  · rw [Nat.pow_add]
    exact Nat.mul_le_mul_right _ (Nat.log2_self_le positive.ne')
  · rw [Nat.add_right_comm, Nat.pow_add]
    exact Nat.mul_lt_mul_of_pos_right Nat.lt_log2_self (Nat.two_pow_pos shift)

/-- Rounding does not depend on how a number is scaled. -/
theorem nearestEven_scaled {number shift : Nat} (positive : 0 < number)
    (long : 52 ≤ number.log2 + shift) :
    nearestEven (number * 2 ^ shift) (spacing (number * 2 ^ shift)) * 2 ^ number.log2 =
      rounded number * 2 ^ 52 := by
  rw [spacing, log2_mul_pow positive]
  by_cases short : number.log2 ≤ 52
  · obtain ⟨rest, rfl⟩ := Nat.exists_eq_add_of_le (by omega : 52 - number.log2 ≤ shift)
    have unit : number.log2 + (52 - number.log2 + rest) - 52 = rest := by omega
    have digits : nearestEven (number * 2 ^ (52 - number.log2 + rest)) (2 ^ rest) =
        number * 2 ^ (52 - number.log2) := by
      rw [Nat.pow_add, ← Nat.mul_assoc, nearestEven_mul_self _ (Nat.two_pow_pos rest)]
    rw [unit, digits, rounded_of_short short, Nat.mul_assoc, ← Nat.pow_add,
      Nat.sub_add_cancel short]
  · obtain ⟨extra, isExtra⟩ := Nat.exists_eq_add_of_le (by omega : 52 ≤ number.log2)
    have unit : number.log2 + shift - 52 = extra + shift := by omega
    have digits : nearestEven (number * 2 ^ shift) (2 ^ (extra + shift)) =
        nearestEven number (2 ^ extra) := by
      rw [Nat.pow_add, nearestEven_mul_right _ _ (Nat.two_pow_pos shift)]
    rw [unit, digits, rounded, spacing, isExtra, Nat.add_sub_cancel_left, Nat.pow_add,
      Nat.mul_comm (2 ^ 52), Nat.mul_assoc]

/-- Rounding a scaled number gives 53 binary digits, of which the first stands at the place
of the first digit of the number or, after a carry, at the next one. -/
theorem roundWithAccuracy_scaled (sign : Sign) {number shift : Nat} (exponent : Int)
    (positive : 0 < number) (long : 52 ≤ number.log2 + shift)
    (notTiny : -1074 ≤ exponent - shift) :
    ∃ (place nearest : Nat) (nearestPositive : 0 < nearest),
      roundWithAccuracy Format.binary64 sign (number * 2 ^ shift) (exponent - shift) .exact =
        .finite sign nearest (exponent + place - 52) nearestPositive ∧
      IsNormal nearest ∧ number.log2 ≤ place ∧ nearest * 2 ^ place = rounded number * 2 ^ 52 := by
  have log := log2_mul_pow positive shift
  have scaledLong : 52 ≤ (number * 2 ^ shift).log2 := by omega
  obtain ⟨carry, nearest, nearestPositive, rounds, normal, digits⟩ :=
    roundWithAccuracy_eq sign scaledLong notTiny
  refine ⟨number.log2 + carry, nearest, nearestPositive, ?_, normal, Nat.le_add_right _ _, ?_⟩
  · have place : exponent - shift + ((number * 2 ^ shift).log2 - 52 : Nat) + carry =
        exponent + (number.log2 + carry : Nat) - 52 := by omega
    rw [rounds]
    simp only [place]
  · rw [Nat.add_comm, Nat.pow_add, ← Nat.mul_assoc, digits, nearestEven_scaled positive long]

end RobotScript
