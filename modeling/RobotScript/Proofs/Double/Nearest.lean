import Mathlib.Algebra.Order.Ring.Int
import Mathlib.Data.Nat.Basic

/-! # Rounding whole numbers to 53 binary digits

A whole number with more than 53 binary digits is rounded to the nearest one whose digits
behind the 53rd are zero; half-way between two such numbers, to the one whose 53rd digit is
zero as well. Rounding keeps the order, but it may make neighbours equal. -/
set_option autoImplicit false

namespace RobotScript

/-- The number in whole units, to the nearest; half-way between two, the even one. -/
def nearestEven (number unit : Nat) : Nat :=
  if 2 * (number % unit) < unit then number / unit
  else if 2 * (number % unit) = unit then number / unit + number / unit % 2
  else number / unit + 1

theorem le_nearestEven (number unit : Nat) : number / unit ≤ nearestEven number unit := by
  unfold nearestEven
  split_ifs <;> omega

theorem nearestEven_le (number unit : Nat) : nearestEven number unit ≤ number / unit + 1 := by
  unfold nearestEven
  split_ifs <;> omega

theorem nearestEven_mono {first second : Nat} (ordered : first ≤ second) (unit : Nat) :
    nearestEven first unit ≤ nearestEven second unit := by
  rcases (Nat.div_le_div_right ordered : first / unit ≤ second / unit).lt_or_eq with less | same
  · calc nearestEven first unit ≤ first / unit + 1 := nearestEven_le first unit
      _ ≤ second / unit := less
      _ ≤ nearestEven second unit := le_nearestEven second unit
  · have left := Nat.div_add_mod first unit
    have right := Nat.div_add_mod second unit
    rw [same] at left
    have remainders : first % unit ≤ second % unit := by omega
    simp only [nearestEven, same]
    split_ifs <;> omega

theorem nearestEven_one (number : Nat) : nearestEven number 1 = number := by
  simp [nearestEven, Nat.mod_one]

theorem nearestEven_mul_right (number unit : Nat) {factor : Nat} (positive : 0 < factor) :
    nearestEven (number * factor) (unit * factor) = nearestEven number unit := by
  have below : 2 * (number % unit * factor) < unit * factor ↔ 2 * (number % unit) < unit := by
    rw [← Nat.mul_assoc]
    exact Nat.mul_lt_mul_right positive
  have halfway : 2 * (number % unit * factor) = unit * factor ↔ 2 * (number % unit) = unit := by
    rw [← Nat.mul_assoc]
    exact Nat.mul_left_inj positive.ne'
  simp only [nearestEven, Nat.mul_mod_mul_right, Nat.mul_div_mul_right _ _ positive, below, halfway]

theorem nearestEven_mul_self (number : Nat) {unit : Nat} (positive : 0 < unit) :
    nearestEven (number * unit) unit = number := by
  have scaled := nearestEven_mul_right number 1 positive
  rwa [Nat.one_mul, nearestEven_one] at scaled

/-- How far apart the numbers of 53 binary digits are where this number lies. -/
def spacing (number : Nat) : Nat := 2 ^ (number.log2 - 52)

/-- The nearest number of 53 binary digits. -/
def rounded (number : Nat) : Nat := nearestEven number (spacing number) * spacing number

theorem spacing_of_short {number : Nat} (short : number.log2 ≤ 52) : spacing number = 1 := by
  rw [spacing, Nat.sub_eq_zero_of_le short, Nat.pow_zero]

theorem rounded_of_short {number : Nat} (short : number.log2 ≤ 52) : rounded number = number := by
  rw [rounded, spacing_of_short short, nearestEven_one, Nat.mul_one]

theorem log2_le_of_lt {number : Nat} (small : number < 2 ^ 53) : number.log2 ≤ 52 := by
  rcases Nat.eq_zero_or_pos number with rfl | positive
  · decide
  · exact Nat.le_of_lt_succ ((Nat.log2_lt positive.ne').mpr small)

def IsNormal (mantissa : Nat) : Prop := 2 ^ 52 ≤ mantissa ∧ mantissa < 2 ^ 53

theorem log2_of_isNormal {mantissa : Nat} (normal : IsNormal mantissa) : mantissa.log2 = 52 :=
  (Nat.log2_eq_iff (by have := normal.1; omega)).mpr normal

theorem isNormal_div_spacing {number : Nat} (long : 52 ≤ number.log2) :
    IsNormal (number / spacing number) := by
  have positive : number ≠ 0 := by
    rintro rfl
    exact absurd long (by decide)
  constructor
  · rw [spacing, Nat.le_div_iff_mul_le (Nat.two_pow_pos _), ← Nat.pow_add,
      Nat.add_sub_cancel' long]
    exact Nat.log2_self_le positive
  · rw [spacing, Nat.div_lt_iff_lt_mul (Nat.two_pow_pos _), ← Nat.pow_add,
      (by omega : 53 + (number.log2 - 52) = number.log2 + 1)]
    exact Nat.lt_log2_self

theorem pow_log2_le_rounded {number : Nat} (positive : 0 < number) :
    2 ^ number.log2 ≤ rounded number := by
  by_cases short : number.log2 ≤ 52
  · rw [rounded_of_short short]
    exact Nat.log2_self_le positive.ne'
  · have digits : 2 ^ 52 ≤ number / spacing number := (isNormal_div_spacing (by omega)).1
    calc 2 ^ number.log2 = 2 ^ 52 * spacing number := by
          rw [spacing, ← Nat.pow_add, Nat.add_sub_cancel' (by omega)]
      _ ≤ rounded number :=
          Nat.mul_le_mul_right _ (digits.trans (le_nearestEven number (spacing number)))

theorem rounded_le_pow_log2 (number : Nat) : rounded number ≤ 2 ^ (number.log2 + 1) := by
  by_cases short : number.log2 ≤ 52
  · rw [rounded_of_short short]
    exact Nat.lt_log2_self.le
  · have digits : number / spacing number < 2 ^ 53 := (isNormal_div_spacing (by omega)).2
    calc rounded number ≤ 2 ^ 53 * spacing number :=
          Nat.mul_le_mul_right _ ((nearestEven_le number (spacing number)).trans digits)
      _ = 2 ^ (number.log2 + 1) := by
          rw [spacing, ← Nat.pow_add, (by omega : 53 + (number.log2 - 52) = number.log2 + 1)]

/-- Between two powers of two the spacing is the same; a power of two is its own nearest. -/
theorem rounded_mono {first second : Nat} (ordered : first ≤ second) :
    rounded first ≤ rounded second := by
  rcases Nat.eq_zero_or_pos first with rfl | positive
  · exact Nat.zero_le _
  · have logs : first.log2 ≤ second.log2 :=
      (Nat.le_log2 (by omega)).mpr ((Nat.log2_self_le positive.ne').trans ordered)
    rcases logs.lt_or_eq with shorter | same
    · calc rounded first ≤ 2 ^ (first.log2 + 1) := rounded_le_pow_log2 first
        _ ≤ 2 ^ second.log2 := Nat.pow_le_pow_right (by decide) shorter
        _ ≤ rounded second := pow_log2_le_rounded (by omega)
    · rw [rounded, rounded, spacing, spacing, same]
      exact Nat.mul_le_mul_right _ (nearestEven_mono ordered _)

def roundedInt (number : Int) : Int := number.sign * rounded number.natAbs

theorem roundedInt_natCast (number : Nat) : roundedInt number = rounded number := by
  rcases Nat.eq_zero_or_pos number with rfl | positive
  · rfl
  · rw [roundedInt, Int.sign_natCast_of_ne_zero positive.ne', Int.natAbs_natCast, one_mul]

theorem roundedInt_neg (number : Int) : roundedInt (-number) = -roundedInt number := by
  rw [roundedInt, roundedInt, Int.sign_neg, Int.natAbs_neg, neg_mul]

theorem roundedInt_mono {first second : Int} (ordered : first ≤ second) :
    roundedInt first ≤ roundedInt second := by
  obtain ⟨left, rfl | rfl⟩ := Int.eq_nat_or_neg first
  · obtain ⟨right, rfl⟩ := Int.eq_ofNat_of_zero_le (by omega : 0 ≤ second)
    rw [roundedInt_natCast, roundedInt_natCast]
    exact Int.ofNat_le.mpr (rounded_mono (by omega))
  · obtain ⟨right, rfl | rfl⟩ := Int.eq_nat_or_neg second
    · rw [roundedInt_neg, roundedInt_natCast, roundedInt_natCast]
      omega
    · rw [roundedInt_neg, roundedInt_neg, roundedInt_natCast, roundedInt_natCast]
      have magnitudes : rounded right ≤ rounded left := rounded_mono (by omega)
      omega

theorem roundedInt_of_short {number : Int} (short : number.natAbs < 2 ^ 53) :
    roundedInt number = number := by
  rw [roundedInt, rounded_of_short (log2_le_of_lt short), Int.sign_mul_natAbs]

end RobotScript
