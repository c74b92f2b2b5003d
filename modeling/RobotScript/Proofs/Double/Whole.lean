import RobotScript.Value
import RobotScript.Proofs.Double.Packing
import RobotScript.Proofs.Double.Rounding

/-! # Doubles that are whole numbers

The double of an int is the int rounded to 53 binary digits. Doubles of whole numbers are
ordered as the numbers are. -/
set_option autoImplicit false

namespace RobotScript

open Float.Model Float.Model.UnpackedFloat

/-- The unpacked double is this whole number: a zero, or 53 binary digits of which the
first stands at a certain place. -/
inductive Represents (number : Int) : UnpackedFloat → Prop
  | zero (sign : Sign) (isZero : number = 0) : Represents number (.zero sign)
  | finite (sign : Sign) (mantissa place : Nat) (positive : 0 < mantissa)
      (normal : IsNormal mantissa)
      (value : number * 2 ^ 52 = sign.apply (mantissa * 2 ^ place : Nat)) :
      Represents number (.finite sign mantissa (place - 52) positive)

/-! ## Order -/

theorem compare_congr {α β : Type} [LinearOrder α] [LinearOrder β] {first second : α}
    {left right : β} (less : first < second ↔ left < right)
    (greater : second < first ↔ right < left) :
    Ord.compare first second = Ord.compare left right := by
  rcases lt_trichotomy first second with isLess | rfl | isGreater
  · rw [compare_lt_iff_lt.mpr isLess, compare_lt_iff_lt.mpr (less.mp isLess)]
  · have same : left = right := le_antisymm (not_lt.mp fun below => lt_irrefl _ (greater.mpr below))
      (not_lt.mp fun below => lt_irrefl _ (less.mpr below))
    rw [compare_eq_iff_eq.mpr rfl, compare_eq_iff_eq.mpr same]
  · rw [compare_gt_iff_gt.mpr isGreater, compare_gt_iff_gt.mpr (greater.mp isGreater)]

theorem lt_of_place_lt {left right leftPlace rightPlace : Nat} (leftNormal : IsNormal left)
    (rightNormal : IsNormal right) (ordered : leftPlace < rightPlace) :
    left * 2 ^ leftPlace < right * 2 ^ rightPlace := by
  calc left * 2 ^ leftPlace < 2 ^ 53 * 2 ^ leftPlace :=
        Nat.mul_lt_mul_of_pos_right leftNormal.2 (Nat.two_pow_pos _)
    _ = 2 ^ 52 * 2 ^ (leftPlace + 1) := by
        rw [← Nat.pow_add, ← Nat.pow_add, (by omega : 53 + leftPlace = 52 + (leftPlace + 1))]
    _ ≤ 2 ^ 52 * 2 ^ rightPlace :=
        Nat.mul_le_mul_left _ (Nat.pow_le_pow_right (by decide) ordered)
    _ ≤ right * 2 ^ rightPlace := Nat.mul_le_mul_right _ rightNormal.1

/-- Numbers of 53 digits compare by the places of their first digits, and then by the
digits. -/
theorem compare_places {left right : Nat} (leftNormal : IsNormal left)
    (rightNormal : IsNormal right) (leftPlace rightPlace : Nat) :
    (Ord.compare (leftPlace - 52 : Int) (rightPlace - 52)).then (Ord.compare left right) =
      Ord.compare (left * 2 ^ leftPlace) (right * 2 ^ rightPlace) := by
  rcases lt_trichotomy leftPlace rightPlace with before | rfl | behind
  · rw [compare_lt_iff_lt.mpr (by omega : (leftPlace - 52 : Int) < rightPlace - 52),
      compare_lt_iff_lt.mpr (lt_of_place_lt leftNormal rightNormal before)]
    rfl
  · have positive : 0 < 2 ^ leftPlace := Nat.two_pow_pos leftPlace
    rw [compare_eq_iff_eq.mpr rfl]
    exact compare_congr (Nat.mul_lt_mul_right positive).symm (Nat.mul_lt_mul_right positive).symm
  · rw [compare_gt_iff_gt.mpr (by omega : (rightPlace - 52 : Int) < leftPlace - 52),
      compare_gt_iff_gt.mpr (lt_of_place_lt rightNormal leftNormal behind)]
    rfl

theorem sign_of_value {number : Int} {sign : Sign} {magnitude : Nat} (positive : 0 < magnitude)
    (value : number * 2 ^ 52 = sign.apply magnitude) :
    (sign = .positive ∧ 0 < number) ∨ (sign = .negative ∧ number < 0) := by
  cases sign with
  | positive =>
    change number * 2 ^ 52 = magnitude at value
    exact .inl ⟨rfl, by omega⟩
  | negative =>
    change number * 2 ^ 52 = -magnitude at value
    exact .inr ⟨rfl, by omega⟩

theorem compare_finite {first second : Int} {left right : Nat}
    {leftPlace rightPlace : Nat} (leftNormal : IsNormal left) (rightNormal : IsNormal right)
    (isFirst : first * 2 ^ 52 = (left * 2 ^ leftPlace : Nat))
    (isSecond : second * 2 ^ 52 = (right * 2 ^ rightPlace : Nat)) :
    (Ord.compare (leftPlace - 52 : Int) (rightPlace - 52)).then (Ord.compare left right) =
      Ord.compare first second := by
  rw [compare_places leftNormal rightNormal]
  generalize left * 2 ^ leftPlace = leftMagnitude at *
  generalize right * 2 ^ rightPlace = rightMagnitude at *
  exact compare_congr (by omega) (by omega)

theorem Represents.compare {first second : Int} {left right : UnpackedFloat}
    (isFirst : Represents first left) (isSecond : Represents second right) :
    left.compare right = some (Ord.compare first second) := by
  cases isFirst with
  | zero sign isZero =>
    subst isZero
    cases isSecond with
    | zero otherSign isZero =>
      subst isZero
      rfl
    | finite otherSign mantissa place positive normal value =>
      have magnitude : 0 < mantissa * 2 ^ place := Nat.mul_pos positive (Nat.two_pow_pos place)
      rcases sign_of_value magnitude value with ⟨rfl, above⟩ | ⟨rfl, below⟩
      · exact congrArg some (compare_lt_iff_lt.mpr above).symm
      · exact congrArg some (compare_gt_iff_gt.mpr below).symm
  | finite sign mantissa place positive normal value =>
    have magnitude : 0 < mantissa * 2 ^ place := Nat.mul_pos positive (Nat.two_pow_pos place)
    cases isSecond with
    | zero otherSign isZero =>
      subst isZero
      rcases sign_of_value magnitude value with ⟨rfl, above⟩ | ⟨rfl, below⟩
      · exact congrArg some (compare_gt_iff_gt.mpr above).symm
      · exact congrArg some (compare_lt_iff_lt.mpr below).symm
    | finite otherSign otherMantissa otherPlace otherPositive otherNormal otherValue =>
      have otherMagnitude : 0 < otherMantissa * 2 ^ otherPlace :=
        Nat.mul_pos otherPositive (Nat.two_pow_pos otherPlace)
      rcases sign_of_value magnitude value with ⟨rfl, above⟩ | ⟨rfl, below⟩
      · rcases sign_of_value otherMagnitude otherValue with ⟨rfl, otherAbove⟩ | ⟨rfl, otherBelow⟩
        · exact congrArg some (compare_finite normal otherNormal value otherValue)
        · exact congrArg some (compare_gt_iff_gt.mpr (otherBelow.trans above)).symm
      · rcases sign_of_value otherMagnitude otherValue with ⟨rfl, otherAbove⟩ | ⟨rfl, otherBelow⟩
        · exact congrArg some (compare_lt_iff_lt.mpr (below.trans otherAbove)).symm
        · -- Below zero the greater magnitude is the smaller number.
          change first * 2 ^ 52 = -((mantissa * 2 ^ place : Nat) : Int) at value
          change second * 2 ^ 52 = -((otherMantissa * 2 ^ otherPlace : Nat) : Int) at otherValue
          have magnitudes := compare_finite normal otherNormal
            (by omega : -first * 2 ^ 52 = (mantissa * 2 ^ place : Nat))
            (by omega : -second * 2 ^ 52 = (otherMantissa * 2 ^ otherPlace : Nat))
          have turned : Ord.compare (-first) (-second) = Ord.compare second first :=
            compare_congr (by omega) (by omega)
          rw [Std.OrientedOrd.eq_swap (a := first), ← turned, ← magnitudes]
          rfl

/-! ## Packing and changing the sign -/

theorem natAbs_apply (sign : Sign) (magnitude : Nat) :
    (sign.apply magnitude).natAbs = magnitude := by
  cases sign with
  | negative => exact (Int.natAbs_neg _).trans (Int.natAbs_natCast _)
  | positive => exact Int.natAbs_natCast _

theorem Represents.unpack_pack {number : Int} {double : UnpackedFloat}
    (represents : Represents number double) (small : number.natAbs < 2 ^ 200) :
    Represents number (Float.Model.pack double).unpack := by
  cases represents with
  | zero sign isZero =>
    rw [unpack_pack_zero]
    exact .zero sign isZero
  | finite sign mantissa place positive normal value =>
    have magnitude : number.natAbs * 2 ^ 52 = mantissa * 2 ^ place := by
      rw [← natAbs_apply sign (mantissa * 2 ^ place), ← value, Int.natAbs_mul]
      rfl
    have atLeast : 2 ^ 52 * 2 ^ place ≤ number.natAbs * 2 ^ 52 := by
      rw [magnitude]
      exact Nat.mul_le_mul_right _ normal.1
    have inRange : place < 200 := by
      refine (Nat.pow_lt_pow_iff_right (by decide : 1 < 2)).mp ?_
      omega
    rw [unpack_pack_finite sign positive normal (by omega)]
    exact .finite sign mantissa place positive normal value

theorem Represents.neg {number : Int} {double : UnpackedFloat}
    (represents : Represents number double) : Represents (-number) double.neg := by
  cases represents with
  | zero sign isZero => exact .zero _ (by rw [isZero]; rfl)
  | finite sign mantissa place positive normal value =>
    refine .finite _ mantissa place positive normal ?_
    rw [neg_mul, value]
    cases sign with
    | negative => exact neg_neg _
    | positive => rfl

/-! ## From natural numbers to doubles -/

theorem represents_scaled {number shift : Nat} (positive : 0 < number)
    (long : 52 ≤ number.log2 + shift) (notTiny : shift ≤ 1000) :
    Represents (rounded number)
      (roundWithAccuracy Format.binary64 .positive (number * 2 ^ shift) (0 - shift) .exact) := by
  obtain ⟨place, nearest, nearestPositive, rounds, normal, -, digits⟩ :=
    roundWithAccuracy_scaled .positive 0 positive long (by omega)
  rw [rounds]
  simp only [zero_add]
  exact .finite .positive nearest place nearestPositive normal (congrArg Nat.cast digits.symm)

theorem unpack_one : (Float.ofBits 0x3FF0000000000000).toModel.unpack =
    .finite .positive (2 ^ 52) (-52) (by decide) := by
  rfl

theorem Represents.mul_one {number : Int} {double : UnpackedFloat}
    (represents : Represents number double) :
    Represents number
      (UnpackedFloat.mul Format.binary64 double (.finite .positive (2 ^ 52) (-52) (by decide))) := by
  cases represents with
  | zero sign isZero => exact .zero _ isZero
  | finite sign mantissa place positive normal value =>
    have log := log2_of_isNormal normal
    obtain ⟨shifted, nearest, nearestPositive, rounds, nearestNormal, behind, digits⟩ :=
      roundWithAccuracy_scaled (sign * .positive) (place - 52) positive (by omega : 52 ≤ _ + 52)
        (by omega)
    have exponent : (place - 52 : Int) + shifted - 52 = (place + (shifted - 52) : Nat) - 52 := by
      omega
    have same : sign * .positive = sign := by cases sign <;> rfl
    have unchanged : nearest * 2 ^ (place + (shifted - 52)) = mantissa * 2 ^ place := by
      have scaled : nearest * 2 ^ (shifted - 52) * 2 ^ 52 = mantissa * 2 ^ 52 := by
        rw [Nat.mul_assoc, ← Nat.pow_add, Nat.sub_add_cancel (by omega), digits,
          rounded_of_short log.le]
      rw [Nat.add_comm, Nat.pow_add, ← Nat.mul_assoc,
        Nat.eq_of_mul_eq_mul_right (Nat.two_pow_pos 52) scaled]
    change Represents number
      (roundWithAccuracy Format.binary64 (sign * .positive) (mantissa * 2 ^ 52)
        (place - 52 - (52 : Nat)) .exact)
    rw [rounds]
    simp only [exponent, same]
    refine .finite sign nearest _ nearestPositive nearestNormal ?_
    rw [unchanged, value]

theorem represents_ofUInt64 {number : Nat} (short : number < 2 ^ 53) :
    Represents number (UnpackedFloat.ofUInt64 Format.binary64 number.toUInt64) := by
  have same : number.toUInt64.toNat = number := Nat.mod_eq_of_lt (by omega)
  rw [UnpackedFloat.ofUInt64, same, UnpackedFloat.ofNat, UnpackedFloat.ofInt,
    UnpackedFloat.normalize]
  rcases Nat.eq_zero_or_pos number with rfl | positive
  · exact .zero .positive rfl
  · have above : (0 : Int) < number := Int.natCast_pos.mpr positive
    have log := log2_le_of_lt short
    have target : Format.binary64.targetExponent (totalExponent number 0) = number.log2 - 52 := by
      have least : Format.binary64.minExponent = -1074 := by decide
      have digits : Format.binary64.mantissaBits = 53 := by decide
      rw [Format.targetExponent, totalExponent, least, digits]
      omega
    rw [compare_gt_iff_gt.mpr above]
    simp only [UnpackedFloat.round, Int.toNat_natCast, target, decreaseExponent]
    have shift : ((0 : Int) - (number.log2 - 52)).toNat = 52 - number.log2 := by omega
    rw [shift, Nat.shiftLeft_eq]
    have scaled := represents_scaled positive (by omega : 52 ≤ number.log2 + (52 - number.log2))
      (by omega)
    rwa [rounded_of_short log] at scaled

theorem rounded_lt {number : Nat} (small : number < 2 ^ 64) : rounded number < 2 ^ 200 := by
  have log : number.log2 < 64 := by
    rcases Nat.eq_zero_or_pos number with rfl | positive
    · decide
    · exact (Nat.log2_lt positive.ne').mpr small
  calc rounded number ≤ 2 ^ (number.log2 + 1) := rounded_le_pow_log2 number
    _ ≤ 2 ^ 64 := Nat.pow_le_pow_right (by decide) log
    _ < 2 ^ 200 := Nat.pow_lt_pow_right (by decide) (by decide)

theorem represents_ofNat_short {number : Nat} (short : number < 2 ^ 53) :
    Represents number (Float.ofNat number).toModel.unpack := by
  have small : (number : Int).natAbs < 2 ^ 200 := by
    rw [Int.natAbs_natCast]
    exact short.trans (Nat.pow_lt_pow_right (by decide) (by decide))
  have converts : Float.ofNat number =
      number.toUInt64.toFloat * Float.ofBits 0x3FF0000000000000 :=
    dif_pos ⟨short, by decide⟩
  have converted := (represents_ofUInt64 short).unpack_pack small
  rw [converts]
  change Represents number (Float.Model.pack (UnpackedFloat.mul Format.binary64
    (Float.Model.pack (UnpackedFloat.ofUInt64 Format.binary64 number.toUInt64)).unpack
    (Float.ofBits 0x3FF0000000000000).toModel.unpack)).unpack
  rw [unpack_one]
  exact converted.mul_one.unpack_pack small

theorem represents_ofNat_long {number : Nat} (long : ¬ number < 2 ^ 53) (small : number < 2 ^ 64) :
    Represents (rounded number) (Float.ofNat number).toModel.unpack := by
  have positive : 0 < number := by omega
  have converts : Float.ofNat number = .ofModel (Float.Model.ofScientific number 0) :=
    dif_neg fun both => long both.1
  have rounds : UnpackedFloat.ofScientific Format.binary64 number 0 =
      roundWithAccuracy Format.binary64 .positive (number * 2 ^ 53) (0 - (53 : Nat)) .exact := by
    have notTiny : ¬ (0 : Int) < -(2 ^ Format.binary64.exponentBits + number.log2) := by
      rw [show (2 : Int) ^ Format.binary64.exponentBits = 2048 from rfl]
      omega
    rw [UnpackedFloat.ofScientific, dif_neg positive.ne', if_neg (by decide), if_neg notTiny,
      if_pos (le_refl 0)]
    have digits : Format.binary64.mantissaBits = 53 := by decide
    have signs : Sign.positive * Sign.positive = .positive := rfl
    simp only [UnpackedFloat.mul, digits, signs, Nat.shiftLeft_eq, Int.toNat_zero, Nat.pow_zero,
      Nat.mul_one, Int.add_zero, Int.zero_sub]
  have log : 53 ≤ number.log2 := (Nat.le_log2 positive.ne').mpr (by omega)
  rw [converts]
  change Represents (rounded number)
    (Float.Model.pack (UnpackedFloat.ofScientific Format.binary64 number 0)).unpack
  rw [rounds]
  refine (represents_scaled positive (by omega) (by omega)).unpack_pack ?_
  rw [Int.natAbs_natCast]
  exact rounded_lt small

theorem represents_ofNat {number : Nat} (small : number < 2 ^ 64) :
    Represents (rounded number) (Float.ofNat number).toModel.unpack := by
  by_cases short : number < 2 ^ 53
  · rw [rounded_of_short (log2_le_of_lt short)]
    exact represents_ofNat_short short
  · exact represents_ofNat_long short small

/-- The double of an int is the int rounded to 53 binary digits. -/
theorem represents_nearestDouble (number : Int64) :
    Represents (roundedInt number.toInt) (Value.nearestDouble number).toModel.unpack := by
  have least := Int64.le_toInt number
  have greatest := Int64.toInt_lt number
  rw [Value.nearestDouble]
  generalize number.toInt = whole at *
  cases whole with
  | ofNat magnitude =>
    have below : (magnitude : Int) < 2 ^ 63 := greatest
    rw [Int.ofNat_eq_natCast, roundedInt_natCast]
    exact represents_ofNat (by omega)
  | negSucc below =>
    have magnitude := represents_ofNat (by omega : below + 1 < 2 ^ 64)
    rw [Int.negSucc_eq, ← Nat.cast_succ, roundedInt_neg, roundedInt_natCast]
    refine magnitude.neg.unpack_pack ?_
    rw [Int.natAbs_neg, Int.natAbs_natCast]
    exact rounded_lt (by omega)

/-! ## Comparing doubles -/

section

variable {first second : Int} {left right : Float}

theorem lt_iff_of_represents (isFirst : Represents first left.toModel.unpack)
    (isSecond : Represents second right.toModel.unpack) : left < right ↔ first < second := by
  have told : Float.lt left right =
      ((left.toModel.unpack.compare right.toModel.unpack) == some .lt) := Bool.decide_eq_true
  change Float.lt left right = true ↔ first < second
  rw [told, isFirst.compare isSecond, beq_iff_eq, Option.some_inj, compare_lt_iff_lt]

theorem le_iff_of_represents (isFirst : Represents first left.toModel.unpack)
    (isSecond : Represents second right.toModel.unpack) : left ≤ right ↔ first ≤ second := by
  have told : Float.le left right =
      (left.toModel.unpack.compare right.toModel.unpack).any (·.isLE) := Bool.decide_eq_true
  change Float.le left right = true ↔ first ≤ second
  rw [told, isFirst.compare isSecond, Option.any_some, Std.isLE_compare]

end

end RobotScript
