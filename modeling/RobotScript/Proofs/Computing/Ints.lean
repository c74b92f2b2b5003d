import RobotScript.Arithmetic
import Mathlib.Algebra.Order.Ring.Int
import Mathlib.Algebra.Ring.Int.Parity

/-! # Int arithmetic is exact or fails

Sums, differences, products, negations and powers of ints are the whole numbers that they
are in arithmetic, wherever an int can hold them; everywhere else a `try` branch takes the
fault. No result wraps around. -/
set_option autoImplicit false

namespace RobotScript

/-- The whole numbers that an int holds. -/
def IsInt (number : Int) : Prop :=
  Int64.minValue.toInt ≤ number ∧ number ≤ Int64.maxValue.toInt

/-- The int of this number if there is one, and a recoverable cause if there is none. -/
structure ExactOrRecoverable (number : Int) (outcome : Except Cause Value) : Prop where
  exact : IsInt number → ∃ result : Int64, result.toInt = number ∧ outcome = .ok (.int result)
  recoverable : ¬ IsInt number → ∃ reason, outcome = .error (.recoverable reason)

theorem isInt_iff {number : Int} :
    IsInt number ↔ -9223372036854775808 ≤ number ∧ number ≤ 9223372036854775807 := Iff.rfl

theorem isInt_toInt (number : Int64) : IsInt number.toInt :=
  ⟨number.minValue_le_toInt, number.toInt_le⟩

theorem fits_iff {number : Int} : Decimal.fits number = true ↔ IsInt number := by
  rw [isInt_iff, Decimal.fits, Bool.and_eq_true, decide_eq_true_eq, decide_eq_true_eq]
  omega

theorem exactInt?_of_isInt {number : Int} (isInt : IsInt number) :
    ∃ result : Int64, result.toInt = number ∧ Decimal.exactInt? number = some result := by
  refine ⟨Int64.ofInt number, ?_, if_pos (fits_iff.mpr isInt)⟩
  obtain ⟨above, below⟩ := isInt_iff.mp isInt
  exact Int64.toInt_ofInt_of_le (by omega) (by omega)

theorem exactInt?_of_not_isInt {number : Int} (tooFar : ¬ IsInt number) :
    Decimal.exactInt? number = none :=
  if_neg fun fits => tooFar (fits_iff.mp fits)

/-! ## Sums, differences, products and negations -/

theorem exactly_exact (operator : BinaryOp) (number : Int) :
    ExactOrRecoverable number (exactly operator number) where
  exact := by
    intro isInt
    obtain ⟨result, isNumber, found⟩ := exactInt?_of_isInt isInt
    exact ⟨result, isNumber, by rw [exactly, found]⟩
  recoverable := by
    intro tooFar
    exact ⟨.overflow operator, by rw [exactly, exactInt?_of_not_isInt tooFar]; rfl⟩

theorem negate_exact (number : Int64) :
    ExactOrRecoverable (-number.toInt) (UnaryOp.negate.apply (.int number)) where
  exact := by
    intro isInt
    obtain ⟨result, isNegation, found⟩ := exactInt?_of_isInt isInt
    exact ⟨result, isNegation, by rw [UnaryOp.apply, found]⟩
  recoverable := by
    intro tooFar
    exact ⟨.negationOverflow, by rw [UnaryOp.apply, exactInt?_of_not_isInt tooFar]; rfl⟩

/-! ## Powers -/

theorem ExactOrRecoverable.ok {number : Int} {result : Int64} (isNumber : result.toInt = number) :
    ExactOrRecoverable number (.ok (.int result)) where
  exact := fun _ => ⟨result, isNumber, rfl⟩
  recoverable := fun tooFar => absurd (isNumber ▸ isInt_toInt result) tooFar

theorem ExactOrRecoverable.overflow {number : Int} (tooFar : ¬ IsInt number)
    (reason : RecoverableCause) :
    ExactOrRecoverable number (RobotScript.recoverable reason) where
  exact := fun isInt => absurd isInt tooFar
  recoverable := fun _ => ⟨reason, rfl⟩

/-- The bases whose powers never leave the ints. -/
def IsUnitBase (base : Int64) : Prop := base = 0 ∨ base = 1 ∨ base = -1

theorem two_le_natAbs {base : Int64} (other : ¬ IsUnitBase base) : 2 ≤ base.toInt.natAbs := by
  have notZero : base.toInt ≠ 0 := fun isZero => other (.inl (Int64.toInt_inj.mp isZero))
  have notOne : base.toInt ≠ 1 := fun isOne => other (.inr (.inl (Int64.toInt_inj.mp isOne)))
  have notMinusOne : base.toInt ≠ -1 :=
    fun isMinusOne => other (.inr (.inr (Int64.toInt_inj.mp isMinusOne)))
  omega

/-- From exponent 64 on, only the powers of zero, one and minus one are ints. -/
theorem pow_not_isInt {base : Int64} (other : ¬ IsUnitBase base) {exponent : Nat}
    (large : 64 ≤ exponent) : ¬ IsInt (base.toInt ^ exponent) := by
  have atLeast : 2 ^ 64 ≤ (base.toInt ^ exponent).natAbs := by
    calc 2 ^ 64 ≤ 2 ^ exponent := Nat.pow_le_pow_right (by decide) large
      _ ≤ base.toInt.natAbs ^ exponent := Nat.pow_le_pow_left (two_le_natAbs other) exponent
      _ = (base.toInt ^ exponent).natAbs := (Int.natAbs_pow _ _).symm
  rw [isInt_iff]
  omega

theorem intPower_zero {exponent : Int64} (natural : 0 ≤ exponent.toInt) :
    ExactOrRecoverable ((0 : Int64).toInt ^ exponent.toInt.toNat) (intPower 0 exponent) := by
  rw [intPower, if_neg (by omega), if_pos rfl]
  by_cases isZero : exponent.toInt = 0
  · rw [if_pos isZero, isZero]
    exact .ok rfl
  · rw [if_neg isZero]
    exact .ok (zero_pow (by omega : exponent.toInt.toNat ≠ 0)).symm

theorem intPower_one {exponent : Int64} (natural : 0 ≤ exponent.toInt) :
    ExactOrRecoverable ((1 : Int64).toInt ^ exponent.toInt.toNat) (intPower 1 exponent) := by
  rw [intPower, if_neg (by omega), if_neg (by decide), if_pos rfl]
  exact .ok (one_pow exponent.toInt.toNat).symm

theorem intPower_minusOne {exponent : Int64} (natural : 0 ≤ exponent.toInt) :
    ExactOrRecoverable ((-1 : Int64).toInt ^ exponent.toInt.toNat) (intPower (-1) exponent) := by
  rw [intPower, if_neg (by omega), if_neg (by decide), if_neg (by decide), if_pos rfl]
  by_cases isEven : exponent.toInt % 2 = 0
  · have even : Even exponent.toInt.toNat := Nat.even_iff.mpr (by omega)
    rw [if_pos isEven]
    exact .ok even.neg_one_pow.symm
  · have odd : Odd exponent.toInt.toNat := Nat.odd_iff.mpr (by omega)
    rw [if_neg isEven]
    exact .ok odd.neg_one_pow.symm

theorem intPower_other {base exponent : Int64} (other : ¬ IsUnitBase base)
    (natural : 0 ≤ exponent.toInt) :
    ExactOrRecoverable (base.toInt ^ exponent.toInt.toNat) (intPower base exponent) := by
  obtain ⟨notZero, notOne, notMinusOne⟩ : base ≠ 0 ∧ base ≠ 1 ∧ base ≠ -1 := by
    simpa only [IsUnitBase, not_or] using other
  rw [intPower, if_neg (by omega), if_neg notZero, if_neg notOne, if_neg notMinusOne]
  by_cases tooLarge : largestExponent < exponent.toInt
  · have large : 64 ≤ exponent.toInt.toNat := by
      rw [largestExponent] at tooLarge
      omega
    rw [if_pos tooLarge]
    exact .overflow (pow_not_isInt other large) _
  · rw [if_neg tooLarge]
    by_cases large : 64 ≤ exponent.toInt
    · rw [if_pos large]
      exact .overflow (pow_not_isInt other (by omega)) _
    · rw [if_neg large]
      exact exactly_exact .power _

theorem intPower_exact (base : Int64) {exponent : Int64} (natural : 0 ≤ exponent.toInt) :
    ExactOrRecoverable (base.toInt ^ exponent.toInt.toNat) (intPower base exponent) := by
  by_cases isUnit : IsUnitBase base
  · rcases isUnit with rfl | rfl | rfl
    · exact intPower_zero natural
    · exact intPower_one natural
    · exact intPower_minusOne natural
  · exact intPower_other isUnit natural

theorem intPower_negative (base : Int64) {exponent : Int64} (negative : exponent.toInt < 0) :
    intPower base exponent = .error (.recoverable .negativeExponent) := by
  rw [intPower, if_pos negative]
  rfl

theorem pow_isInt_of_unit {base : Int64} (isUnit : IsUnitBase base) (exponent : Nat) :
    IsInt (base.toInt ^ exponent) := by
  rcases isUnit with rfl | rfl | rfl
  · rcases exponent with _ | exponent
    · exact isInt_toInt 1
    · rw [Int64.toInt_zero, zero_pow (Nat.succ_ne_zero exponent)]
      exact isInt_toInt 0
  · rw [Int64.toInt_one, one_pow]
    exact isInt_toInt 1
  · rcases neg_one_pow_eq_or Int exponent with isOne | isMinusOne
    · exact isOne ▸ isInt_toInt 1
    · exact isMinusOne ▸ isInt_toInt (-1)

theorem intPower_ok_iff {base exponent : Int64} (large : largestExponent < exponent.toInt) :
    (∃ result, intPower base exponent = .ok (.int result)) ↔ IsUnitBase base := by
  have natural : 64 ≤ exponent.toInt := by
    rw [largestExponent] at large
    omega
  have exact := intPower_exact base (by omega : 0 ≤ exponent.toInt)
  constructor
  · rintro ⟨result, computed⟩
    by_contra other
    obtain ⟨reason, failed⟩ := exact.recoverable (pow_not_isInt other (by omega))
    cases computed.symm.trans failed
  · intro isUnit
    obtain ⟨result, -, computed⟩ := exact.exact (pow_isInt_of_unit isUnit _)
    exact ⟨result, computed⟩

/-- Every operator on ints gives the exact whole number as an int, or fails recoverably if
no int is that number; negative exponents always fail, and the largest exponents succeed
for the bases zero, one and minus one alone. -/
theorem int_operators_exact (first second : Int64) :
    ExactOrRecoverable (first.toInt + second.toInt)
        (BinaryOp.add.apply (.int first) (.int second)) ∧
      ExactOrRecoverable (first.toInt - second.toInt)
        (BinaryOp.subtract.apply (.int first) (.int second)) ∧
      ExactOrRecoverable (first.toInt * second.toInt)
        (BinaryOp.multiply.apply (.int first) (.int second)) ∧
      ExactOrRecoverable (-first.toInt) (UnaryOp.negate.apply (.int first)) ∧
      (0 ≤ second.toInt →
        ExactOrRecoverable (first.toInt ^ second.toInt.toNat)
          (BinaryOp.power.apply (.int first) (.int second))) ∧
      (second.toInt < 0 →
        ∃ reason, BinaryOp.power.apply (.int first) (.int second) = .error (.recoverable reason)) ∧
      (4294967295 < second.toInt →
        ((∃ result, BinaryOp.power.apply (.int first) (.int second) = .ok (.int result)) ↔
          first = 0 ∨ first = 1 ∨ first = -1)) :=
  ⟨exactly_exact .add _, exactly_exact .subtract _, exactly_exact .multiply _, negate_exact first,
    intPower_exact first, fun negative => ⟨_, intPower_negative first negative⟩, intPower_ok_iff⟩

/-- The least int is a power that is neither refused nor wrapped; a negative exponent is
refused; an exponent too large to be tried is no obstacle to minus one. -/
theorem int_operators_exact_at_the_edges :
    (0 ≤ (63 : Int64).toInt ∧
      ExactOrRecoverable ((-2 : Int64).toInt ^ (63 : Int64).toInt.toNat)
        (BinaryOp.power.apply (.int (-2)) (.int 63))) ∧
    ((-1 : Int64).toInt < 0 ∧
      ∃ reason, BinaryOp.power.apply (.int 2) (.int (-1)) = .error (.recoverable reason)) ∧
    (4294967295 < (4294967297 : Int64).toInt ∧
      ∃ result, BinaryOp.power.apply (.int (-1)) (.int 4294967297) = .ok (.int result)) :=
  ⟨⟨by decide, (int_operators_exact (-2) 63).2.2.2.2.1 (by decide)⟩,
    ⟨by decide, (int_operators_exact 2 (-1)).2.2.2.2.2.1 (by decide)⟩,
    ⟨by decide, ((int_operators_exact (-1) 4294967297).2.2.2.2.2.2 (by decide)).mpr
      (.inr (.inr rfl))⟩⟩

end RobotScript
