import RobotScript.Arithmetic
import RobotScript.Proofs.Double.Whole

/-! # The order of ints

Equality of ints is exact, but their order is that of their doubles: the operators tell the
order of the two ints rounded to 53 binary digits. Where rounding does not make different
ints equal, they tell the order of the ints; neighbours beyond the 53rd digit can come out
neither less, nor equal, nor greater. -/
set_option autoImplicit false

namespace RobotScript

structure OrderedAs (first second : Value) (left right : Int) : Prop where
  less : BinaryOp.less.apply first second = .ok (.bool (decide (left < right)))
  lessEqual : BinaryOp.lessEqual.apply first second = .ok (.bool (decide (left ≤ right)))
  greater : BinaryOp.greater.apply first second = .ok (.bool (decide (right < left)))
  greaterEqual : BinaryOp.greaterEqual.apply first second = .ok (.bool (decide (right ≤ left)))

def BinaryOp.Tells (operator : BinaryOp) (first second : Value) : Prop :=
  operator.apply first second = .ok (.bool true)

/-- Exactly one of less, equal and greater holds, and the other two operators say that one
of two of these holds. -/
structure Trichotomous (first second : Value) : Prop where
  one : BinaryOp.less.Tells first second ∨ BinaryOp.equal.Tells first second ∨
    BinaryOp.greater.Tells first second
  notLessEqual : ¬ (BinaryOp.less.Tells first second ∧ BinaryOp.equal.Tells first second)
  notLessGreater : ¬ (BinaryOp.less.Tells first second ∧ BinaryOp.greater.Tells first second)
  notEqualGreater : ¬ (BinaryOp.equal.Tells first second ∧ BinaryOp.greater.Tells first second)
  lessEqual : BinaryOp.lessEqual.Tells first second ↔
    BinaryOp.less.Tells first second ∨ BinaryOp.equal.Tells first second
  greaterEqual : BinaryOp.greaterEqual.Tells first second ↔
    BinaryOp.greater.Tells first second ∨ BinaryOp.equal.Tells first second

theorem ok_decide_iff {proposition : Prop} [Decidable proposition] :
    (.ok (.bool (decide proposition)) : Except Cause Value) = .ok (.bool true) ↔ proposition := by
  rw [Except.ok.injEq, Value.bool.injEq, decide_eq_true_eq]

section

variable {first second : Int64}

theorem ordered_rounded (first second : Int64) :
    OrderedAs (.int first) (.int second) (roundedInt first.toInt) (roundedInt second.toInt) := by
  have isFirst := represents_nearestDouble first
  have isSecond := represents_nearestDouble second
  constructor
  · exact congrArg (Except.ok ∘ Value.bool)
      (decide_eq_decide.mpr (lt_iff_of_represents isFirst isSecond))
  · exact congrArg (Except.ok ∘ Value.bool)
      (decide_eq_decide.mpr (le_iff_of_represents isFirst isSecond))
  · exact congrArg (Except.ok ∘ Value.bool)
      (decide_eq_decide.mpr (lt_iff_of_represents isSecond isFirst))
  · exact congrArg (Except.ok ∘ Value.bool)
      (decide_eq_decide.mpr (le_iff_of_represents isSecond isFirst))

theorem equal_exact (first second : Int64) :
    BinaryOp.equal.apply (.int first) (.int second) =
      .ok (.bool (decide (first.toInt = second.toInt))) :=
  congrArg (Except.ok ∘ Value.bool) (decide_eq_decide.mpr Int64.toInt_inj.symm)

/-- Rounding keeps the order, so it can only hide a difference. -/
theorem roundedInt_lt_iff {left right : Int}
    (distinct : left ≠ right → roundedInt left ≠ roundedInt right) :
    roundedInt left < roundedInt right ↔ left < right := by
  constructor
  · intro less
    by_contra notLess
    exact absurd (roundedInt_mono (not_lt.mp notLess)) (not_le.mpr less)
  · intro less
    exact (roundedInt_mono less.le).lt_of_ne (distinct less.ne)

theorem ordered_exact
    (distinct : first.toInt ≠ second.toInt → roundedInt first.toInt ≠ roundedInt second.toInt) :
    OrderedAs (.int first) (.int second) first.toInt second.toInt := by
  obtain ⟨less, lessEqual, greater, greaterEqual⟩ := ordered_rounded first second
  have below := roundedInt_lt_iff distinct
  have above := roundedInt_lt_iff fun different => (distinct different.symm).symm
  constructor
  · rw [less, decide_eq_decide.mpr below]
  · rw [lessEqual, decide_eq_decide.mpr (not_lt.symm.trans ((not_congr above).trans not_lt))]
  · rw [greater, decide_eq_decide.mpr above]
  · rw [greaterEqual, decide_eq_decide.mpr (not_lt.symm.trans ((not_congr below).trans not_lt))]

theorem trichotomous_of_ordered
    (ordered : OrderedAs (.int first) (.int second) first.toInt second.toInt) :
    Trichotomous (.int first) (.int second) := by
  have less : BinaryOp.less.Tells (.int first) (.int second) ↔ first.toInt < second.toInt := by
    rw [BinaryOp.Tells, ordered.less, ok_decide_iff]
  have lessEqual : BinaryOp.lessEqual.Tells (.int first) (.int second) ↔
      first.toInt ≤ second.toInt := by
    rw [BinaryOp.Tells, ordered.lessEqual, ok_decide_iff]
  have greater : BinaryOp.greater.Tells (.int first) (.int second) ↔
      second.toInt < first.toInt := by
    rw [BinaryOp.Tells, ordered.greater, ok_decide_iff]
  have greaterEqual : BinaryOp.greaterEqual.Tells (.int first) (.int second) ↔
      second.toInt ≤ first.toInt := by
    rw [BinaryOp.Tells, ordered.greaterEqual, ok_decide_iff]
  have equal : BinaryOp.equal.Tells (.int first) (.int second) ↔ first.toInt = second.toInt := by
    rw [BinaryOp.Tells, equal_exact, ok_decide_iff]
  constructor <;> simp only [less, lessEqual, greater, greaterEqual, equal] <;> omega

theorem unordered_of_rounded_eq (different : first.toInt ≠ second.toInt)
    (same : roundedInt first.toInt = roundedInt second.toInt) :
    ¬ BinaryOp.less.Tells (.int first) (.int second) ∧
      ¬ BinaryOp.equal.Tells (.int first) (.int second) ∧
      ¬ BinaryOp.greater.Tells (.int first) (.int second) := by
  have ordered := ordered_rounded first second
  rw [BinaryOp.Tells, BinaryOp.Tells, BinaryOp.Tells, ordered.less, ordered.greater, equal_exact,
    ok_decide_iff, ok_decide_iff, ok_decide_iff]
  omega

/-- Ints of at most 53 binary digits are told apart. -/
theorem roundedInt_ne_of_short {left right : Int} (leftShort : left.natAbs < 2 ^ 53)
    (rightShort : right.natAbs < 2 ^ 53) (different : left ≠ right) :
    roundedInt left ≠ roundedInt right := by
  rwa [roundedInt_of_short leftShort, roundedInt_of_short rightShort]

end

/-- Of all ints, `==` tells whether they are equal, and the order operators tell the order
of the rounded ints. If rounding tells the two ints apart, as it does all ints of at most 53
binary digits, the order is exact and exactly one of less, equal and greater holds; if not,
none of the three does. -/
theorem int_order_exact_unless_rounded (first second : Int64) :
    OrderedAs (.int first) (.int second) (roundedInt first.toInt) (roundedInt second.toInt) ∧
      BinaryOp.equal.apply (.int first) (.int second) =
        .ok (.bool (decide (first.toInt = second.toInt))) ∧
      ((first.toInt ≠ second.toInt → roundedInt first.toInt ≠ roundedInt second.toInt) →
        OrderedAs (.int first) (.int second) first.toInt second.toInt ∧
          Trichotomous (.int first) (.int second)) ∧
      (first.toInt.natAbs < 2 ^ 53 → second.toInt.natAbs < 2 ^ 53 →
        first.toInt ≠ second.toInt → roundedInt first.toInt ≠ roundedInt second.toInt) ∧
      (first.toInt ≠ second.toInt → roundedInt first.toInt = roundedInt second.toInt →
        ¬ BinaryOp.less.Tells (.int first) (.int second) ∧
          ¬ BinaryOp.equal.Tells (.int first) (.int second) ∧
          ¬ BinaryOp.greater.Tells (.int first) (.int second)) := by
  refine ⟨ordered_rounded first second, equal_exact first second, ?_, roundedInt_ne_of_short,
    unordered_of_rounded_eq⟩
  intro distinct
  have ordered := ordered_exact distinct
  exact ⟨ordered, trichotomous_of_ordered ordered⟩

/-- Two ints of 54 binary digits that rounding tells apart, two small ones, and two
neighbours that rounding makes one. -/
theorem int_order_exact_unless_rounded_at_the_edge :
    (OrderedAs (.int 9007199254740993) (.int 9007199254740995) 9007199254740993 9007199254740995 ∧
      Trichotomous (.int 9007199254740993) (.int 9007199254740995)) ∧
    roundedInt (-3) ≠ roundedInt 4 ∧
    ¬ BinaryOp.less.Tells (.int 9007199254740992) (.int 9007199254740993) :=
  ⟨(int_order_exact_unless_rounded 9007199254740993 9007199254740995).2.2.1 (by decide +kernel),
    (int_order_exact_unless_rounded (-3) 4).2.2.2.1 (by decide) (by decide) (by decide),
    ((int_order_exact_unless_rounded 9007199254740992 9007199254740993).2.2.2.2 (by decide)
      (by decide +kernel)).1⟩

/-- Two to the 53rd is less than the number behind it, but no operator says so. -/
theorem neighbours_unordered :
    (9007199254740992 : Int64).toInt < (9007199254740993 : Int64).toInt ∧
      BinaryOp.less.apply (.int 9007199254740992) (.int 9007199254740993) = .ok (.bool false) ∧
      BinaryOp.lessEqual.apply (.int 9007199254740993) (.int 9007199254740992) =
        .ok (.bool true) ∧
      ¬ Trichotomous (.int 9007199254740992) (.int 9007199254740993) := by
  refine ⟨by decide, ?_, ?_, ?_⟩
  · rw [(ordered_rounded _ _).less, decide_eq_false (by decide +kernel)]
  · rw [(ordered_rounded _ _).lessEqual, decide_eq_true (by decide +kernel)]
  · intro trichotomous
    have different : (9007199254740992 : Int64).toInt ≠ (9007199254740993 : Int64).toInt := by
      decide
    obtain ⟨notLess, notEqual, notGreater⟩ := unordered_of_rounded_eq different (by decide +kernel)
    rcases trichotomous.one with less | equal | greater
    · exact notLess less
    · exact notEqual equal
    · exact notGreater greater

end RobotScript
