import RobotScript.Arithmetic
import RobotScript.Proofs.Typing.Values

/-! # Operators on values of their types

Where the typing table gives an operator a result type, the operator computes a
value of that type or fails in a way that a `try` branch takes. -/
set_option autoImplicit false

namespace RobotScript

def Computes {α : Type} (good : α → Prop) : Except Cause α → Prop
  | .ok value => good value
  | .error cause => ∃ reason, cause = .recoverable reason

theorem computes_recoverable {α : Type} {good : α → Prop} (reason : RecoverableCause) :
    Computes good (recoverable reason : Except Cause α) := ⟨reason, rfl⟩

theorem Computes.mono {α : Type} {good better : α → Prop} {outcome : Except Cause α}
    (computes : Computes good outcome) (goods : ∀ value, good value → better value) :
    Computes better outcome := by
  cases outcome with
  | ok value => exact goods value computes
  | error cause => exact computes

theorem exactly_computes (operator : BinaryOp) (number : Int) :
    Computes (·.Is .int) (exactly operator number) := by
  unfold exactly
  split
  · exact Value.int_is _
  · exact computes_recoverable _

theorem intPower_computes (base exponent : Int64) :
    Computes (·.Is .int) (intPower base exponent) := by
  unfold intPower
  dsimp only
  split
  · exact computes_recoverable _
  split
  · exact Value.int_is _
  split
  · exact Value.int_is _
  split
  · exact Value.int_is _
  split
  · exact computes_recoverable _
  split
  · exact computes_recoverable _
  · exact exactly_computes _ _

theorem Value.Is.asDouble? {value : Value} {ty : Ty} (typed : value.Is ty)
    (numeric : ty.isNumeric = true) : ∃ number, value.asDouble? = some number := by
  rcases Ty.isNumeric_iff.mp numeric with rfl | rfl
  · obtain ⟨number, rfl⟩ := typed.int
    exact ⟨_, rfl⟩
  · obtain ⟨number, rfl⟩ := typed.double
    exact ⟨_, rfl⟩

section

variable {left right : Value} {leftTy rightTy : Ty}

theorem numbers_ok (operator : BinaryOp) (leftTyped : left.Is leftTy) (rightTyped : right.Is rightTy)
    (leftNumeric : leftTy.isNumeric = true) (rightNumeric : rightTy.isNumeric = true) :
    ∃ first second, numbers operator left right = .ok (first, second) := by
  obtain ⟨first, firstEq⟩ := leftTyped.asDouble? leftNumeric
  obtain ⟨second, secondEq⟩ := rightTyped.asDouble? rightNumeric
  exact ⟨first, second, by rw [numbers, firstEq, secondEq]⟩

theorem arithmetic_computes (operator : BinaryOp) {onInts : Int64 → Int64 → Except Cause Value}
    (intsCompute : ∀ first second, Computes (·.Is .int) (onInts first second))
    (onDoubles : Float → Float → Float) (leftTyped : left.Is leftTy) (rightTyped : right.Is rightTy)
    (leftNumeric : leftTy.isNumeric = true) (rightNumeric : rightTy.isNumeric = true) :
    Computes (·.Is (leftTy.widest rightTy)) (arithmetic operator onInts onDoubles left right) := by
  obtain ⟨first, second, both⟩ :=
    numbers_ok operator leftTyped rightTyped leftNumeric rightNumeric
  rcases Ty.isNumeric_iff.mp leftNumeric with rfl | rfl
  · obtain ⟨number, rfl⟩ := leftTyped.int
    rcases Ty.isNumeric_iff.mp rightNumeric with rfl | rfl
    · obtain ⟨other, rfl⟩ := rightTyped.int
      exact intsCompute number other
    · obtain ⟨other, rfl⟩ := rightTyped.double
      rw [arithmetic, both]
      · exact Value.double_is _
      · simp
  · obtain ⟨number, rfl⟩ := leftTyped.double
    rw [arithmetic, both]
    · exact Value.double_is _
    · simp

theorem addOrJoin_computes (leftTyped : left.Is leftTy) (rightTyped : right.Is rightTy)
    (leftNumeric : leftTy.isNumeric = true) (rightNumeric : rightTy.isNumeric = true) :
    Computes (·.Is (leftTy.widest rightTy)) (addOrJoin left right) := by
  have sum : Computes (·.Is (leftTy.widest rightTy)) (add left right) :=
    arithmetic_computes .add (fun _ _ => exactly_computes _ _) _ leftTyped rightTyped leftNumeric
      rightNumeric
  rcases Ty.isNumeric_iff.mp leftNumeric with rfl | rfl <;>
    rcases Ty.isNumeric_iff.mp rightNumeric with rfl | rfl
  · obtain ⟨_, rfl⟩ := leftTyped.int
    obtain ⟨_, rfl⟩ := rightTyped.int
    exact sum
  · obtain ⟨_, rfl⟩ := leftTyped.int
    obtain ⟨_, rfl⟩ := rightTyped.double
    exact sum
  · obtain ⟨_, rfl⟩ := leftTyped.double
    obtain ⟨_, rfl⟩ := rightTyped.int
    exact sum
  · obtain ⟨_, rfl⟩ := leftTyped.double
    obtain ⟨_, rfl⟩ := rightTyped.double
    exact sum

theorem join_computes (leftTyped : left.Is leftTy) (rightTyped : right.Is rightTy)
    (joins : leftTy.joins rightTy = true) : Computes (·.Is .string) (addOrJoin left right) := by
  simp only [Ty.joins, Bool.or_eq_true, Bool.and_eq_true, decide_eq_true_eq] at joins
  rcases joins with ⟨rfl, -⟩ | ⟨rfl, leftNumeric⟩
  · obtain ⟨_, rfl⟩ := leftTyped.string
    exact Value.string_is _
  · obtain ⟨_, rfl⟩ := rightTyped.string
    rcases Ty.isNumeric_iff.mp leftNumeric with rfl | rfl
    · obtain ⟨_, rfl⟩ := leftTyped.int
      exact Value.string_is _
    · obtain ⟨_, rfl⟩ := leftTyped.double
      exact Value.string_is _

theorem divide_computes (leftTyped : left.Is leftTy) (rightTyped : right.Is rightTy)
    (leftNumeric : leftTy.isNumeric = true) (rightNumeric : rightTy.isNumeric = true) :
    Computes (·.Is .double) (divide left right) := by
  obtain ⟨first, second, both⟩ :=
    numbers_ok .divide leftTyped rightTyped leftNumeric rightNumeric
  rw [divide, both]
  dsimp only
  split
  · exact computes_recoverable _
  · exact Value.double_is _

theorem compare_computes (operator : BinaryOp) (holds : Float → Float → Bool)
    (leftTyped : left.Is leftTy) (rightTyped : right.Is rightTy)
    (leftNumeric : leftTy.isNumeric = true) (rightNumeric : rightTy.isNumeric = true) :
    Computes (·.Is .bool) (compare operator holds left right) := by
  obtain ⟨first, second, both⟩ :=
    numbers_ok operator leftTyped rightTyped leftNumeric rightNumeric
  rw [compare, both]
  exact Value.bool_is _

theorem logic_computes (combine : Bool → Bool → Bool) (leftTyped : left.Is .bool)
    (rightTyped : right.Is .bool) : Computes (·.Is .bool) (logic combine left right) := by
  obtain ⟨first, rfl⟩ := leftTyped.bool
  obtain ⟨second, rfl⟩ := rightTyped.bool
  exact Value.bool_is _

theorem BinaryOp.apply_computes {operator : BinaryOp} {ty : Ty} (leftTyped : left.Is leftTy)
    (rightTyped : right.Is rightTy) (applies : operator.result? leftTy rightTy = some ty) :
    Computes (·.Is ty) (operator.apply left right) := by
  have numericOf (numeric : (leftTy.isNumeric && rightTy.isNumeric) = true) :
      leftTy.isNumeric = true ∧ rightTy.isNumeric = true := Bool.and_eq_true_iff.mp numeric
  cases operator with
  | add =>
    simp only [BinaryOp.result?] at applies
    split at applies
    · rename_i numeric
      cases applies
      obtain ⟨leftNumeric, rightNumeric⟩ := numericOf numeric
      exact addOrJoin_computes leftTyped rightTyped leftNumeric rightNumeric
    · split at applies
      · rename_i joins
        cases applies
        exact join_computes leftTyped rightTyped joins
      · cases applies
  | subtract =>
    obtain ⟨numeric, ⟨⟩⟩ := Option.ite_none_right_eq_some.mp applies
    obtain ⟨leftNumeric, rightNumeric⟩ := numericOf numeric
    exact arithmetic_computes .subtract (fun _ _ => exactly_computes _ _) _ leftTyped rightTyped
      leftNumeric rightNumeric
  | multiply =>
    obtain ⟨numeric, ⟨⟩⟩ := Option.ite_none_right_eq_some.mp applies
    obtain ⟨leftNumeric, rightNumeric⟩ := numericOf numeric
    exact arithmetic_computes .multiply (fun _ _ => exactly_computes _ _) _ leftTyped rightTyped
      leftNumeric rightNumeric
  | power =>
    obtain ⟨numeric, ⟨⟩⟩ := Option.ite_none_right_eq_some.mp applies
    obtain ⟨leftNumeric, rightNumeric⟩ := numericOf numeric
    exact arithmetic_computes .power intPower_computes _ leftTyped rightTyped leftNumeric
      rightNumeric
  | divide =>
    obtain ⟨numeric, ⟨⟩⟩ := Option.ite_none_right_eq_some.mp applies
    obtain ⟨leftNumeric, rightNumeric⟩ := numericOf numeric
    exact divide_computes leftTyped rightTyped leftNumeric rightNumeric
  | less | lessEqual | greater | greaterEqual =>
    obtain ⟨numeric, ⟨⟩⟩ := Option.ite_none_right_eq_some.mp applies
    obtain ⟨leftNumeric, rightNumeric⟩ := numericOf numeric
    exact compare_computes _ _ leftTyped rightTyped leftNumeric rightNumeric
  | equal | notEqual =>
    obtain ⟨-, ⟨⟩⟩ := Option.ite_none_right_eq_some.mp applies
    exact Value.bool_is _
  | and | or =>
    obtain ⟨bools, ⟨⟩⟩ := Option.ite_none_right_eq_some.mp applies
    obtain ⟨rfl, rfl⟩ : leftTy = .bool ∧ rightTy = .bool := by simpa using bools
    exact logic_computes _ leftTyped rightTyped

end

theorem UnaryOp.apply_computes {operator : UnaryOp} {operand : Value} {operandTy ty : Ty}
    (typed : operand.Is operandTy) (applies : operator.result? operandTy = some ty) :
    Computes (·.Is ty) (operator.apply operand) := by
  cases operator with
  | negate =>
    obtain ⟨numeric, ⟨⟩⟩ := Option.ite_none_right_eq_some.mp applies
    rcases Ty.isNumeric_iff.mp numeric with rfl | rfl
    · obtain ⟨number, rfl⟩ := typed.int
      simp only [UnaryOp.apply]
      split
      · exact Value.int_is _
      · exact computes_recoverable _
    · obtain ⟨number, rfl⟩ := typed.double
      exact Value.double_is _
  | not =>
    obtain ⟨rfl, ⟨⟩⟩ := Option.ite_none_right_eq_some.mp applies
    obtain ⟨truth, rfl⟩ := typed.bool
    exact Value.bool_is _

theorem truth_computes {value : Value} (typed : value.Is .bool) :
    ∃ result, truth value = .ok result := by
  obtain ⟨result, rfl⟩ := typed.bool
  exact ⟨result, rfl⟩

end RobotScript
