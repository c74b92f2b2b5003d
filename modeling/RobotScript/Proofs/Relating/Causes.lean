import RobotScript.Evaluation

/-! # Why operations on values fail

Operators, indices, counts and assignments fail for a few causes only, which lie in
the values that they are given: none of them lies in a limit, in a name, in a call or
in a jump. -/
set_option autoImplicit false

namespace RobotScript

open Evaluation

def RecoverableCause.isOfValues : RecoverableCause → Bool
  | .overflow _ | .negationOverflow | .divisionByZero | .negativeExponent | .exponentTooLarge _
  | .indexOutOfRange _ _ _ => true
  | _ => false

def FatalCause.isOfValues : FatalCause → Bool
  | .notIndexable _ | .expectedBool _ | .binaryMismatch _ _ _ | .unaryMismatch _ _
  | .repeatCountNotInt _ | .assignmentWithoutValue _ _ => true
  | _ => false

/-- The cause lies in the values that were to be combined. -/
def Cause.OfValues : Cause → Prop
  | .recoverable cause => cause.isOfValues = true
  | .fatal cause => cause.isOfValues = true
  | _ => False

/-- A computation that fails for no other cause than its values. -/
def OnValues {α : Type} (outcome : Except Cause α) : Prop :=
  ∀ cause, outcome = .error cause → cause.OfValues

namespace OnValues

variable {α : Type}

theorem ok (value : α) : OnValues (.ok value) := by
  rintro _ ⟨⟩

theorem recoverable {cause : RecoverableCause} (ofValues : cause.isOfValues = true) :
    OnValues (RobotScript.recoverable cause : Except Cause α) := by
  rintro _ ⟨⟩
  exact ofValues

theorem fatal {cause : FatalCause} (ofValues : cause.isOfValues = true) :
    OnValues (RobotScript.fatal cause : Except Cause α) := by
  rintro _ ⟨⟩
  exact ofValues

theorem exactly (operator : BinaryOp) (number : Int) : OnValues (exactly operator number) := by
  unfold RobotScript.exactly
  split
  · exact ok _
  · exact recoverable rfl

theorem intPower (base exponent : Int64) : OnValues (intPower base exponent) := by
  unfold RobotScript.intPower
  dsimp only
  repeat' split
  all_goals first
    | exact ok _
    | exact recoverable rfl
    | exact exactly _ _

theorem numbers (operator : BinaryOp) (left right : Value) :
    OnValues (numbers operator left right) := by
  unfold RobotScript.numbers
  split
  · exact ok _
  · exact fatal rfl

theorem arithmetic {operator : BinaryOp} {onInts : Int64 → Int64 → Except Cause Value}
    (ofInts : ∀ first second, OnValues (onInts first second)) (onDoubles : Float → Float → Float)
    (left right : Value) : OnValues (arithmetic operator onInts onDoubles left right) := by
  unfold RobotScript.arithmetic
  split
  · exact ofInts _ _
  · split
    · exact ok _
    next failed =>
      rintro _ ⟨⟩
      exact numbers _ _ _ _ failed

theorem compare (operator : BinaryOp) (holds : Float → Float → Bool) (left right : Value) :
    OnValues (compare operator holds left right) := by
  unfold RobotScript.compare
  split
  · exact ok _
  next failed =>
    rintro _ ⟨⟩
    exact numbers _ _ _ _ failed

theorem divide (left right : Value) : OnValues (divide left right) := by
  unfold RobotScript.divide
  split
  · split
    · exact recoverable rfl
    · exact ok _
  next failed =>
    rintro _ ⟨⟩
    exact numbers _ _ _ _ failed

theorem truth (value : Value) : OnValues (truth value) := by
  unfold RobotScript.truth
  split
  · exact ok _
  · exact fatal rfl

theorem logic (combine : Bool → Bool → Bool) (left right : Value) :
    OnValues (logic combine left right) := by
  unfold RobotScript.logic
  split
  · exact ok _
  next failed =>
    rintro _ ⟨⟩
    exact truth _ _ failed
  next failed _ =>
    rintro _ ⟨⟩
    exact truth _ _ failed

theorem addOrJoin (left right : Value) : OnValues (addOrJoin left right) := by
  unfold RobotScript.addOrJoin
  split
  · exact ok _
  · exact ok _
  · exact arithmetic (fun _ _ => exactly _ _) _ _ _

theorem binary (operator : BinaryOp) (left right : Value) :
    OnValues (operator.apply left right) := by
  cases operator with
  | add => exact addOrJoin left right
  | subtract => exact arithmetic (fun _ _ => exactly _ _) _ _ _
  | multiply => exact arithmetic (fun _ _ => exactly _ _) _ _ _
  | divide => exact divide left right
  | power => exact arithmetic intPower _ _ _
  | equal => exact ok _
  | notEqual => exact ok _
  | less => exact compare _ _ _ _
  | lessEqual => exact compare _ _ _ _
  | greater => exact compare _ _ _ _
  | greaterEqual => exact compare _ _ _ _
  | and => exact logic _ _ _
  | or => exact logic _ _ _

theorem unary (operator : UnaryOp) (operand : Value) : OnValues (operator.apply operand) := by
  unfold UnaryOp.apply
  split
  · split
    · exact ok _
    · exact recoverable rfl
  · exact ok _
  · exact ok _
  · exact fatal rfl

theorem itemAt (name : String) (list position : Value) : OnValues (itemAt name list position) := by
  unfold Evaluation.itemAt
  split
  · split
    · exact recoverable rfl
    · split
      · exact ok _
      · exact recoverable rfl
  · exact fatal rfl

theorem updated (name : String) (operator : AssignOp) (current : Value) (right : Option Value) :
    OnValues (updated name operator current right) := by
  unfold Evaluation.updated
  split
  · exact ok _
  · exact binary _ _ _
  · exact binary _ _ _
  · exact binary _ _ _
  · exact fatal rfl

theorem repetitions (count : Value) : OnValues (repetitions count) := by
  unfold Evaluation.repetitions
  split
  · exact ok _
  · exact fatal rfl

end OnValues

end RobotScript
