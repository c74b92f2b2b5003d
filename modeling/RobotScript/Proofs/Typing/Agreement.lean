import RobotScript.Evaluation
import RobotScript.Proofs.Relating.Runs
import RobotScript.Proofs.Typing.Operators

/-! # The typing table and the operators agree

On values of types that the table names, an operator gives a value of the type that stands
in the table or fails in a way that a `try` branch takes. On values of all other types it
fails for good, with two exceptions: a string joins with anything, and anything may be
compared for equality. `and` and `or` give the same on two truths whether or not the right
one is looked at. -/
set_option autoImplicit false

namespace RobotScript

/-- A value of exactly this type, or a recoverable cause. -/
def Gives (ty : Ty) (outcome : Except Cause Value) : Prop := Computes (·.ty = ty) outcome

def Refused {α : Type} (outcome : Except Cause α) : Prop :=
  ∃ reason, outcome = .error (.fatal reason)

def WithString (left right : Value) : Prop := left.ty = .string ∨ right.ty = .string

/-- What a binary operator does on two values is what the typing table says. -/
structure BinaryOp.Agrees (operator : BinaryOp) (left right : Value) : Prop where
  gives : ∀ ty, operator.result? left.ty right.ty = some ty → Gives ty (operator.apply left right)
  joins : operator.result? left.ty right.ty = none → operator = .add → WithString left right →
    ∃ characters, operator.apply left right = .ok (.string characters)
  compares : operator.result? left.ty right.ty = none → operator = .equal ∨ operator = .notEqual →
    ∃ truth, operator.apply left right = .ok (.bool truth)
  refuses : operator.result? left.ty right.ty = none →
    ¬ (operator = .add ∧ WithString left right) → ¬ (operator = .equal ∨ operator = .notEqual) →
    Refused (operator.apply left right)

structure UnaryOp.Agrees (operator : UnaryOp) (operand : Value) : Prop where
  gives : ∀ ty, operator.result? operand.ty = some ty → Gives ty (operator.apply operand)
  refuses : operator.result? operand.ty = none → Refused (operator.apply operand)

theorem refused_fatal {α : Type} (reason : FatalCause) : Refused (fatal reason : Except Cause α) :=
  ⟨reason, rfl⟩

theorem Value.Is.gives {ty : Ty} {outcome : Except Cause Value}
    (computes : Computes (·.Is ty) outcome) : Gives ty outcome :=
  computes.mono fun _ typed => typed.ty

/-! ## Lists are never operands -/

theorem Ty.foreign_of_list {ty : Ty} (isList : ty.isList = true) :
    ty.isNumeric = false ∧ ty ≠ .string ∧ ty ≠ .bool := by
  obtain ⟨primitive, listed⟩ := ty
  cases isList
  cases primitive <;> decide

theorem BinaryOp.not_list {operator : BinaryOp} {left right ty : Ty}
    (applies : operator.result? left right = some ty) :
    left.isList = false ∧ right.isList = false := by
  constructor
  · by_contra isList
    obtain ⟨notNumeric, notString, notBool⟩ := Ty.foreign_of_list (eq_true_of_ne_false isList)
    cases operator <;> simp [BinaryOp.result?, Ty.joins, notNumeric, notString, notBool] at applies
  · by_contra isList
    obtain ⟨notNumeric, notString, notBool⟩ := Ty.foreign_of_list (eq_true_of_ne_false isList)
    cases operator <;> simp [BinaryOp.result?, Ty.joins, notNumeric, notString, notBool] at applies

theorem UnaryOp.not_list {operator : UnaryOp} {operand ty : Ty}
    (applies : operator.result? operand = some ty) : operand.isList = false := by
  by_contra isList
  obtain ⟨notNumeric, notString, notBool⟩ := Ty.foreign_of_list (eq_true_of_ne_false isList)
  cases operator <;> simp [UnaryOp.result?, notNumeric, notBool] at applies

theorem Value.is_of_not_list {value : Value} (notList : value.ty.isList = false) :
    value.Is value.ty :=
  ⟨rfl, Value.wellFormed_of_scalar notList⟩

/-! ## What the table does not name is refused -/

theorem Value.eq_string {value : Value} (isString : value.ty = .string) :
    ∃ characters, value = .string characters :=
  Value.Is.string ⟨isString, Value.wellFormed_of_scalar (by rw [isString]; rfl)⟩

theorem truth_cases (value : Value) :
    (∃ result, value = .bool result) ∨
      value.ty ≠ .bool ∧ truth value = fatal (.expectedBool value.ty) := by
  cases value with
  | bool result => exact .inl ⟨result, rfl⟩
  | int _ | double _ | string _ | list _ _ | void => exact .inr ⟨nofun, rfl⟩

theorem not_of_unnamed {α : Type} {condition : Prop} [Decidable condition] {result : α}
    (unnamed : (if condition then some result else none) = none) : ¬ condition := by
  intro holds
  rw [if_pos holds] at unnamed
  cases unnamed

theorem Value.asDouble?_eq_none {value : Value} (notNumeric : value.ty.isNumeric = false) :
    value.asDouble? = none := by
  cases value with
  | int number => cases notNumeric
  | double number => cases notNumeric
  | bool truth => rfl
  | string characters => rfl
  | list element items => rfl
  | void => rfl

section

variable {left right : Value}

theorem numbers_refused (operator : BinaryOp)
    (notNumeric : ¬ (left.ty.isNumeric && right.ty.isNumeric) = true) :
    numbers operator left right = fatal (.binaryMismatch operator left.ty right.ty) := by
  rw [Bool.and_eq_true, not_and_or, Bool.not_eq_true, Bool.not_eq_true] at notNumeric
  rcases notNumeric with leftOther | rightOther
  · rw [numbers, Value.asDouble?_eq_none leftOther]
  · rw [numbers, Value.asDouble?_eq_none rightOther]
    cases left.asDouble? <;> rfl

theorem arithmetic_refused (operator : BinaryOp) (onInts : Int64 → Int64 → Except Cause Value)
    (onDoubles : Float → Float → Float)
    (notNumeric : ¬ (left.ty.isNumeric && right.ty.isNumeric) = true) :
    Refused (arithmetic operator onInts onDoubles left right) := by
  unfold arithmetic
  split
  · exact absurd rfl notNumeric
  · rw [numbers_refused operator notNumeric]
    exact refused_fatal _

theorem divide_refused (notNumeric : ¬ (left.ty.isNumeric && right.ty.isNumeric) = true) :
    Refused (divide left right) := by
  rw [divide, numbers_refused .divide notNumeric]
  exact refused_fatal _

theorem compare_refused (operator : BinaryOp) (holds : Float → Float → Bool)
    (notNumeric : ¬ (left.ty.isNumeric && right.ty.isNumeric) = true) :
    Refused (compare operator holds left right) := by
  rw [compare, numbers_refused operator notNumeric]
  exact refused_fatal _

theorem addOrJoin_refused (noString : ¬ WithString left right)
    (notNumeric : ¬ (left.ty.isNumeric && right.ty.isNumeric) = true) :
    Refused (addOrJoin left right) := by
  unfold addOrJoin
  split
  · exact absurd (.inl rfl) noString
  · exact absurd (.inr rfl) noString
  · exact arithmetic_refused .add _ _ notNumeric

theorem addOrJoin_joins (withString : WithString left right) :
    ∃ characters, addOrJoin left right = .ok (.string characters) := by
  unfold addOrJoin
  split
  · exact ⟨_, rfl⟩
  · exact ⟨_, rfl⟩
  · rename_i leftOther rightOther
    rcases withString with isString | isString
    · obtain ⟨characters, rfl⟩ := Value.eq_string isString
      exact absurd rfl (leftOther characters)
    · obtain ⟨characters, rfl⟩ := Value.eq_string isString
      exact absurd rfl (rightOther characters)

theorem logic_refused (combine : Bool → Bool → Bool)
    (notBools : ¬ (left.ty = .bool ∧ right.ty = .bool)) : Refused (logic combine left right) := by
  rcases truth_cases left with ⟨first, rfl⟩ | ⟨leftOther, failed⟩
  · rcases truth_cases right with ⟨second, rfl⟩ | ⟨rightOther, failed⟩
    · exact absurd ⟨rfl, rfl⟩ notBools
    · rw [logic, failed]
      exact refused_fatal _
  · rw [logic, failed]
    exact refused_fatal _

theorem BinaryOp.apply_refused {operator : BinaryOp}
    (unnamed : operator.result? left.ty right.ty = none)
    (noJoin : ¬ (operator = .add ∧ WithString left right))
    (noEquality : ¬ (operator = .equal ∨ operator = .notEqual)) :
    Refused (operator.apply left right) := by
  cases operator with
  | add =>
    have notNumeric : ¬ (left.ty.isNumeric && right.ty.isNumeric) = true := by
      intro numeric
      rw [BinaryOp.result?, if_pos numeric] at unnamed
      cases unnamed
    exact addOrJoin_refused (fun withString => noJoin ⟨rfl, withString⟩) notNumeric
  | subtract | multiply | power => exact arithmetic_refused _ _ _ (not_of_unnamed unnamed)
  | divide => exact divide_refused (not_of_unnamed unnamed)
  | less | lessEqual | greater | greaterEqual => exact compare_refused _ _ (not_of_unnamed unnamed)
  | equal => exact absurd (.inl rfl) noEquality
  | notEqual => exact absurd (.inr rfl) noEquality
  | and | or => exact logic_refused _ (by simpa using not_of_unnamed unnamed)

theorem BinaryOp.agrees (operator : BinaryOp) (left right : Value) :
    operator.Agrees left right where
  gives := by
    intro ty applies
    obtain ⟨leftScalar, rightScalar⟩ := BinaryOp.not_list applies
    exact Value.Is.gives (BinaryOp.apply_computes (Value.is_of_not_list leftScalar)
      (Value.is_of_not_list rightScalar) applies)
  joins := by
    rintro - rfl withString
    exact addOrJoin_joins withString
  compares := by
    rintro - (rfl | rfl)
    · exact ⟨_, rfl⟩
    · exact ⟨_, rfl⟩
  refuses := BinaryOp.apply_refused

theorem UnaryOp.agrees (operator : UnaryOp) (operand : Value) : operator.Agrees operand where
  gives := by
    intro ty applies
    exact Value.Is.gives
      (UnaryOp.apply_computes (Value.is_of_not_list (UnaryOp.not_list applies)) applies)
  refuses := by
    intro unnamed
    cases operator with
    | negate =>
      cases operand with
      | int _ | double _ => cases unnamed
      | bool _ | string _ | list _ _ | void => exact refused_fatal _
    | not =>
      cases operand with
      | bool _ => cases unnamed
      | int _ | double _ | string _ | list _ _ | void => exact refused_fatal _

end

/-! ## Deciding early -/

section

open Evaluation

variable {Host : Type}

theorem condition_of_bool {inner : Node → ScopeId → Run Host Value} {node : Node} {scope : ScopeId}
    {machine after : Machine Host} {truth : Bool}
    (ran : inner node scope machine = some (.ok (.bool truth), after)) :
    condition inner node scope machine = some (.ok truth, after) := by
  rw [condition, Run.bind_of_ok ran]
  rfl

/-- Looking at the right side only when the left one does not decide gives what both sides
together give, if looking at them changes nothing. -/
theorem decided_of_bools {inner : Node → ScopeId → Run Host Value} {operator : BinaryOp}
    (isLogic : operator = .and ∨ operator = .or) {left right : Node} {scope : ScopeId}
    {machine : Machine Host} {first second : Bool}
    (leftRan : inner left scope machine = some (.ok (.bool first), machine))
    (rightRan : inner right scope machine = some (.ok (.bool second), machine)) :
    ∃ value, operator.apply (.bool first) (.bool second) = .ok value ∧
      decided inner operator left right scope machine = some (.ok value, machine) := by
  rw [decided, Run.bind_of_ok (condition_of_bool leftRan)]
  rcases isLogic with rfl | rfl
  · cases first with
    | false => exact ⟨.bool false, rfl, rfl⟩
    | true =>
      refine ⟨.bool second, rfl, ?_⟩
      rw [if_neg (by decide), Run.bind_of_ok (condition_of_bool rightRan)]
      rfl
  · cases first with
    | true => exact ⟨.bool true, rfl, rfl⟩
    | false =>
      refine ⟨.bool second, rfl, ?_⟩
      rw [if_neg (by decide), Run.bind_of_ok (condition_of_bool rightRan)]
      rfl

/-- The operators do what the typing table says, on all values; and evaluating `and` and
`or` on operands that change nothing gives what the operator gives on their values. -/
theorem operators_agree_with_table :
    (∀ operator left right, BinaryOp.Agrees operator left right) ∧
      (∀ operator operand, UnaryOp.Agrees operator operand) ∧
      ∀ (setup : Setup Host) (fuel : Nat) (operator : BinaryOp) (node left right : Node)
        (scope : ScopeId) (machine : Machine Host) (first second : Bool),
        operator = .and ∨ operator = .or → node.form = .binary left operator right →
        evaluate setup fuel left scope machine = some (.ok (.bool first), machine) →
        evaluate setup fuel right scope machine = some (.ok (.bool second), machine) →
        ∃ value, operator.apply (.bool first) (.bool second) = .ok value ∧
          evaluate setup (fuel + 1) node scope machine = some (.ok value, machine) := by
  refine ⟨BinaryOp.agrees, UnaryOp.agrees, ?_⟩
  intro setup fuel operator node left right scope machine first second isLogic isBinary leftRan
    rightRan
  have shortCircuits : evaluate setup (fuel + 1) node scope =
      decided (evaluate setup fuel) operator left right scope := by
    rw [evaluate, form, isBinary]
    rcases isLogic with rfl | rfl
    · rfl
    · rfl
  rw [shortCircuits]
  exact decided_of_bools isLogic leftRan rightRan

/-- `false or true`, for which both sides are looked at. -/
theorem operators_agree_with_table_on_or :
    ∃ value, BinaryOp.or.apply (.bool false) (.bool true) = .ok value ∧
      evaluate (⟨.empty, .standard, none⟩ : Setup Unit) 2
          ⟨.binary ⟨.literal (.bool false), .bool, default⟩ .or
            ⟨.literal (.bool true), .bool, default⟩, .bool, default⟩ 0 (.ready default ()) =
        some (.ok value, .ready default ()) :=
  operators_agree_with_table.2.2 _ 1 .or _ _ _ 0 _ false true (.inr rfl) rfl rfl rfl

end

end RobotScript
