import RobotScript.Proofs.Expanding.Expansions
import RobotScript.Proofs.Locality.Locals
import RobotScript.Proofs.Tracing.Erasure

/-! # What an assignment and its expansion do

The expansion looks its variable up before the other operand is evaluated, the compound
assignment only behind it. If this leaves the variable as it was, both compute the same and
store the same, one level of nesting apart. -/
set_option autoImplicit false

namespace RobotScript

open Evaluation Typing

variable {Host : Type} {setup : Setup Host} {fuel : Nat} {scope : ScopeId} {name : String}
variable {machine : Machine Host}

/-! ## Ending the same -/

/-- With the same value, or for the same cause, with the same variables, host and steps; a fault
may be at another place. -/
def EndsSame (first second : Outcome Host Value) : Prop :=
  Outcome.bare id id first = Outcome.bare id id second

theorem Typed.Same.ends {first second : Node} (same : first.Same second) :
    EndsSame (evaluate setup fuel first scope machine)
      (evaluate setup fuel second scope machine) := by
  have projects (node : Node) := Projects.evaluate (Shows.self setup) fuel node scope machine
  have one := projects first
  rw [same, ← projects second] at one
  exact one

/-! ## Operands -/

theorem variableValue_bound {current : Value}
    (bound : machine.store.get? scope name = some current) (span : Span) :
    variableValue scope name span machine = some (.ok current, machine) := by
  have stored : (Run.store : Run Host Store) machine = some (.ok machine.store, machine) := rfl
  rw [variableValue, Run.bind_of_ok stored, bound]
  rfl

theorem variableValue_unbound (unbound : machine.store.get? scope name = none) (span : Span) :
    variableValue scope name span machine =
      some (.error (.fault ⟨.fatal (.undefinedVariable name), span⟩), machine) := by
  have stored : (Run.store : Run Host Store) machine = some (.ok machine.store, machine) := rfl
  rw [variableValue, Run.bind_of_ok stored, unbound]
  rfl

theorem evaluate_joined {operator : BinaryOp} (combining : Combining operator) (left right : Node)
    (ty : Ty) (span : Span) :
    evaluate setup (fuel + 1) ⟨.binary left operator right, ty, span⟩ scope =
      evaluate setup fuel left scope >>= fun first =>
        evaluate setup fuel right scope >>= fun second =>
          Run.lift span (operator.apply first second) := by
  have computes : (operator = .and || operator = .or) = false := by
    cases operator <;> first | rfl | exact absurd combining (by decide)
  rw [evaluate, form]
  simp only [computes, Bool.false_eq_true, if_false]

theorem evaluate_assign (operator : AssignOp) (right : Node) (ty : Ty) (span : Span) :
    evaluate setup (fuel + 1) ⟨.assign name operator (some right), ty, span⟩ scope machine =
      (evaluate setup fuel right scope >>= fun value =>
        assigned name operator span scope (some value)) machine := by
  show (optionalValue (evaluate setup fuel) scope (some right) >>=
    assigned name operator span scope) machine = _
  rw [optionalValue]
  rcases ran : evaluate setup fuel right scope machine with _ | ⟨exit | value, after⟩
  · rw [Run.bind_of_none ran, Run.bind_of_none (Run.bind_of_none ran)]
  · rw [Run.bind_of_error ran, Run.bind_of_error (Run.bind_of_error ran)]
  · rw [Run.bind_of_ok ran]
    exact Run.bind_of_eq (Run.bind_of_ok ran)

/-! ## Assigning a result -/

/-- To assign what the operator makes of the variable is to combine the variable. -/
theorem assigned_applied {operator : AssignOp} {computed : Except Cause Value} {current : Value}
    {right : Option Value} (bound : machine.store.get? scope name = some current)
    (computes : updated name operator current right = computed) (span : Span) :
    (Run.lift span computed >>= fun value => assigned name .set span scope (some value)) machine =
      assigned name operator span scope right machine := by
  have looked := variableValue_bound bound span
  rw [assigned, Run.bind_of_ok looked, computes]
  cases computed with
  | error cause => rfl
  | ok value =>
    have given : (Run.lift span (.ok value) : Run Host Value) machine = some (.ok value, machine) :=
      rfl
    rw [Run.bind_of_ok given, assigned, Run.bind_of_ok looked]
    rfl

/-- The variable keeps its value wherever the node has one. -/
def KeepsVariable (setup : Setup Host) (node : Node) (scope : ScopeId) (name : String)
    (machine : Machine Host) : Prop :=
  ∀ fuel result after, evaluate setup fuel node scope machine = some (.ok result, after) →
    after.store.get? scope name = machine.store.get? scope name

theorem KeepsVariable.variable (setup : Setup Host) (other : String) (ty : Ty) (span : Span)
    (scope : ScopeId) (name : String) (machine : Machine Host) :
    KeepsVariable setup ⟨.variable other, ty, span⟩ scope name machine := by
  intro fuel result after ran
  cases fuel with
  | zero => cases ran
  | succ fuel => rw [variableValue_ended ran]

/-- The variable is given what the operator makes of it and an operand. -/
def expansionNode (name : String) (operator : BinaryOp) (operand : Node) (target ty : Ty)
    (span : Span) : Node :=
  ⟨.assign name .set (some ⟨.binary ⟨.variable name, target, span⟩ operator operand, ty, span⟩),
    target, span⟩

theorem compound_ends {operator : BinaryOp} (combining : Combining operator) {value : Node}
    (bound : (machine.store.get? scope name).isSome = true)
    (keeps : KeepsVariable setup value scope name machine) (target ty : Ty) (span : Span) :
    evaluate setup (fuel + 1) (expansionNode name operator value target ty span) scope machine =
      evaluate setup fuel ⟨.assign name (.compound operator) (some value), target, span⟩ scope
        machine := by
  unfold expansionNode
  obtain ⟨current, bound⟩ := Option.isSome_iff_exists.mp bound
  match fuel with
  | 0 => rfl
  | 1 =>
    rw [evaluate_assign, evaluate_joined combining]
    rfl
  | fuel + 2 =>
    have looked : evaluate setup (fuel + 1) ⟨.variable name, target, span⟩ scope machine =
        some (.ok current, machine) := variableValue_bound bound span
    rw [evaluate_assign, evaluate_assign, evaluate_joined combining,
      Run.bind_of_eq (Run.bind_of_ok looked)]
    rcases ran : evaluate setup (fuel + 1) value scope machine with _ | ⟨exit | given, after⟩
    · rw [Run.bind_of_none ran, Run.bind_of_none (Run.bind_of_none ran)]
    · rw [Run.bind_of_error ran, Run.bind_of_error (Run.bind_of_error ran)]
    · have kept := (keeps _ _ _ ran).trans bound
      rw [Run.bind_of_ok ran, Run.bind_of_eq (Run.bind_of_ok ran)]
      have combines : updated name (.compound operator) current (some given) =
          operator.apply current given := rfl
      exact assigned_applied kept combines span

theorem updated_counting {counts : AssignOp} {operator : BinaryOp}
    (counting : Counting counts operator) (current : Value) :
    updated name counts current none = operator.apply current (.int 1) := by
  cases counting <;> rfl

theorem counting_ends {counts : AssignOp} {operator : BinaryOp}
    (counting : Counting counts operator) (target ty : Ty) (place span : Span) :
    evaluate setup (fuel + 2)
        (expansionNode name operator ⟨.literal (.int 1), .int, place⟩ target ty span) scope
        machine =
      evaluate setup fuel ⟨.assign name counts none, target, span⟩ scope machine := by
  unfold expansionNode
  have combining : Combining operator := by cases counting <;> decide
  match fuel with
  | 0 =>
    rw [evaluate_assign, evaluate_joined combining]
    rfl
  | fuel + 1 =>
    rw [evaluate_assign, evaluate_joined combining]
    show _ = assigned name counts span scope none machine
    cases found : machine.store.get? scope name with
    | none =>
      have unlooked : evaluate setup (fuel + 1) ⟨.variable name, target, span⟩ scope machine = _ :=
        variableValue_unbound found span
      rw [Run.bind_of_error (Run.bind_of_error unlooked), assigned,
        Run.bind_of_error (variableValue_unbound found span)]
    | some current =>
      have looked : evaluate setup (fuel + 1) ⟨.variable name, target, span⟩ scope machine = _ :=
        variableValue_bound found span
      rw [Run.bind_of_eq (Run.bind_of_ok looked)]
      exact assigned_applied found (updated_counting counting current) span

end RobotScript
