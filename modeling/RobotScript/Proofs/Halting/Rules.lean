import RobotScript.Proofs.Halting.Height
import RobotScript.Proofs.Relating.Congruence

/-! # Runs that halt

A run halts within bounds if from every machine that has taken some steps, but not
too many, and whose functions are low, it ends with a result: either within the
limit of steps or, one step behind it, with a fault that no `try` branch takes. -/
set_option autoImplicit false

namespace RobotScript

open Evaluation

variable {Host α β : Type}

/-- The steps that a run may take and the height of the nodes in it. -/
structure Bounds where
  steps : Nat
  height : Nat

/-- How a run ended within its bounds. -/
structure Halted (bounds : Bounds) (machine : Machine Host) (result : Except Exit α)
    (after : Machine Host) : Prop where
  forward : machine.steps ≤ after.steps
  low : after.store.Low bounds.height
  ends : after.steps ≤ bounds.steps ∨ after.steps = bounds.steps + 1 ∧
    ∃ fault : Fault, result = .error (.fault fault) ∧ fault.isRecoverable = false

/-- The run ends, from whatever machine that has taken so many steps. -/
def Halts (bounds : Bounds) (steps : Nat) (run : Run Host α) : Prop :=
  ∀ machine : Machine Host, steps ≤ machine.steps → machine.steps ≤ bounds.steps →
    machine.store.Low bounds.height →
    ∃ result after, run machine = some (result, after) ∧ Halted bounds machine result after

namespace Halts

variable {bounds : Bounds} {steps : Nat}

theorem mono {later : Nat} (less : steps ≤ later) {run : Run Host α} (halts : Halts bounds steps run) :
    Halts bounds later run :=
  fun machine taken => halts machine (Nat.le_trans less taken)

theorem within {run : Run Host α} (halts : steps ≤ bounds.steps → Halts bounds steps run) :
    Halts bounds steps run :=
  fun machine taken left => halts (Nat.le_trans taken left) machine taken left

theorem still {run : Run Host α}
    (ends : ∀ machine, ∃ result after, run machine = some (result, after) ∧
      after.steps = machine.steps ∧
      (machine.store.Low bounds.height → after.store.Low bounds.height)) :
    Halts bounds steps run := by
  intro machine _ left low
  obtain ⟨result, after, ran, same, stays⟩ := ends machine
  exact ⟨result, after, ran, Nat.le_of_eq same.symm, stays low, .inl (same ▸ left)⟩

theorem pure (value : α) : Halts bounds steps (Pure.pure value : Run Host α) :=
  still fun machine => ⟨.ok value, machine, rfl, rfl, id⟩

theorem stop (exit : Exit) : Halts bounds steps (Run.stop exit : Run Host α) :=
  still fun machine => ⟨.error exit, machine, rfl, rfl, id⟩

theorem lift (span : Span) (outcome : Except Cause α) :
    Halts bounds steps (Run.lift span outcome : Run Host α) := by
  cases outcome with
  | ok value => exact pure value
  | error cause => exact stop _

theorem onHost (action : Host → α × Host) : Halts bounds steps (Run.onHost action) :=
  still fun machine => ⟨.ok (action machine.host).1,
    { machine with host := (action machine.host).2 }, rfl, rfl, id⟩

theorem depth : Halts bounds steps (Run.depth : Run Host Nat) :=
  still fun machine => ⟨.ok machine.depth, machine, rfl, rfl, id⟩

theorem changeStore {change : Store → Store}
    (low : ∀ store : Store, store.Low bounds.height → (change store).Low bounds.height) :
    Halts bounds steps (Run.changeStore change : Run Host Unit) :=
  still fun machine =>
    ⟨.ok (), { machine with store := change machine.store }, rfl, rfl, low machine.store⟩

theorem followed {second : Run Host β} {machine between : Machine Host}
    {result : Except Exit α} (taken : steps ≤ machine.steps)
    (halted : Halted bounds machine result between) (left : between.steps ≤ bounds.steps)
    (halts : Halts bounds steps second) :
    ∃ ended after, second between = some (ended, after) ∧ Halted bounds machine ended after := by
  obtain ⟨ended, after, ran, further⟩ :=
    halts between (Nat.le_trans taken halted.forward) left halted.low
  exact ⟨ended, after, ran, Nat.le_trans halted.forward further.forward, further.low, further.ends⟩

theorem bind {first : Run Host α} {next : α → Run Host β} (one : Halts bounds steps first)
    (two : ∀ value, Halts bounds steps (next value)) : Halts bounds steps (first >>= next) := by
  intro machine taken left low
  obtain ⟨result, between, ran, halted⟩ := one machine taken left low
  cases result with
  | error exit =>
    refine ⟨.error exit, between, Run.bind_of_error ran, halted.forward, halted.low, ?_⟩
    rcases halted.ends with left | ⟨behind, fault, isFault, fatal⟩
    · exact .inl left
    · cases isFault
      exact .inr ⟨behind, fault, rfl, fatal⟩
  | ok value =>
    rcases halted.ends with left | ⟨_, _, ⟨⟩, _⟩
    rw [Run.bind_of_ok ran]
    exact followed taken halted left (two value)

theorem recover {body : Run Host α} {next : Except Exit α → Run Host β}
    (one : Halts bounds steps body) (handsOn : HandsOn next)
    (two : ∀ result, Halts bounds steps (next result)) :
    Halts bounds steps (body.settle >>= next) := by
  intro machine taken left low
  obtain ⟨result, between, ran, halted⟩ := one machine taken left low
  rw [Run.settle_bind ran]
  rcases halted.ends with left | ⟨behind, fault, rfl, fatal⟩
  · exact followed taken halted left (two result)
  · rw [handsOn fault fatal]
    exact ⟨_, between, rfl, halted.forward, halted.low, .inr ⟨behind, fault, rfl, fatal⟩⟩

theorem reading {next : Store → Run Host α}
    (halts : ∀ store : Store, store.Low bounds.height → Halts bounds steps (next store)) :
    Halts bounds steps (Run.store >>= next) :=
  fun machine taken left low => halts machine.store low machine taken left low

theorem inScope (parent : ScopeId) (vars : Bindings Value) {body : ScopeId → Run Host α}
    (halts : ∀ id, Halts bounds steps (body id)) :
    Halts bounds steps (Run.inScope parent vars body) := by
  intro machine taken left low
  obtain ⟨result, after, ran, halted⟩ :=
    halts machine.store.size (machine.entered parent vars) taken left
      (low.opened (some parent) vars)
  refine ⟨result, after.left, ?_, halted.forward, halted.low.closed, halted.ends⟩
  rw [Run.inScope_eq, ran]
  rfl

theorem deeper {body : Run Host α} (halts : Halts bounds steps body) :
    Halts bounds steps (Run.deeper body) := by
  intro machine taken left low
  obtain ⟨result, after, ran, halted⟩ := halts machine.deeper taken left low
  refine ⟨result, after.shallower, ?_, halted.forward, halted.low, halted.ends⟩
  rw [Run.deeper_eq, ran]
  rfl

/-- A step, and what comes behind it one step later. The step behind the limit ends
the run. -/
theorem tick {setup : Setup Host} (limited : setup.limits.maxSteps = some bounds.steps)
    (span : Span) {next : Unit → Run Host α} (halts : Halts bounds (steps + 1) (next ())) :
    Halts bounds steps (tick setup span >>= next) := by
  have consults (number : Nat) :
      Halts bounds (steps + 1) (tick.consult setup span number >>= next) := by
    refine bind ?_ fun _ => halts
    unfold Evaluation.tick.consult
    cases setup.watch with
    | none => exact pure ()
    | some watch =>
      refine bind (onHost (watch number)) fun goesOn => ?_
      cases goesOn with
      | true => exact pure ()
      | false => exact stop _
  intro machine taken left low
  by_cases past : bounds.steps < machine.steps + 1
  · have behind : machine.steps + 1 = bounds.steps + 1 :=
      congrArg (· + 1) (Nat.le_antisymm left (Nat.le_of_lt_succ past))
    exact ⟨_, _, Run.bind_of_error (tick_past limited span past), Nat.le_succ _, low,
      .inr ⟨behind, _, rfl, rfl⟩⟩
  · have within : ∀ limit, setup.limits.maxSteps = some limit → machine.steps + 1 ≤ limit := by
      rintro limit isLimit
      rw [limited] at isLimit
      obtain rfl := Option.some.inj isLimit
      exact Nat.le_of_not_lt past
    have goes : (Evaluation.tick setup span >>= next) machine =
        (tick.consult setup span (machine.steps + 1) >>= next) machine.counted := by
      change Run.bind (Evaluation.tick setup span) next machine = Run.bind _ next _
      unfold Run.bind
      rw [tick_within span within]
    obtain ⟨result, after, ran, halted⟩ := consults (machine.steps + 1) machine.counted
      (Nat.succ_le_succ taken) (Nat.le_of_not_lt past) low
    exact ⟨result, after, goes.trans ran, Nat.le_of_succ_le halted.forward, halted.low,
      halted.ends⟩

end Halts

end RobotScript
