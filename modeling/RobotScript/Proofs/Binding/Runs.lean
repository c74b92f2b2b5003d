import RobotScript.Proofs.Binding.World
import RobotScript.Proofs.Relating.Causes

/-! # Runs that keep names bound

A run keeps the world, and no fault that ends it says that a function is undefined or
dead; if the run is faithful, none says that a variable is undefined. This file has one
rule for each way in which runs are put together. -/
set_option autoImplicit false

namespace RobotScript

open Evaluation

variable {Host : Type}

/-- The cause is not that a name has no binding; of variables this is asked only of
faithful runs. -/
def Cause.Bound (faithful : Prop) : Cause → Prop
  | .fatal (.undefinedFunction _) | .fatal (.deadFunction _) => False
  | .fatal (.undefinedVariable _) => ¬ faithful
  | _ => True

theorem Cause.OfValues.bound {cause : Cause} (ofValues : cause.OfValues) (faithful : Prop) :
    cause.Bound faithful := by
  cases cause with
  | fatal cause => cases cause <;> trivial
  | _ => trivial

namespace Binding

variable {α β : Type} {footing : Footing Host} {bound : Nat}
variable {machine : Machine (Watched Host)}

/-- A good result, a jump, or a fault for no missing binding. -/
def Ended (footing : Footing Host) (good : α → Prop) : Except Exit α → Prop
  | .ok value => good value
  | .error (.fault fault) => fault.cause.Bound footing.faithful
  | .error (.jump _) => True

def Runs (footing : Footing Host) (bound : Nat) (run : Run (Watched Host) α)
    (machine : Machine (Watched Host)) (good : α → Machine (Watched Host) → Prop) : Prop :=
  ∀ result after, run machine = some (result, after) →
    Leads footing bound machine after ∧ Ended footing (fun value => good value after) result

abbrev RunsStill (footing : Footing Host) (run : Run (Watched Host) α)
    (machine : Machine (Watched Host)) : Prop :=
  Runs footing machine.store.size run machine fun _ _ => True

namespace Runs

variable {good : α → Machine (Watched Host) → Prop}

theorem mono {run : Run (Watched Host) α} {lower : Nat}
    {better : α → Machine (Watched Host) → Prop} (runs : Runs footing bound run machine good)
    (less : lower ≤ bound)
    (goods : ∀ value after, Leads footing bound machine after → good value after →
      better value after) : Runs footing lower run machine better := by
  intro result after ran
  obtain ⟨leads, ends⟩ := runs result after ran
  refine ⟨leads.mono less, ?_⟩
  rcases result with (fault | jump) | value
  · exact ends
  · trivial
  · exact goods value after leads ends

theorem still {run : Run (Watched Host) α} (runs : Runs footing bound run machine good) :
    Runs footing bound run machine fun _ _ => True :=
  runs.mono (Nat.le_refl bound) fun _ _ _ _ => trivial

theorem leading {run : Run (Watched Host) α} {size : Nat}
    (runs : Runs footing size run machine good) (less : bound ≤ size) :
    Runs footing bound run machine fun _ after => Leads footing size machine after :=
  runs.mono less fun _ _ leads _ => leads

theorem pure {value : α} (world : World footing machine) (here : good value machine) :
    Runs footing bound (Pure.pure value) machine good := by
  rintro result after ⟨⟩
  exact ⟨.refl world bound, here⟩

theorem exhausted : Runs footing bound Run.exhausted machine good := by
  rintro result after ⟨⟩

theorem jump (world : World footing machine) (target : Jump) :
    Runs footing bound (Run.stop (.jump target)) machine good := by
  rintro result after ⟨⟩
  exact ⟨.refl world bound, trivial⟩

theorem fault (world : World footing machine) {fault : Fault}
    (isBound : fault.cause.Bound footing.faithful) :
    Runs footing bound (Run.stop (.fault fault)) machine good := by
  rintro result after ⟨⟩
  exact ⟨.refl world bound, isBound⟩

theorem fail (world : World footing machine) {cause : Cause} (span : Span)
    (isBound : cause.Bound footing.faithful) :
    Runs footing bound (Run.fail cause span) machine good := fault world isBound

theorem bind {first : Run (Watched Host) α} {next : α → Run (Watched Host) β}
    {last : β → Machine (Watched Host) → Prop} (one : Runs footing bound first machine good)
    (two : ∀ value after, Leads footing bound machine after → good value after →
      Runs footing bound (next value) after last) :
    Runs footing bound (first >>= next) machine last := by
  intro result after ran
  rcases Run.bind_ended ran with ⟨exit, rfl, ended⟩ | ⟨value, between, ended, further⟩
  · obtain ⟨leads, ends⟩ := one _ _ ended
    exact ⟨leads, by cases exit <;> exact ends⟩
  · obtain ⟨leads, here⟩ := one _ _ ended
    obtain ⟨beyond, ends⟩ := two value between leads here result after further
    exact ⟨leads.trans beyond, ends⟩

theorem settle {body : Run (Watched Host) α} (runs : Runs footing bound body machine good) :
    Runs footing bound body.settle machine fun result after =>
      Ended footing (fun value => good value after) result := by
  intro result after ran
  unfold Run.settle at ran
  rcases ended : body machine with _ | ⟨inner, between⟩
  · rw [ended] at ran
    cases ran
  · rw [ended] at ran
    cases ran
    exact runs _ _ ended

theorem lift (world : World footing machine) {outcome : Except Cause α} (span : Span)
    (onValues : OnValues outcome) (goods : ∀ value, outcome = .ok value → good value machine) :
    Runs footing bound (Run.lift span outcome) machine good := by
  cases outcome with
  | ok value => exact pure world (goods value rfl)
  | error cause => exact fail world span ((onValues cause rfl).bound _)

theorem reading {next : Store → Run (Watched Host) α}
    (reads : Runs footing bound (next machine.store) machine good) :
    Runs footing bound (Run.store >>= next) machine good := reads

theorem changeStore {change : Store → Store}
    (leads : Leads footing bound machine { machine with store := change machine.store }) :
    Runs footing bound (Run.changeStore change) machine
      fun _ after => after.store = change machine.store := by
  rintro result after ⟨⟩
  exact ⟨leads, rfl⟩

theorem depth (world : World footing machine) :
    Runs footing bound Run.depth machine fun _ after => machine = after := by
  rintro result after ⟨⟩
  exact ⟨.refl world bound, rfl⟩

theorem onHost {action : Watched Host → α × Watched Host} (world : World footing machine)
    (silent : ∀ host, (action host).2.2 = host.2) :
    Runs footing bound (Run.onHost action) machine fun _ _ => True := by
  rintro result after ⟨⟩
  exact ⟨.elsewhere world bound rfl (silent machine.host), trivial⟩

theorem consult (world : World footing machine) (span : Span) (steps : Nat) :
    Runs footing bound (tick.consult (Watching.setup footing.plain) span steps) machine
      fun _ _ => True := by
  unfold tick.consult Watching.setup Setup.beside
  cases footing.plain.watch with
  | none => exact pure world trivial
  | some watch =>
    refine (onHost world fun _ => rfl :
      Runs footing bound (Run.onHost (watchBeside watch steps)) machine fun _ _ => True).bind ?_
    intro goesOn after leads _
    cases goesOn with
    | true => exact pure leads.world trivial
    | false => exact fail leads.world span trivial

theorem tick (world : World footing machine) (span : Span) :
    Runs footing bound (tick (Watching.setup footing.plain) span) machine fun _ _ => True := by
  have counts : Runs footing bound Run.countStep machine fun _ _ => True := by
    rintro result after ⟨⟩
    exact ⟨.elsewhere world bound rfl rfl, trivial⟩
  refine counts.bind ?_
  intro steps after leads _
  cases (Watching.setup footing.plain).limits.maxSteps with
  | none => exact consult leads.world span steps
  | some limit =>
    dsimp only
    split
    · exact fail leads.world span trivial
    · exact consult leads.world span steps

theorem deeper {body : Run (Watched Host) α} (world : World footing machine)
    (runs : Runs footing bound body machine.deeper fun _ _ => True) :
    Runs footing bound (Run.deeper body) machine fun _ _ => True := by
  intro result after ran
  obtain ⟨inside, ended, rfl⟩ := Run.deeper_ended ran
  have into : Leads footing bound machine machine.deeper := .elsewhere world bound rfl rfl
  obtain ⟨leads, ends⟩ := runs _ _ ended
  exact ⟨(into.trans leads).trans (.elsewhere leads.world bound rfl rfl), ends⟩

/-- A new scope is closed again, so that all scopes bind what they bound, whatever the
body did to its own. -/
theorem inScope {parent : ScopeId} {vars : Bindings Value}
    {body : ScopeId → Run (Watched Host) α} (world : World footing machine)
    (inside : parent < machine.store.size)
    (runs : World footing (machine.entered parent vars) →
      Runs footing machine.store.size (body machine.store.size) (machine.entered parent vars)
        fun _ _ => True) :
    RunsStill footing (Run.inScope parent vars body) machine := by
  intro result after ran
  obtain ⟨behind, ended, rfl⟩ := Run.inScope_ended ran
  have entered := world.entered inside vars
  obtain ⟨leads, ends⟩ := runs entered _ _ ended
  have size : behind.store.size = machine.store.size + 1 :=
    leads.size.trans (Store.size_opened _ _ _)
  have opened := Store.SameBelow.opened machine.store (some parent) vars
  refine ⟨⟨leads.world.left size, ?_, (opened.trans leads.below).trans (.closed size)⟩, ends⟩
  rw [Machine.left, Store.size_closed, size, Nat.add_sub_cancel]

theorem note (world : World footing machine) (node : Node) (scope : ScopeId)
    (called : ∀ name arguments, node.form = .call name arguments →
      footing.plain.natives.find? name = none → scope < machine.store.size ∧
        ∃ closure, machine.store.function? scope name = some closure) :
    Runs footing bound (Watching.note node scope) machine
      fun _ after => after.store = machine.store := by
  rintro result after ⟨⟩
  exact ⟨⟨world.noted rfl called, rfl, .refl bound machine.store⟩, rfl⟩

end Runs

end Binding

end RobotScript
