import RobotScript.Proofs.Running.Changes
import RobotScript.Proofs.Typing.Operators

/-! # Reasoning about runs step by step

One rule for each way in which runs are put together, and for the steps that the
machine counts. -/
set_option autoImplicit false

namespace RobotScript

/-! ## Exits -/

/-- The reasons for which a well-typed script may be ended for good. -/
def FatalCause.Tolerated : FatalCause → Prop
  | .stepLimit _ | .interrupted | .callDepthLimit _ | .nativeResult _ _ _ => True
  | _ => False

def Cause.Tolerated : Cause → Prop
  | .recoverable _ => True
  | .fatal cause => cause.Tolerated
  | _ => False

/-- How an expression may end without a value. -/
def Exit.Quiet : Exit → Prop
  | .fault reason => reason.cause.Tolerated
  | .jump _ => False

def Exit.Fits (place : Grammar.Place) : Exit → Prop
  | .fault reason => reason.cause.Tolerated
  | .jump (.toCaller value) => ∀ ty, place.returns = some ty → (value.widenTo ty).Is ty
  | .jump _ => place.inLoop = true

theorem Exit.Quiet.fits {exit : Exit} (quiet : exit.Quiet) (place : Grammar.Place) :
    exit.Fits place := by
  cases exit with
  | fault reason => exact quiet
  | jump target => exact quiet.elim

/-! ## Rules -/

namespace Runs

variable {Host : Type} {stage : Stage Host} {α β : Type} {bound : Nat}
variable {machine : Machine (Traced Host)}
variable {good : α → Machine (Traced Host) → Prop} {bad : Exit → Prop}

theorem mono {run : Run (Traced Host) α} {lower : Nat}
    {better : α → Machine (Traced Host) → Prop} {worse : Exit → Prop}
    (runs : Runs stage bound run machine good bad) (less : lower ≤ bound)
    (goods : ∀ value after, Leads stage bound machine after → good value after →
      better value after)
    (bads : ∀ exit, bad exit → worse exit) : Runs stage lower run machine better worse := by
  intro result after run
  obtain ⟨leads, ends⟩ := runs result after run
  refine ⟨leads.mono less, ?_⟩
  cases result with
  | ok value => exact goods value after leads ends
  | error exit => exact bads exit ends

theorem pure {value : α} (world : World stage machine) (here : good value machine) :
    Runs stage bound (Pure.pure value) machine good bad := by
  intro result after run
  cases run
  exact ⟨.refl world bound, here⟩

theorem stop {exit : Exit} (world : World stage machine) (here : bad exit) :
    Runs stage bound (Run.stop exit) machine good bad := by
  intro result after run
  cases run
  exact ⟨.refl world bound, here⟩

theorem fail {cause : Cause} {span : Span} (world : World stage machine)
    (here : bad (.fault ⟨cause, span⟩)) :
    Runs stage bound (Run.fail cause span) machine good bad := stop world here

theorem exhausted : Runs stage bound Run.exhausted machine good bad := by
  intro result after run
  cases run

theorem bind {first : Run (Traced Host) α} {next : α → Run (Traced Host) β}
    {last : β → Machine (Traced Host) → Prop}
    (one : Runs stage bound first machine good bad)
    (two : ∀ value after, Leads stage bound machine after → good value after →
      Runs stage bound (next value) after last bad) :
    Runs stage bound (first >>= next) machine last bad := by
  intro result after run
  change Run.bind first next machine = some (result, after) at run
  unfold Run.bind at run
  cases firstRun : first machine with
  | none =>
    rw [firstRun] at run
    cases run
  | some outcome =>
    obtain ⟨exit | value, between⟩ := outcome
    · rw [firstRun] at run
      cases run
      exact one (.error exit) after firstRun
    · rw [firstRun] at run
      obtain ⟨leads, here⟩ := one (.ok value) between firstRun
      obtain ⟨further, ends⟩ := two value between leads here result after run
      exact ⟨leads.trans further, ends⟩

theorem settle {body : Run (Traced Host) α} {never : Exit → Prop}
    (runs : Runs stage bound body machine good bad) :
    Runs stage bound body.settle machine
      (fun result after => Ended (fun value => good value after) bad result) never := by
  intro result after run
  unfold Run.settle at run
  cases bodyRun : body machine with
  | none =>
    rw [bodyRun] at run
    cases run
  | some outcome =>
    rw [bodyRun] at run
    cases run
    exact runs outcome.1 outcome.2 bodyRun

theorem store (world : World stage machine) :
    Runs stage bound Run.store machine
      (fun store after => machine.store = store ∧ machine = after) bad := by
  intro result after run
  cases run
  exact ⟨.refl world bound, rfl, rfl⟩

theorem lift {outcome : Except Cause α} {fits : α → Prop} {span : Span}
    (world : World stage machine) (computes : Computes fits outcome)
    (goods : ∀ value, fits value → good value machine)
    (bads : ∀ reason, bad (.fault ⟨.recoverable reason, span⟩)) :
    Runs stage bound (Run.lift span outcome) machine good bad := by
  cases outcome with
  | ok value => exact pure world (goods value computes)
  | error cause =>
    obtain ⟨reason, rfl⟩ := computes
    exact stop world (bads reason)

/-! ## Steps of the machine -/

theorem countStep (world : World stage machine) :
    Runs stage bound Run.countStep machine (fun _ _ => True) bad := by
  intro result after run
  cases run
  exact ⟨.elsewhere world bound rfl rfl world.holds, trivial⟩

theorem depth (world : World stage machine) :
    Runs stage bound Run.depth machine (fun _ after => machine = after) bad := by
  intro result after run
  cases run
  exact ⟨.refl world bound, rfl⟩

theorem onHost {action : Traced Host → α × Traced Host} (world : World stage machine)
    (ledger : (action machine.host).2.2 = machine.ledger)
    (holds : stage.holds (action machine.host).2.1)
    (here : ∀ after, good (action machine.host).1 after) :
    Runs stage bound (Run.onHost action) machine good bad := by
  intro result after run
  cases run
  exact ⟨.elsewhere world bound rfl ledger holds, here _⟩

theorem consult (world : World stage machine) (span : Span) (steps : Nat) :
    Runs stage bound (Evaluation.tick.consult (Tracing.setup stage.plain) span steps) machine
      (fun _ _ => True) Exit.Quiet := by
  unfold Evaluation.tick.consult Tracing.setup Setup.beside
  cases isWatched : stage.plain.watch with
  | none => exact pure world trivial
  | some watch =>
    have asked : Runs stage bound (Run.onHost (watchBeside watch steps)) machine
        (fun _ _ => True) Exit.Quiet :=
      onHost world rfl (stage.watches watch isWatched steps machine.host.1 world.holds)
        fun _ => trivial
    refine bind asked ?_
    intro goesOn after leads _
    cases goesOn with
    | true => exact pure leads.world trivial
    | false => exact fail leads.world trivial

theorem tick (world : World stage machine) (span : Span) :
    Runs stage bound (Evaluation.tick (Tracing.setup stage.plain) span) machine
      (fun _ _ => True) Exit.Quiet := by
  refine bind (countStep world) ?_
  intro steps after leads _
  cases limit : (Tracing.setup stage.plain).limits.maxSteps with
  | none => exact consult leads.world span steps
  | some maximum =>
    dsimp only
    split
    · exact fail leads.world trivial
    · exact consult leads.world span steps

theorem deeper {body : Run (Traced Host) α} {fits : α → Prop} (world : World stage machine)
    (runs : ∀ entered, Leads stage bound machine entered → entered.ledger = machine.ledger →
      Runs stage bound body entered (fun value _ => fits value) bad) :
    Runs stage bound (Run.deeper body) machine (fun value _ => fits value) bad := by
  intro result after run
  have into : Leads stage bound machine { machine with depth := machine.depth + 1 } :=
    .elsewhere world bound rfl rfl world.holds
  unfold Run.deeper at run
  cases bodyRun : body { machine with depth := machine.depth + 1 } with
  | none =>
    rw [bodyRun] at run
    cases run
  | some outcome =>
    obtain ⟨ended, behind⟩ := outcome
    rw [bodyRun] at run
    cases run
    obtain ⟨leads, ends⟩ := runs _ into rfl _ behind bodyRun
    exact ⟨(into.trans leads).trans (.elsewhere leads.world bound rfl rfl leads.world.holds), ends⟩

theorem inScope {parent : ScopeId} {vars : Bindings Value} {body : ScopeId → Run (Traced Host) α}
    {fits : α → Prop} (world : World stage machine) (inside : parent < machine.store.size)
    (values : ∀ name value, vars.find? name = some value → value.WellFormed)
    (runs : World stage (machine.opened parent vars) →
      Runs stage machine.store.size (body machine.store.size) (machine.opened parent vars)
        (fun value _ => fits value) bad) :
    Runs stage machine.store.size (Run.inScope parent vars body) machine
      (fun value _ => fits value) bad := by
  intro result after run
  unfold Run.inScope at run
  dsimp only at run
  cases bodyRun : body machine.store.size
      { machine with store := machine.store.opened (some parent) vars } with
  | none =>
    rw [bodyRun] at run
    cases run
  | some outcome =>
    obtain ⟨ended, behind⟩ := outcome
    rw [bodyRun] at run
    cases run
    have opened := world.opened inside values
    obtain ⟨leads, ends⟩ := runs opened _ behind bodyRun
    have size : behind.store.size = machine.store.size + 1 :=
      leads.size.trans (Store.size_opened _ _ _)
    refine ⟨⟨leads.world.closed size, ?_, ?_⟩, ends⟩
    · simp only [Store.size_closed, size, Nat.add_sub_cancel]
    · exact ((Below.opened machine parent vars).trans leads.below).trans (Below.closed size)

/-! ## Steps of the ledger -/

theorem note (world : World stage machine) {node : Node} {scope : ScopeId} {name : Name}
    (linked : ⟨node, machine.reach scope name⟩ ∈ stage.links)
    (fits : Use.Fits ⟨node, machine.reach scope name⟩) :
    Runs stage bound (Tracing.note node scope name) machine
      (fun _ after => after.store = machine.store) bad := by
  intro result after run
  cases run
  exact ⟨.noted world bound linked fits, rfl⟩

theorem prepare (world : World stage machine) (names : List Name) (site : Span) :
    Runs stage machine.store.size (Tracing.prepare names site) machine
      (fun _ after => after.store = machine.store ∧
        ∀ name, after.ledger.sites machine.store.size name =
          if name ∈ names then some site else none) bad := by
  intro result after run
  cases run
  refine ⟨.prepared world names site, rfl, ?_⟩
  intro name
  exact if_pos rfl

end Runs

end RobotScript
