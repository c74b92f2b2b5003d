import RobotScript.Proofs.Leaving.Leaves
import RobotScript.Proofs.Running.Chains
import RobotScript.Proofs.Watching.Visits

/-! # Exits stem from what was visited

`Confined known leaves run` says how a watched run may end early: with a fault at a
known place, or with a jump out of a statement that was visited, in the same function
body, and that `leaves` lets through. This file has one rule for each way in which runs
are put together. -/
set_option autoImplicit false

namespace RobotScript

open Evaluation

variable {Host : Type}

def Store.Knows (known : Span → Prop) (store : Store) : Prop :=
  store.Stores fun closure => Known known closure.function.body

/-- The cause is one of running, but none that a script reports for a jump without a target. -/
structure Cause.Internal (cause : Cause) : Prop where
  runtime : cause.kind = .runtime
  noReturn : cause ≠ .recoverable .returnOutsideFunction
  noJump : cause ≠ .recoverable .jumpOutsideLoop

theorem Cause.OfValues.internal {cause : Cause} (ofValues : cause.OfValues) : cause.Internal := by
  refine ⟨?_, ?_, ?_⟩
  · cases cause with
    | recoverable | fatal => rfl
    | _ => cases ofValues
  all_goals
    rintro rfl
    cases ofValues

/-- How a run at this depth may end early, with these visits. -/
def Exit.Confined (known : Span → Prop) (leaves : Jump → Node → Prop) (depth : Nat)
    (visits : List Visit) : Exit → Prop
  | .fault reason => known reason.span ∧ reason.cause.Internal
  | .jump target => ∃ visit ∈ visits, visit.depth = depth ∧ leaves target visit.node

/-- How a run leaves the machine: visits are only added. -/
structure Machine.Onward (known : Span → Prop) (before after : Machine (Watched Host)) : Prop where
  knows : after.store.Knows known
  depth : after.depth = before.depth
  visits : before.visits ⊆ after.visits

def Confined {α : Type} (known : Span → Prop) (leaves : Jump → Node → Prop)
    (run : Run (Watched Host) α) : Prop :=
  ∀ machine result after, machine.store.Knows known → run machine = some (result, after) →
    machine.Onward known after ∧
      ∀ exit, result = .error exit → exit.Confined known leaves machine.depth after.visits

namespace Confined

variable {α β : Type} {known : Span → Prop} {leaves inside : Jump → Node → Prop}

theorem mono {run : Run (Watched Host) α} {more : Jump → Node → Prop}
    (confined : Confined known leaves run)
    (weaker : ∀ jump source, leaves jump source → more jump source) : Confined known more run := by
  intro machine result after knows ran
  obtain ⟨onward, exits⟩ := confined machine result after knows ran
  refine ⟨onward, fun exit isExit => ?_⟩
  have here := exits exit isExit
  cases exit with
  | fault fault => exact here
  | jump jump =>
    obtain ⟨visit, member, depth, source⟩ := here
    exact ⟨visit, member, depth, weaker jump visit.node source⟩

theorem step {run : Run (Watched Host) α}
    (steps : ∀ machine : Machine (Watched Host), ∃ value after,
      run machine = some (.ok value, after) ∧ after.depth = machine.depth ∧
        after.visits = machine.visits ∧
          (machine.store.Knows known → after.store.Knows known)) : Confined known leaves run := by
  intro machine result after knows ran
  obtain ⟨value, behind, ended, depth, visits, keeps⟩ := steps machine
  rw [ended] at ran
  cases ran
  exact ⟨⟨keeps knows, depth, visits ▸ List.Subset.refl _⟩, by rintro _ ⟨⟩⟩

theorem pure (value : α) : Confined known leaves (Pure.pure value : Run (Watched Host) α) :=
  step fun machine => ⟨value, machine, rfl, rfl, rfl, id⟩

theorem exhausted : Confined known leaves (Run.exhausted : Run (Watched Host) α) := by
  rintro machine result after knows ⟨⟩

theorem fault {fault : Fault} (isKnown : known fault.span) (internal : fault.cause.Internal) :
    Confined known leaves (Run.stop (.fault fault) : Run (Watched Host) α) := by
  rintro machine result after knows ⟨⟩
  refine ⟨⟨knows, rfl, List.Subset.refl _⟩, ?_⟩
  rintro _ ⟨⟩
  exact ⟨isKnown, internal⟩

theorem fail {cause : Cause} {span : Span} (isKnown : known span) (internal : cause.Internal) :
    Confined known leaves (Run.fail cause span : Run (Watched Host) α) := fault isKnown internal

theorem fatal (cause : FatalCause) {span : Span} (isKnown : known span) :
    Confined known leaves (Run.fail (.fatal cause) span : Run (Watched Host) α) :=
  fail isKnown ⟨rfl, by rintro ⟨⟩, by rintro ⟨⟩⟩

theorem bind {first : Run (Watched Host) α} {next : α → Run (Watched Host) β}
    (one : Confined known leaves first) (two : ∀ value, Confined known leaves (next value)) :
    Confined known leaves (first >>= next) := by
  intro machine result after knows ran
  rcases Run.bind_ended ran with ⟨exit, rfl, ended⟩ | ⟨value, between, ended, further⟩
  · obtain ⟨onward, exits⟩ := one machine _ _ knows ended
    refine ⟨onward, ?_⟩
    rintro _ ⟨⟩
    exact exits exit rfl
  · obtain ⟨onward, -⟩ := one machine _ _ knows ended
    obtain ⟨last, exits⟩ := two value between result after onward.knows further
    exact ⟨⟨last.knows, last.depth.trans onward.depth, List.Subset.trans onward.visits last.visits⟩,
      onward.depth ▸ exits⟩

/-- A recovery hands on a jump that may leave around it as well, or ends it. -/
theorem recover {body : Run (Watched Host) α} {next : Except Exit α → Run (Watched Host) β}
    (runs : Confined known inside body)
    (values : ∀ value, Confined known leaves (next (.ok value)))
    (faults : ∀ fault : Fault, known fault.span → fault.cause.Internal →
      Confined known leaves (next (.error (.fault fault))))
    (jumps : ∀ jump, Confined known leaves (next (.error (.jump jump))) ∨
      next (.error (.jump jump)) = Run.stop (.jump jump) ∧
        ∀ source, inside jump source → leaves jump source) :
    Confined known leaves (body.settle >>= next) := by
  intro machine result after knows ran
  obtain ⟨inner, between, ended, further⟩ := Run.settle_bind_ended ran
  obtain ⟨onward, exits⟩ := runs machine inner between knows ended
  have goes (confined : Confined known leaves (next inner)) : machine.Onward known after ∧
      ∀ exit, result = .error exit → exit.Confined known leaves machine.depth after.visits := by
    obtain ⟨last, exits⟩ := confined between result after onward.knows further
    exact ⟨⟨last.knows, last.depth.trans onward.depth, List.Subset.trans onward.visits last.visits⟩,
      onward.depth ▸ exits⟩
  rcases inner with (fault | jump) | value
  · obtain ⟨isKnown, internal⟩ := exits _ rfl
    exact goes (faults fault isKnown internal)
  · rcases jumps jump with confined | ⟨isStop, through⟩
    · exact goes confined
    · rw [isStop] at further
      cases further
      refine ⟨onward, ?_⟩
      rintro _ ⟨⟩
      obtain ⟨visit, member, depth, source⟩ := exits _ rfl
      exact ⟨visit, member, depth, through visit.node source⟩
  · exact goes (values value)

theorem inScope {parent : ScopeId} {vars : Bindings Value}
    {body : ScopeId → Run (Watched Host) α} (runs : ∀ id, Confined known leaves (body id)) :
    Confined known leaves (Run.inScope parent vars body) := by
  intro machine result after knows ran
  obtain ⟨last, ended, rfl⟩ := Run.inScope_ended ran
  obtain ⟨onward, exits⟩ := runs _ (machine.entered parent vars) result last
    (knows.opened (some parent) vars) ended
  exact ⟨⟨onward.knows.closed, onward.depth, onward.visits⟩, exits⟩

theorem callee {body : Run (Watched Host) Value} {name : String} {returns : Ty} {span : Span}
    (isKnown : known span) (runs : Confined known inside body) :
    Confined known leaves ((Run.deeper body).settle >>= callResult name returns span) := by
  have without : Confined known leaves (if returns.isVoid then Pure.pure Value.void
      else Run.fail (.recoverable (.endedWithoutResult name returns)) span :
        Run (Watched Host) Value) := by
    split
    · exact pure _
    · exact fail isKnown ⟨rfl, by rintro ⟨⟩, by rintro ⟨⟩⟩
  intro machine result after knows ran
  obtain ⟨inner, between, called, further⟩ := Run.settle_bind_ended ran
  obtain ⟨last, ended, rfl⟩ := Run.deeper_ended called
  obtain ⟨onward, exits⟩ := runs machine.deeper inner last knows ended
  have goes (confined : Confined known leaves
      (callResult name returns span inner : Run (Watched Host) Value)) : machine.Onward known after ∧
        ∀ exit, result = .error exit → exit.Confined known leaves machine.depth after.visits := by
    have depth : last.shallower.depth = machine.depth := by
      change last.depth - 1 = machine.depth
      rw [onward.depth]
      rfl
    obtain ⟨further, exits⟩ := confined last.shallower result after onward.knows further
    exact ⟨⟨further.knows, further.depth.trans depth, List.Subset.trans onward.visits further.visits⟩,
      depth ▸ exits⟩
  rcases inner with (reason | (value | _ | _)) | value
  · obtain ⟨here, internal⟩ := exits _ rfl
    exact goes (fault here internal)
  · exact goes (pure _)
  · exact goes without
  · exact goes without
  · exact goes without

/-! ## Steps of the machine -/

theorem reading {next : Store → Run (Watched Host) α}
    (reads : ∀ store, store.Knows known → Confined known leaves (next store)) :
    Confined known leaves (Run.store >>= next) :=
  fun machine result after knows ran => reads machine.store knows machine result after knows ran

theorem changeStore {change : Store → Store}
    (keeps : ∀ store, store.Knows known → (change store).Knows known) :
    Confined known leaves (Run.changeStore change : Run (Watched Host) Unit) :=
  step fun machine => ⟨(), _, rfl, rfl, rfl, keeps machine.store⟩

theorem depth : Confined known leaves (Run.depth : Run (Watched Host) Nat) :=
  step fun machine => ⟨machine.depth, machine, rfl, rfl, rfl, id⟩

theorem onHost {action : Watched Host → α × Watched Host}
    (silent : ∀ host, (action host).2.2 = host.2) : Confined known leaves (Run.onHost action) :=
  step fun machine => ⟨_, _, rfl, rfl, silent machine.host, id⟩

theorem lift {outcome : Except Cause α} {span : Span} (isKnown : known span)
    (onValues : OnValues outcome) :
    Confined known leaves (Run.lift span outcome : Run (Watched Host) α) := by
  cases outcome with
  | ok value => exact pure value
  | error cause => exact fail isKnown (onValues cause rfl).internal

theorem consult (plain : Setup Host) {span : Span} (isKnown : known span) (steps : Nat) :
    Confined known leaves (tick.consult (Watching.setup plain) span steps) := by
  unfold tick.consult Watching.setup Setup.beside
  cases plain.watch with
  | none => exact pure ()
  | some watch =>
    refine bind (onHost fun _ => rfl : Confined known leaves (Run.onHost (watchBeside watch steps))) ?_
    intro goesOn
    cases goesOn with
    | true => exact pure ()
    | false => exact fatal .interrupted isKnown

theorem tick (plain : Setup Host) {span : Span} (isKnown : known span) :
    Confined known leaves (tick (Watching.setup plain) span) := by
  have counts : Confined known leaves (Run.countStep : Run (Watched Host) Nat) :=
    step fun machine => ⟨_, machine.counted, rfl, rfl, rfl, id⟩
  refine bind counts fun steps => ?_
  split
  · split
    · exact fatal _ isKnown
    · exact consult plain isKnown steps
  · exact consult plain isKnown steps

theorem noted {node : Node} {scope : ScopeId} {next : Unit → Run (Watched Host) α}
    (confined : Confined known leaves (next ())) :
    Confined known leaves (Watching.note node scope >>= next) := by
  intro machine result after knows ran
  obtain ⟨onward, exits⟩ := confined
    (machine.visited ⟨node, scope, machine.store, machine.depth⟩) result after knows ran
  exact ⟨⟨onward.knows, onward.depth,
    List.Subset.trans (List.subset_append_left machine.visits _) onward.visits⟩, exits⟩

theorem jumping {node : Node} {scope : ScopeId} {first : Run (Watched Host) α} (target : α → Jump)
    (runs : Confined known leaves first) (source : ∀ value, leaves (target value) node) :
    Confined known leaves (Watching.note node scope >>= fun _ =>
      first >>= fun value => (Run.stop (.jump (target value)) : Run (Watched Host) β)) := by
  intro machine result after knows ran
  let visit : Visit := ⟨node, scope, machine.store, machine.depth⟩
  change (first >>= fun value => (Run.stop (.jump (target value)) : Run (Watched Host) β))
    (machine.visited visit) = some (result, after) at ran
  have goesOn {visits : List Visit} (more : (machine.visited visit).visits ⊆ visits) :
      machine.visits ⊆ visits := List.Subset.trans (List.subset_append_left _ _) more
  rcases Run.bind_ended ran with
    ⟨exit, rfl, ended⟩ | ⟨value, between, ended, ⟨⟩⟩
  · obtain ⟨onward, exits⟩ := runs (machine.visited visit) _ _ knows ended
    refine ⟨⟨onward.knows, onward.depth, goesOn onward.visits⟩, ?_⟩
    rintro _ ⟨⟩
    exact exits exit rfl
  · obtain ⟨onward, -⟩ := runs (machine.visited visit) _ _ knows ended
    refine ⟨⟨onward.knows, onward.depth, goesOn onward.visits⟩, ?_⟩
    rintro _ ⟨⟩
    refine ⟨visit, onward.visits ?_, rfl, source value⟩
    exact List.mem_append_right machine.visits (List.mem_singleton_self visit)

end Confined

end RobotScript
