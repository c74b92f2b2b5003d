import RobotScript.Proofs.Tracing.Projection
import RobotScript.Proofs.Tracing.Trace

/-! # The ledger changes nothing

A traced run is the run without the ledger: `runFresh_traced` says so for a whole
script, and for every tree that differs from it only in its spans. -/
set_option autoImplicit false

namespace RobotScript

variable {Host : Type}

/-- Steps of the ledger: they end, and all they change is the ledger. -/
def Silent (run : Run (Traced Host) Unit) : Prop :=
  ∀ machine, ∃ after, run machine = some (.ok (), after) ∧
    after.bare Prod.fst = machine.bare Prod.fst

namespace Silent

variable {α β : Type} {run : Run (Traced Host) Unit} {change : α → β}

theorem record (write : Machine (Traced Host) → Ledger) : Silent (Tracing.record write) :=
  fun machine => ⟨machine.withLedger (write machine), rfl, rfl⟩

theorem nothing : Silent (Pure.pure () : Run (Traced Host) Unit) := fun machine => ⟨machine, rfl, rfl⟩

theorem followed {second : Run (Traced Host) Unit} (first : Silent run) (then_ : Silent second) :
    Silent (run >>= fun _ => second) := by
  intro machine
  obtain ⟨between, ran, same⟩ := first machine
  obtain ⟨after, ranToo, sameToo⟩ := then_ between
  refine ⟨after, ?_, sameToo.trans same⟩
  change Run.bind run (fun _ => second) machine = _
  unfold Run.bind
  rw [ran]
  exact ranToo

theorem before {next : Unit → Run (Traced Host) α} {other : Run Host β} (silent : Silent run)
    (projects : Projects Prod.fst change (next ()) other) :
    Projects Prod.fst change (run >>= next) other := by
  intro machine
  obtain ⟨after, ran, same⟩ := silent machine
  change Outcome.bare Prod.fst change (Run.bind run next machine) = _
  unfold Run.bind
  rw [ran, ← same]
  exact projects after

theorem behind {body : Run (Traced Host) α} {other : Run Host α}
    (projects : Projects Prod.fst id body other) (silent : Silent run) :
    Projects Prod.fst id (do
      let value ← body
      run
      return value) other := by
  intro machine
  have here := projects machine
  change Outcome.bare Prod.fst id
    (Run.bind body (fun value => Run.bind run fun _ => Run.pure value) machine) = _
  unfold Run.bind
  rw [← here]
  rcases body machine with _ | ⟨exit | value, after⟩
  · rfl
  · rfl
  · obtain ⟨last, ran, same⟩ := silent after
    dsimp only
    rw [ran]
    exact congrArg (fun shown => some (Except.ok value, shown)) same

theorem announce (plain : Setup Host) (node : Node) (scope : ScopeId) (name : String) :
    Silent (Tracing.announce plain node scope name) := by
  unfold Tracing.announce
  cases plain.natives.find? name with
  | some native => exact nothing
  | none =>
    refine followed (record _) ?_
    intro machine
    simp only [Bind.bind, Run.bind, Run.store]
    cases machine.store.function? scope name with
    | none => exact nothing machine
    | some closure =>
      exact record (fun machine => machine.ledger.prepared machine.store.size
        (Parameter.names closure.function.parameters) closure.function.body.span) machine

end Silent

theorem Setup.beside_shows {Extra : Type} (note : Native Host → List Value → Extra → Extra)
    (setup : Setup Host) : Shows Prod.fst (setup.beside note) setup where
  limits := rfl
  natives := by
    intro name
    show Option.Rel _ ((setup.natives.map (Native.beside note)).find? name)
      (setup.natives.find? name)
    rw [Bindings.find?_map]
    cases setup.natives.find? name with
    | none => exact .none
    | some native => exact .some ⟨rfl, fun _ _ => ⟨rfl, rfl⟩⟩
  watch := by
    show Option.Rel _ (setup.watch.map watchBeside) setup.watch
    cases setup.watch with
    | none => exact .none
    | some watch => exact .some fun _ _ => ⟨rfl, rfl⟩

namespace Tracing

theorem shows (plain : Setup Host) : Shows Prod.fst (setup plain) plain := plain.beside_shows _

section

variable {plain : Setup Host} {inner : Node → ScopeId → Run (Traced Host) Value}
variable {other : Node → ScopeId → Run Host Value}

theorem noting_projects (nested : Projects.Nested Prod.fst inner other) (node : Node)
    (scope : ScopeId) (name : Name) :
    Projects.Nested Prod.fst (noting inner node scope name) other :=
  fun child at_ => Silent.behind (nested child at_) (.record _)

theorem form_projects (nested : Projects.Nested Prod.fst inner other) (fuel : Nat) (node : Node)
    (scope : ScopeId) :
    Projects Prod.fst id (form plain inner fuel node scope)
      (Evaluation.form plain other fuel (nodeWithoutSpans node) scope) := by
  have untold := Projects.form (shows plain) nested fuel node scope
  obtain ⟨form, ty, span⟩ := node
  match form with
  | .variable name => exact Silent.before (.record _) untold
  | .index name position =>
    let node : Node := ⟨.index name position, ty, span⟩
    exact Projects.form (shows plain) (noting_projects nested node scope (.var name)) fuel node
      scope
  | .assign name operator (some value) =>
    let node : Node := ⟨.assign name operator (some value), ty, span⟩
    exact Projects.form (shows plain) (noting_projects nested node scope (.var name)) fuel node
      scope
  | .assign name operator none => exact Silent.before (.record _) untold
  | .call name arguments =>
    refine Projects.bind (Projects.values nested scope arguments) fun results => ?_
    exact Silent.before (.announce plain _ scope name)
      (Projects.invoke (shows plain) nested name results span scope)
  | .declare name declared initializer => exact Silent.behind untold (.record _)
  | .define function => exact Silent.behind untold (.record _)
  | .block nodes => exact Silent.before (.record _) untold
  | .loop initializer test step body => exact Silent.before (.record _) untold
  | .literal value => exact untold
  | .unary operator operand => exact untold
  | .binary left operator right => exact untold
  | .returning value => exact untold
  | .breaking => exact untold
  | .continuing => exact untold
  | .list elements => exact untold
  | .repeating count body => exact untold
  | .whileTrue test body => exact untold
  | .chain branches otherwise => exact untold

end

theorem evaluate_projects (plain : Setup Host) (fuel : Nat) (node : Node) (scope : ScopeId) :
    Projects Prod.fst id (evaluate plain fuel node scope)
      (Evaluation.evaluate plain fuel (nodeWithoutSpans node) scope) := by
  induction fuel generalizing node scope with
  | zero => exact .exhausted
  | succ fuel ih => exact form_projects ih fuel node scope

end Tracing

theorem Shows.self (setup : Setup Host) : Shows id setup setup where
  limits := rfl
  natives := by
    intro name
    cases setup.natives.find? name with
    | none => exact .none
    | some native => exact .some ⟨rfl, fun _ _ => ⟨rfl, rfl⟩⟩
  watch := by
    cases setup.watch with
    | none => exact .none
    | some watch => exact .some fun _ _ => ⟨rfl, rfl⟩

theorem runFresh_bare {Shown : Type} {view : Host → Shown} {setup : Setup Host}
    {shown : Setup Shown} (shows : Shows view setup shown) (fuel : Nat) (root : Node)
    (host : Host) :
    Evaluation.Ending.bare view (runFresh setup fuel root host) =
      Evaluation.topStatements shown (Evaluation.evaluate shown fuel) 0 .void
        (nodesWithoutSpans root.statements)
        ((Machine.ready Store.withRoot host).bare view) :=
  Projects.topStatements shows (Projects.evaluate shows fuel) 0 root.statements .void
    (Machine.ready Store.withRoot host)

theorem runFresh_shown {Shown : Type} {view : Host → Shown} {setup : Setup Host}
    {shown : Setup Shown} (shows : Shows view setup shown) (fuel : Nat) (root : Node)
    (host : Host) :
    Evaluation.Ending.bare view (runFresh setup fuel root host) =
      Evaluation.Ending.bare id (runFresh shown fuel root (view host)) :=
  (runFresh_bare shows fuel root host).trans
    (runFresh_bare (Shows.self shown) fuel root (view host)).symm

/-- A traced run of a script that stands elsewhere ends as the script itself does. -/
theorem runFresh_traced (plain : Setup Host) (fuel : Nat) {marked root : Node}
    (same : marked.Same root) (host : Host) :
    Evaluation.Ending.bare Prod.fst (Tracing.runFresh plain fuel marked host) =
      Evaluation.Ending.bare id (runFresh plain fuel root host) := by
  have traced := Projects.topStatements (Tracing.shows plain)
    (Tracing.evaluate_projects plain fuel) 0 marked.statements .void
    (Machine.ready Store.withRoot (host, Ledger.blank))
  rw [same.statements.withoutSpans] at traced
  exact traced.trans (runFresh_bare (Shows.self plain) fuel root host).symm

end RobotScript
