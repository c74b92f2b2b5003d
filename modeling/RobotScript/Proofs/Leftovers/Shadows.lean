import RobotScript.Proofs.Binding.Runs
import RobotScript.Proofs.Leftovers.Covering

/-! # Runs on stores that cover each other

A run on a store and the same run on a store that covers it go on side by side, for as
long as the first one finds every name that it looks for. A fault that says it did not
find one is fatal, so it ends the run, and of such a run nothing is said. -/
set_option autoImplicit false

namespace RobotScript

open Evaluation

variable {Host α β : Type}

/-- The machines are the same but for what the root of the second one binds beside. -/
structure Machine.Covers (machine other : Machine Host) : Prop where
  store : machine.store.Covers other.store
  depth : other.depth = machine.depth
  outside : other.outside = machine.outside

def Fault.Unbound (fault : Fault) : Prop := ¬ fault.cause.Bound True

theorem Fault.Unbound.fatal {fault : Fault} (unbound : fault.Unbound) :
    fault.isRecoverable = false := by
  obtain ⟨cause, span⟩ := fault
  cases cause with
  | fatal cause => rfl
  | _ => exact absurd trivial unbound

/-- Wherever the first run begins, the second one, on a machine that covers that, has no fuel
left either, or ends as the first one does; unless the first one finds a name unbound. -/
def Shadows : Relation Host Host := fun _ run other =>
  ∀ machine twin, Machine.Covers machine twin →
    run machine = none ∧ other twin = none ∨
      (∃ fault after, run machine = some (.error (.fault fault), after) ∧ fault.Unbound) ∨
      ∃ result after last, run machine = some (result, after) ∧
        other twin = some (result, last) ∧ after.Covers last

namespace Shadows

theorem exhausted : Shadows α (Run.exhausted : Run Host α) Run.exhausted :=
  fun _ _ _ => .inl ⟨rfl, rfl⟩

theorem pure (value : α) : Shadows α (Pure.pure value : Run Host α) (Pure.pure value) :=
  fun machine twin covers => .inr (.inr ⟨.ok value, machine, twin, rfl, rfl, covers⟩)

theorem stop (exit : Exit) : Shadows α (Run.stop exit : Run Host α) (Run.stop exit) :=
  fun machine twin covers => .inr (.inr ⟨.error exit, machine, twin, rfl, rfl, covers⟩)

/-- Of a run that finds a name unbound nothing is said. -/
theorem unbound {cause : Cause} (missing : ¬ cause.Bound True) (span : Span) (other : Run Host α) :
    Shadows α (Run.fail cause span) other :=
  fun machine _ _ => .inr (.inl ⟨⟨cause, span⟩, machine, rfl, missing⟩)

theorem bind {first second : Run Host α} {next last : α → Run Host β}
    (one : Shadows α first second) (two : ∀ value, Shadows β (next value) (last value)) :
    Shadows β (first >>= next) (second >>= last) := by
  intro machine twin covers
  rcases one machine twin covers with ⟨ran, shown⟩ | ⟨fault, after, ran, missing⟩ |
    ⟨exit | value, after, behind, ran, shown, still⟩
  · exact .inl ⟨Run.bind_of_none ran, Run.bind_of_none shown⟩
  · exact .inr (.inl ⟨fault, after, Run.bind_of_error ran, missing⟩)
  · exact .inr (.inr ⟨_, after, behind, Run.bind_of_error ran, Run.bind_of_error shown, still⟩)
  · rw [Run.bind_of_ok ran, Run.bind_of_ok shown]
    exact two value after behind still

theorem recover {body shown : Run Host α} {next last : Except Exit α → Run Host β}
    (runs : Shadows α body shown) (handsOn : HandsOn next) (handsOnToo : HandsOn last)
    (handles : ∀ result, Caught result → Shadows β (next result) (last result)) :
    Shadows β (body.settle >>= next) (shown.settle >>= last) := by
  have handles (result : Except Exit α) : Shadows β (next result) (last result) := by
    rcases caught_or_fatal result with caught | ⟨fault, rfl, fatal⟩
    · exact handles result caught
    · rw [handsOn fault fatal, handsOnToo fault fatal]
      exact stop _
  intro machine twin covers
  rcases runs machine twin covers with ⟨ran, shown⟩ | ⟨fault, after, ran, missing⟩ |
    ⟨result, after, behind, ran, shown, still⟩
  · exact .inl ⟨Run.settle_bind_of_none ran, Run.settle_bind_of_none shown⟩
  · rw [Run.settle_bind ran, handsOn fault missing.fatal]
    exact .inr (.inl ⟨fault, after, rfl, missing⟩)
  · rw [Run.settle_bind ran, Run.settle_bind shown]
    exact handles result after behind still

theorem wrapped {body shown around aroundToo : Run Host α} {machine twin entered other : Machine Host}
    (runs : Shadows α body shown) (inside : Machine.Covers entered other)
    {leave : Machine Host → Machine Host}
    (leaves : ∀ one two, Machine.Covers one two → Machine.Covers (leave one) (leave two))
    (first : around machine = (body entered).map fun ended => (ended.1, leave ended.2))
    (second : aroundToo twin = (shown other).map fun ended => (ended.1, leave ended.2)) :
    around machine = none ∧ aroundToo twin = none ∨
      (∃ fault after, around machine = some (.error (.fault fault), after) ∧ fault.Unbound) ∨
      ∃ result after last, around machine = some (result, after) ∧
        aroundToo twin = some (result, last) ∧ after.Covers last := by
  rw [first, second]
  rcases runs entered other inside with ⟨ran, shown⟩ | ⟨fault, after, ran, missing⟩ |
    ⟨result, after, behind, ran, shown, still⟩
  · rw [ran, shown]
    exact .inl ⟨rfl, rfl⟩
  · rw [ran]
    exact .inr (.inl ⟨fault, leave after, rfl, missing⟩)
  · rw [ran, shown]
    exact .inr (.inr ⟨result, leave after, leave behind, rfl, rfl, leaves after behind still⟩)

theorem inScope (parent : ScopeId) (vars : Bindings Value) {body shown : ScopeId → Run Host Value}
    (bodies : ∀ id, Shadows Value (body id) (shown id)) :
    Shadows Value (Run.inScope parent vars body) (Run.inScope parent vars shown) := by
  intro machine twin covers
  have shownToo : Run.inScope parent vars shown twin =
      (shown machine.store.size (twin.entered parent vars)).map fun ended =>
        (ended.1, ended.2.left) := by
    rw [Run.inScope_eq, covers.store.size]
  refine wrapped (bodies machine.store.size) ?_ ?_ (Run.inScope_eq parent vars body machine) shownToo
  · exact ⟨covers.store.opened (some parent) vars, covers.depth, covers.outside⟩
  · exact fun _ _ still => ⟨still.store.closed, still.depth, still.outside⟩

theorem deeper {body shown : Run Host Value} (runs : Shadows Value body shown) :
    Shadows Value (Run.deeper body) (Run.deeper shown) := by
  intro machine twin covers
  refine wrapped runs ?_ ?_ (Run.deeper_eq body machine) (Run.deeper_eq shown twin)
  · exact ⟨covers.store, congrArg (· + 1) covers.depth, covers.outside⟩
  · exact fun _ _ still => ⟨still.store, congrArg (· - 1) still.depth, still.outside⟩

theorem reading {next last : Store → Run Host α}
    (runs : ∀ less more, less.Covers more → Shadows α (next less) (last more)) :
    Shadows α (Run.store >>= next) (Run.store >>= last) :=
  fun machine twin covers => runs _ _ covers.store machine twin covers

theorem changeStore {change other : Store → Store}
    (keeps : ∀ less more, less.Covers more → (change less).Covers (other more)) :
    Shadows Unit (Run.changeStore change : Run Host Unit) (Run.changeStore other) :=
  fun _ _ covers => .inr (.inr ⟨.ok (), _, _, rfl, rfl, keeps _ _ covers.store, covers.depth,
    covers.outside⟩)

theorem depth : Shadows Nat (Run.depth : Run Host Nat) Run.depth := by
  intro machine twin covers
  refine .inr (.inr ⟨.ok machine.depth, machine, twin, rfl, ?_, covers⟩)
  rw [← covers.depth]
  rfl

theorem onHost (action : Host → α × Host) : Shadows α (Run.onHost action) (Run.onHost action) := by
  intro machine twin covers
  have host : twin.host = machine.host := congrArg Prod.snd covers.outside
  have steps : twin.steps = machine.steps := congrArg Prod.fst covers.outside
  refine .inr (.inr ⟨.ok (action machine.host).1, { machine with host := (action machine.host).2 },
    { twin with host := (action machine.host).2 }, rfl, ?_, covers.store, covers.depth, ?_⟩)
  · rw [← host]
    rfl
  · exact congrArg (·, (action machine.host).2) steps

theorem tick (setup : Setup Host) (span : Span) :
    Shadows Unit (tick setup span) (tick setup span) := by
  have consults (number : Nat) : Shadows Unit (tick.consult setup span number)
      (tick.consult setup span number) := by
    unfold tick.consult
    cases setup.watch with
    | none => exact pure ()
    | some watch =>
      refine bind (onHost (watch number)) fun goesOn => ?_
      cases goesOn with
      | true => exact pure ()
      | false => exact stop _
  have counts : Shadows Nat (Run.countStep : Run Host Nat) Run.countStep := by
    intro machine twin covers
    have host : twin.host = machine.host := congrArg Prod.snd covers.outside
    have steps : twin.steps = machine.steps := congrArg Prod.fst covers.outside
    refine .inr (.inr ⟨.ok (machine.steps + 1), machine.counted, twin.counted, rfl, ?_, covers.store,
      covers.depth, ?_⟩)
    · rw [← steps]
      rfl
    · exact Prod.ext (congrArg (· + 1) steps) host
  refine bind counts fun number => ?_
  cases setup.limits.maxSteps with
  | none => exact consults number
  | some limit =>
    dsimp only
    split
    · exact stop _
    · exact consults number

theorem callNative (native : Native Host) (name : String) (arguments : List Value) (span : Span) :
    Shadows Value (callNative native name arguments span)
      (callNative native name arguments span) := by
  refine bind (onHost _) fun given => ?_
  cases given with
  | error reason => exact stop _
  | ok result =>
    dsimp only
    split
    · exact pure _
    · exact stop _

theorem resolved (name : String) (span : Span) (scope : ScopeId)
    {next last : Closure → Run Host Value}
    (runs : ∀ closure, Shadows Value (next closure) (last closure)) :
    Shadows Value (resolved name span scope next) (resolved name span scope last) := by
  refine reading fun less more covers => ?_
  cases found : less.function? scope name with
  | none => exact unbound id span _
  | some closure =>
    rw [covers.function? found]
    dsimp only
    rw [covers.isAlive]
    split
    · exact runs closure
    · exact stop _

theorem variableValue (scope : ScopeId) (name : String) (span : Span) :
    Shadows Value (variableValue scope name span : Run Host Value)
      (variableValue scope name span) := by
  refine reading fun less more covers => ?_
  cases found : less.get? scope name with
  | none =>
    refine unbound ?_ span _
    exact not_not_intro trivial
  | some value =>
    rw [covers.get? found]
    exact pure value

theorem overwritten (name : String) (span : Span) (scope : ScopeId) (stored : Value) :
    Shadows Value (overwritten name span scope stored : Run Host Value)
      (overwritten name span scope stored) := by
  refine reading fun less more covers => ?_
  unfold Store.assign?
  cases owns : less.owner? scope name with
  | none =>
    refine unbound ?_ span _
    exact not_not_intro trivial
  | some owner =>
    rw [covers.owner? owns]
    exact bind (changeStore fun _ _ _ => covers.define owner name stored) fun _ => pure stored

theorem congruence (setup : Setup Host) :
    Congruence setup setup Shadows (fun _ _ => True) (fun _ => True) (fun _ => True) where
  parts := fun _ _ _ _ _ => trivial
  fresh := fun _ _ _ => trivial
  near := fun _ _ _ => trivial
  exhausted := exhausted
  pure := pure
  stop := fun exit _ => stop exit
  bind := bind
  recover := recover
  inScope := fun parent vars _ _ _ bodies => inScope parent vars fun id => bodies id trivial
  deeper := deeper
  tick := tick setup
  admitted := by
    intro span next last runs
    refine bind depth fun number => ?_
    split
    · exact stop _
    · exact runs
  natives := by
    intro name
    cases setup.natives.find? name with
    | none => exact .none
    | some native => exact .some (callNative native name)
  resolved := fun name span scope _ _ _ runs => resolved name span scope fun closure =>
    runs closure trivial
  variableValue := fun scope name span _ => variableValue scope name span
  overwritten := fun name span scope stored _ => overwritten name span scope stored
  define := fun scope name _ _ _ _ value _ =>
    changeStore fun _ _ covers => covers.define scope name value
  defineFunction := fun scope function _ _ _ =>
    changeStore fun _ _ covers => covers.defineFunction scope ⟨function, scope⟩

theorem runIn (setup : Setup Host) (fuel : Nat) (root : Node) {machine twin : Machine Host}
    (covers : Machine.Covers machine twin) :
    Evaluation.runIn setup fuel root Session.scope machine = none ∧
        Evaluation.runIn setup fuel root Session.scope twin = none ∨
      (∃ fault after, Evaluation.runIn setup fuel root Session.scope machine =
        some (.error fault, after) ∧ fault.Unbound) ∨
      ∃ result after last,
        Evaluation.runIn setup fuel root Session.scope machine = some (result, after) ∧
          Evaluation.runIn setup fuel root Session.scope twin = some (result, last) ∧
          after.Covers last := by
  have shadows : Shadows Value
      (script setup (evaluate setup fuel) Session.scope .void root.statements)
      (script setup (evaluate setup fuel) Session.scope .void root.statements) :=
    (congruence setup).script (.refl Shadows fuel) (fun _ _ => trivial) .void
  rw [runIn_eq, runIn_eq]
  rcases shadows machine twin covers with ⟨ran, shown⟩ | ⟨fault, after, ran, missing⟩ |
    ⟨result, after, behind, ran, shown, still⟩
  · rw [ran, shown]
    exact .inl ⟨rfl, rfl⟩
  · rw [ran]
    exact .inr (.inl ⟨fault, after, rfl, missing⟩)
  · rw [ran, shown]
    exact .inr (.inr ⟨result.mapError (topFault default), after, behind, rfl, rfl, still⟩)

end Shadows

end RobotScript
