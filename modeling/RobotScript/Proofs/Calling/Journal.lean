import RobotScript.Proofs.Limiting.Logs

/-! # Journals of calls

A run with a journal writes down, with the depth of the machine at that moment, when the
evaluation of a node begins and ends, when a call has found its function, and when the body
of a function is entered and left. Nothing else is changed: `Journal.runIn_plain` says that
such a run without its journal is the run itself. -/
set_option autoImplicit false

namespace RobotScript

open Evaluation

variable {Host : Type}

inductive Event where
  | begins (node : Node)
  /-- The arguments have values, and the function was found and is alive. -/
  | calls (node : Node)
  | enters
  | leaves
  | ends (node : Node) (result : Except Exit Value)

/-- What happens, and the depth of the machine then. -/
structure Moment where
  event : Event
  depth : Nat

/-- A host with the moments so far beside it, the earliest first. -/
abbrev Journaled (Host : Type) := Host × List Moment

namespace Machine

def moments (machine : Machine (Journaled Host)) : List Moment := machine.host.2

def noted (machine : Machine (Journaled Host)) (event : Event) : Machine (Journaled Host) :=
  { machine with host := (machine.host.1, machine.moments ++ [⟨event, machine.depth⟩]) }

def journaled (machine : Machine Host) : Machine (Journaled Host) :=
  ⟨machine.store, (machine.host, []), machine.steps, machine.depth⟩

end Machine

def Run.ended {α : Type} : Except Exit α → Run Host α
  | .ok value => return value
  | .error exit => Run.stop exit

namespace Journal

def setup (plain : Setup Host) : Setup (Journaled Host) := plain.beside fun _ _ moments => moments

def note (event : Event) : Run (Journaled Host) Unit := fun machine =>
  some (.ok (), machine.noted event)

/-- Notes behind a run how it has ended. -/
def behind (event : Except Exit Value → Event) (run : Run (Journaled Host) Value) :
    Run (Journaled Host) Value := do
  let result ← run.settle
  note (event result)
  Run.ended result

section

variable (plain : Setup Host) (inner : Node → ScopeId → Run (Journaled Host) Value)

/-- Runs the body of a function, and notes that it was entered and left. -/
def body (closure : Closure) (arguments : List Value) : Run (Journaled Host) Value :=
  behind (fun _ => .leaves) <| Run.deeper do
    note .enters
    Run.inScope closure.home (boundParameters closure.function.parameters arguments)
      fun frame => statements (setup plain) inner frame closure.function.body.statements

def callFunction (node : Node) (name : String) (arguments : List Value) (closure : Closure) :
    Run (Journaled Host) Value := do
  note (.calls node)
  admitted (setup plain) node.span do
    callResult name closure.function.returns node.span
      (← (body plain inner closure arguments).settle)

def invoke (node : Node) (name : String) (scope : ScopeId) (arguments : List Value) :
    Run (Journaled Host) Value :=
  match (setup plain).natives.find? name with
  | some native => callNative native name arguments node.span
  | none => resolved name node.span scope (callFunction plain inner node name arguments)

def form (fuel : Nat) (node : Node) (scope : ScopeId) : Run (Journaled Host) Value :=
  match node.form with
  | .call name arguments => do invoke plain inner node name scope (← values inner scope arguments)
  | _ => Evaluation.form (setup plain) inner fuel node scope

end

def evaluate (plain : Setup Host) : Nat → Node → ScopeId → Run (Journaled Host) Value
  | 0, _, _ => Run.exhausted
  | fuel + 1, node, scope => do
    note (.begins node)
    behind (.ends node) (form plain (evaluate plain fuel) fuel node scope)

def runIn (plain : Setup Host) (fuel : Nat) (root : Node) (scope : ScopeId)
    (machine : Machine (Journaled Host)) : Ending (Journaled Host) :=
  topStatements (setup plain) (evaluate plain fuel) scope .void root.statements machine

/-! ## A run with a journal is the run itself -/

theorem mirrors (plain : Setup Host) : Mirroring Plainly (setup plain) plain :=
  plain.beside_mirrors _

theorem note_mirrors {α : Type} {event : Event} {next : Unit → Run (Journaled Host) α}
    {other : Run Host α} (same : Mirrors Plainly α (next ()) other) :
    Mirrors Plainly α (note event >>= next) other :=
  fun machine twin alike => same (machine.noted event) twin
    ⟨alike.store, alike.depth, alike.outside⟩

theorem ended_run {Host α : Type} (result : Except Exit α) (machine : Machine Host) :
    Run.ended result machine = some (result, machine) := by
  cases result <;> rfl

theorem behind_run {event : Except Exit Value → Event} {run : Run (Journaled Host) Value}
    {machine after : Machine (Journaled Host)} {result : Except Exit Value}
    (ran : run machine = some (result, after)) :
    behind event run machine = some (result, after.noted (event result)) := by
  rw [behind, Run.settle_bind ran]
  exact ended_run result (after.noted (event result))

theorem behind_ended {event : Except Exit Value → Event} {run : Run (Journaled Host) Value}
    {machine last : Machine (Journaled Host)} {result : Except Exit Value}
    (ran : behind event run machine = some (result, last)) :
    ∃ after, run machine = some (result, after) ∧ last = after.noted (event result) := by
  obtain ⟨inside, after, ended, -⟩ := Run.settle_bind_ended ran
  rw [behind_run ended] at ran
  cases ran
  exact ⟨after, ended, rfl⟩

theorem behind_mirrors {event : Except Exit Value → Event} {run : Run (Journaled Host) Value}
    {other : Run Host Value} (same : Mirrors Plainly Value run other) :
    Mirrors Plainly Value (behind event run) other := by
  intro machine twin alike
  rcases same machine twin alike with ⟨none, shown⟩ | ⟨result, after, last, ran, shown, still⟩
  · exact .inl ⟨Run.settle_bind_of_none none, shown⟩
  · exact .inr ⟨result, after.noted (event result), last, behind_run ran, shown, still.store,
      still.depth, still.outside⟩

section

variable (plain : Setup Host) {inner : Node → ScopeId → Run (Journaled Host) Value}
variable {other : Node → ScopeId → Run Host Value}
variable (nested : ∀ node scope, Mirrors Plainly Value (inner node scope) (other node scope))

include nested

theorem callFunction_mirrors (node : Node) (name : String) (arguments : List Value)
    (closure : Closure) :
    Mirrors Plainly Value (callFunction plain inner node name arguments closure)
      (Evaluation.callFunction plain other closure name arguments node.span) := by
  have pairing := (mirrors plain).congruence.pairing
  have home : closure.home = closure.home ∧ True := ⟨rfl, trivial⟩
  have runs := pairing.body (Congruence.Nested.paired fun node scope _ => nested node scope) home
    (boundParameters closure.function.parameters arguments) closure.function.body.statements
  refine note_mirrors (pairing.admitted node.span ?_)
  refine pairing.recover (behind_mirrors (.deeper (note_mirrors runs))) (fun _ _ => rfl)
    (fun _ _ => rfl) fun result caught => ?_
  exact pairing.callResult name closure.function.returns node.span caught

theorem invoke_mirrors (node : Node) (name : String) (scope : ScopeId) (arguments : List Value) :
    Mirrors Plainly Value (invoke plain inner node name scope arguments)
      (Evaluation.invoke plain other name arguments node.span scope) := by
  have congruence := (mirrors plain).congruence
  have natives := congruence.natives name
  unfold invoke Evaluation.invoke
  generalize (setup plain).natives.find? name = native at natives
  generalize plain.natives.find? name = shown at natives
  cases natives with
  | none =>
    exact congruence.resolved name node.span scope trivial fun closure _ =>
      callFunction_mirrors plain nested node name arguments closure
  | some same => exact same arguments node.span

theorem form_mirrors (fuel : Nat) (node : Node) (scope : ScopeId) :
    Mirrors Plainly Value (form plain inner fuel node scope)
      (Evaluation.form plain other fuel node scope) := by
  have congruence := (mirrors plain).congruence
  have untold : Mirrors Plainly Value (Evaluation.form (setup plain) inner fuel node scope)
      (Evaluation.form plain other fuel node scope) :=
    congruence.form (fun node scope _ => nested node scope) (.refl _ fuel) trivial
  obtain ⟨form, ty, span⟩ := node
  cases form with
  | call name arguments =>
    refine congruence.bind (congruence.values (fun node scope _ => nested node scope) ?_) ?_
    · exact fun _ _ => trivial
    · exact fun results => invoke_mirrors plain nested _ name scope results
  | _ => exact untold

end

theorem evaluate_mirrors (plain : Setup Host) (fuel : Nat) (node : Node) (scope : ScopeId) :
    Mirrors Plainly Value (evaluate plain fuel node scope)
      (Evaluation.evaluate plain fuel node scope) := by
  induction fuel generalizing node scope with
  | zero => exact fun _ _ _ => .inl ⟨rfl, rfl⟩
  | succ fuel ih => exact note_mirrors (behind_mirrors (form_mirrors plain ih fuel node scope))

/-- A run with a journal is without it the run itself. -/
theorem evaluate_plain (plain : Setup Host) (fuel : Nat) (node : Node) (scope : ScopeId)
    (machine : Machine (Journaled Host)) :
    Evaluation.evaluate plain fuel node scope machine.plain =
      (evaluate plain fuel node scope machine).map fun ended => (ended.1, ended.2.plain) :=
  (evaluate_mirrors plain fuel node scope).plain machine

theorem runIn_plain (plain : Setup Host) (fuel : Nat) (root : Node) (scope : ScopeId)
    (machine : Machine (Journaled Host)) :
    Evaluation.runIn plain fuel root scope machine.plain =
      (runIn plain fuel root scope machine).map fun ended => (ended.1, ended.2.plain) :=
  (mirrors plain).topStatements_plain (evaluate_mirrors plain fuel) scope root.statements .void
    machine

end Journal

end RobotScript
