import RobotScript.Proofs.Limiting.Logs

/-! # Watched runs

A watched run keeps a list of visits: which node was evaluated in which scope, with the
store and the depth at that moment. A call is noted when its arguments have their
values, just before its name is looked up; every other node is noted before anything of
it is evaluated. Nothing else is changed: `Watching.runIn_plain` says that a watched run
without its visits is the run itself. -/
set_option autoImplicit false

namespace RobotScript

open Evaluation

variable {Host : Type}

/-- A node that is evaluated, and the machine at that moment. -/
structure Visit where
  node : Node
  scope : ScopeId
  store : Store
  depth : Nat

/-- A host with the visits so far beside it, the earliest first. -/
abbrev Watched (Host : Type) := Host × List Visit

namespace Machine

def visits (machine : Machine (Watched Host)) : List Visit := machine.host.2

def visited (machine : Machine (Watched Host)) (visit : Visit) : Machine (Watched Host) :=
  { machine with host := (machine.host.1, machine.visits ++ [visit]) }

def watched (machine : Machine Host) : Machine (Watched Host) :=
  ⟨machine.store, (machine.host, []), machine.steps, machine.depth⟩

theorem plain_watched (machine : Machine Host) : machine.watched.plain = machine := rfl

end Machine

namespace Watching

def setup (setup : Setup Host) : Setup (Watched Host) := setup.beside fun _ _ visits => visits

def note (node : Node) (scope : ScopeId) : Run (Watched Host) Unit := fun machine =>
  some (.ok (), machine.visited ⟨node, scope, machine.store, machine.depth⟩)

def form (plain : Setup Host) (inner : Node → ScopeId → Run (Watched Host) Value) (fuel : Nat)
    (node : Node) (scope : ScopeId) : Run (Watched Host) Value :=
  match node.form with
  | .call name arguments => do
    let arguments ← Evaluation.values inner scope arguments
    note node scope
    Evaluation.invoke (setup plain) inner name arguments node.span scope
  | _ => do
    note node scope
    Evaluation.form (setup plain) inner fuel node scope

def evaluate (plain : Setup Host) : Nat → Node → ScopeId → Run (Watched Host) Value
  | 0, _, _ => Run.exhausted
  | fuel + 1, node, scope => form plain (evaluate plain fuel) fuel node scope

/-- Every node but a call is noted before anything of it is evaluated. -/
theorem form_eq {node : Node} (noCall : ∀ name arguments, node.form ≠ .call name arguments)
    (plain : Setup Host) (inner : Node → ScopeId → Run (Watched Host) Value) (fuel : Nat)
    (scope : ScopeId) :
    form plain inner fuel node scope =
      note node scope >>= fun _ => Evaluation.form (setup plain) inner fuel node scope := by
  obtain ⟨form, ty, span⟩ := node
  cases form with
  | call name arguments => exact absurd rfl (noCall name arguments)
  | _ => rfl

def runIn (plain : Setup Host) (fuel : Nat) (root : Node) (scope : ScopeId)
    (machine : Machine (Watched Host)) : Ending (Watched Host) :=
  topStatements (setup plain) (evaluate plain fuel) scope .void root.statements machine

end Watching

/-! ## A watched run is the run itself -/

namespace Watching

theorem find?_setup (plain : Setup Host) (name : String) :
    (setup plain).natives.find? name =
      (plain.natives.find? name).map (Native.beside fun _ _ visits => visits) :=
  Bindings.find?_map ..

theorem mirrors (plain : Setup Host) : Mirroring Plainly (setup plain) plain :=
  plain.beside_mirrors _

theorem note_mirrors {α : Type} {node : Node} {scope : ScopeId}
    {next : Unit → Run (Watched Host) α} {other : Run Host α}
    (same : Mirrors Plainly α (next ()) other) :
    Mirrors Plainly α (note node scope >>= next) other :=
  fun machine twin alike => same (machine.visited ⟨node, scope, machine.store, machine.depth⟩) twin
    ⟨alike.store, alike.depth, alike.outside⟩

theorem form_mirrors (plain : Setup Host) {inner : Node → ScopeId → Run (Watched Host) Value}
    {other : Node → ScopeId → Run Host Value}
    (nested : ∀ node scope, Mirrors Plainly Value (inner node scope) (other node scope))
    (fuel : Nat) (node : Node) (scope : ScopeId) :
    Mirrors Plainly Value (form plain inner fuel node scope)
      (Evaluation.form plain other fuel node scope) := by
  have congruence := (mirrors plain).congruence
  have untold : Mirrors Plainly Value (Evaluation.form (setup plain) inner fuel node scope)
      (Evaluation.form plain other fuel node scope) :=
    congruence.form (fun node scope _ => nested node scope) (.refl _ fuel) trivial
  obtain ⟨form, ty, span⟩ := node
  cases form with
  | call name arguments =>
    refine congruence.bind (congruence.values (fun node scope _ => nested node scope) ?_) ?_
    · exact fun _ _ => trivial
    · exact fun results => note_mirrors
        (congruence.invoke (fun node scope _ => nested node scope) trivial name results span)
  | _ => exact note_mirrors untold

theorem evaluate_mirrors (plain : Setup Host) (fuel : Nat) (node : Node) (scope : ScopeId) :
    Mirrors Plainly Value (evaluate plain fuel node scope)
      (Evaluation.evaluate plain fuel node scope) := by
  induction fuel generalizing node scope with
  | zero => exact fun _ _ _ => .inl ⟨rfl, rfl⟩
  | succ fuel ih => exact form_mirrors plain ih fuel node scope

theorem runIn_plain (plain : Setup Host) (fuel : Nat) (root : Node) (scope : ScopeId)
    (machine : Machine (Watched Host)) :
    Evaluation.runIn plain fuel root scope machine.plain =
      (runIn plain fuel root scope machine).map fun ended => (ended.1, ended.2.plain) :=
  (mirrors plain).topStatements_plain (evaluate_mirrors plain fuel) scope root.statements .void machine

/-- What a run ends with, the watched run ends with as well. -/
theorem runIn_of_plain {plain : Setup Host} {fuel : Nat} {root : Node} {scope : ScopeId}
    {machine after : Machine Host} {result : Except Fault Value}
    (ran : Evaluation.runIn plain fuel root scope machine = some (result, after)) :
    ∃ last, runIn plain fuel root scope machine.watched = some (result, last) ∧
      last.plain = after := by
  rw [← machine.plain_watched, runIn_plain] at ran
  obtain ⟨⟨other, last⟩, watched, same⟩ := Option.map_eq_some_iff.mp ran
  cases same
  exact ⟨last, watched, rfl⟩

theorem of_plain {α : Type} {run : Run (Watched Host) α} {other : Run Host α}
    (same : Mirrors Plainly α run other) {machine after : Machine Host} {result : Except Exit α}
    (ran : other machine = some (result, after)) :
    ∃ last, run machine.watched = some (result, last) ∧ last.plain = after := by
  rcases same machine.watched machine machine.watched.alike_plain with
    ⟨-, shown⟩ | ⟨ended, last, behind, watched, shown, alike⟩
  · rw [ran] at shown
    cases shown
  · rw [ran] at shown
    cases shown
    exact ⟨last, watched, alike.plain⟩

theorem statements_mirrors (plain : Setup Host) (fuel : Nat) (scope : ScopeId) (nodes : List Node) :
    Mirrors Plainly Value (Evaluation.statements (setup plain) (evaluate plain fuel) scope nodes)
      (Evaluation.statements plain (Evaluation.evaluate plain fuel) scope nodes) :=
  (mirrors plain).congruence.statements (fun node scope _ => evaluate_mirrors plain fuel node scope)
    fun _ _ => trivial

end Watching

end RobotScript
