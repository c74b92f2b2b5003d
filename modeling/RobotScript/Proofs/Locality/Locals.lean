import RobotScript.Proofs.Entering.Consistency
import RobotScript.Proofs.Locality.Keeping
import RobotScript.Proofs.Soundness

/-! # Names stay in their scope

In a well-typed tree only a declaration or a definition binds a name, in the scope in which
it is evaluated, and an assignment gives the nearest variable of its name another value. All
other nodes leave the names of every scope as they were, however their evaluation ends. -/
set_option autoImplicit false

namespace RobotScript

open Evaluation Typing

variable {Host : Type}

/-! ## Assignments -/

namespace Evaluation

def assigned (name : String) (operator : AssignOp) (span : Span) (scope : ScopeId)
    (right : Option Value) : Run Host Value := do
  let current ← variableValue scope name span
  let result ← Run.lift span (updated name operator current right)
  overwritten name span scope (result.widenTo current.ty)

theorem assign_eq (inner : Node → ScopeId → Run Host Value) (name : String)
    (operator : AssignOp) (right : Option Node) (span : Span) (scope : ScopeId) :
    assign inner name operator right span scope =
      optionalValue inner scope right >>= assigned name operator span scope := rfl

variable {scope : ScopeId} {name : String} {span : Span} {machine after : Machine Host}

theorem variableValue_ended {result : Except Exit Value}
    (ran : variableValue scope name span machine = some (result, after)) : after = machine := by
  rcases Run.bind_ended ran with ⟨_, _, ⟨⟩⟩ | ⟨store, _, ⟨⟩, looked⟩
  cases found : machine.store.get? scope name with
  | none =>
    rw [found] at looked
    cases looked
    rfl
  | some value =>
    rw [found] at looked
    cases looked
    rfl

theorem lift_ended {α : Type} {outcome : Except Cause α} {result : Except Exit α}
    (ran : Run.lift span outcome machine = some (result, after)) : after = machine := by
  cases outcome with
  | error cause =>
    cases ran
    rfl
  | ok value =>
    cases ran
    rfl

theorem overwritten_ended {stored : Value} {result : Except Exit Value}
    (ran : overwritten name span scope stored machine = some (result, after)) :
    (∃ exit, result = .error exit ∧ after = machine) ∨
      result = .ok stored ∧ ∃ owner, machine.store.owner? scope name = some owner ∧
        after = { machine with store := machine.store.define owner name stored } := by
  rcases Run.bind_ended ran with ⟨_, _, ⟨⟩⟩ | ⟨store, _, ⟨⟩, looked⟩
  cases written : machine.store.assign? scope name stored with
  | none =>
    rw [written] at looked
    cases looked
    exact .inl ⟨_, rfl, rfl⟩
  | some store =>
    rw [written] at looked
    cases looked
    obtain ⟨owner, owns, rfl⟩ := Store.assign?_eq_some written
    exact .inr ⟨rfl, owner, owns, rfl⟩

theorem assigned_ended {operator : AssignOp} {right : Option Value} {result : Except Exit Value}
    (ran : assigned name operator span scope right machine = some (result, after)) :
    (∃ exit, result = .error exit ∧ after = machine) ∨
      ∃ value owner, result = .ok value ∧ machine.store.owner? scope name = some owner ∧
        after = { machine with store := machine.store.define owner name value } := by
  rcases Run.bind_ended ran with ⟨exit, rfl, looked⟩ | ⟨current, _, looked, further⟩
  · exact .inl ⟨exit, rfl, variableValue_ended looked⟩
  · obtain rfl := variableValue_ended looked
    rcases Run.bind_ended further with ⟨exit, rfl, computed⟩ | ⟨given, _, computed, last⟩
    · exact .inl ⟨exit, rfl, lift_ended computed⟩
    · obtain rfl := lift_ended computed
      rcases overwritten_ended last with failed | ⟨rfl, owner, owns, same⟩
      · exact .inl failed
      · exact .inr ⟨_, owner, rfl, owns, same⟩

end Evaluation

section

variable {setup : Setup Host} {fuel : Nat} {scope : ScopeId} {machine after : Machine Host}

/-- What stands at the right of an assignment was evaluated, and if the assignment has a
value, then the nearest variable of its name was given this value, and nothing else. -/
def Assigns (right : Run Host (Option Value)) (scope : ScopeId) (name : String)
    (machine : Machine Host) (result : Except Exit Value) (after : Machine Host) : Prop :=
  ∃ given between, right machine = some (given, between) ∧
    machine.store.Keeps between.store ∧
    match result with
    | .error _ => after = between
    | .ok value => ∃ owner, machine.store.owner? scope name = some owner ∧
        Store.Rebinds owner (.var name) (.inl value) between.store after.store

/-- The initializer of a declaration was evaluated, and if it did not fail, then the name
was bound in the scope itself, and nothing else was. -/
def Declares (initializer : Run Host (Option Value)) (scope : ScopeId) (name : String)
    (declared : Ty) (machine : Machine Host) (result : Except Exit Value)
    (after : Machine Host) : Prop :=
  ∃ given between, initializer machine = some (given, between) ∧
    machine.store.Keeps between.store ∧
    match given with
    | .error exit => result = .error exit ∧ after = between
    | .ok value => result = .ok .void ∧
        Store.Rebinds scope (.var name) (.inl (initialValue declared value)) between.store
          after.store

theorem Quiet.assigns {name : String} {operator : AssignOp} {right : Option Node} {ty : Ty}
    {span : Span} (quiet : Quiet ⟨.assign name operator right, ty, span⟩)
    {result : Except Exit Value}
    (ran : evaluate setup (fuel + 1) ⟨.assign name operator right, ty, span⟩ scope machine =
      some (result, after)) :
    Assigns (optionalValue (evaluate setup fuel) scope right) scope name machine result after := by
  have parts : ∀ node ∈ right.toList, Quiet node := fun node member => quiet.part member
  change assign (evaluate setup fuel) name operator right span scope machine = _ at ran
  rw [assign_eq] at ran
  rcases Run.bind_ended ran with ⟨exit, rfl, failed⟩ | ⟨given, between, found, further⟩
  · exact ⟨.error exit, after, failed, Quiet.keeps_option parts failed, rfl⟩
  · have keeps := Quiet.keeps_option parts found
    refine ⟨.ok given, between, found, keeps, ?_⟩
    rcases assigned_ended further with ⟨exit, rfl, rfl⟩ | ⟨value, owner, rfl, owns, rfl⟩
    · rfl
    · exact ⟨owner, (keeps.owner? scope name).symm.trans owns,
        .define (Store.lt_size_of_owner? owns) name value⟩

theorem Quiet.declares_initializer {name : String} {declared ty : Ty} {initializer : Option Node}
    {span : Span} (quiet : ∀ node ∈ initializer.toList, Quiet node)
    (inside : scope < machine.store.size) {result : Except Exit Value}
    (ran : evaluate setup (fuel + 1) ⟨.declare name declared initializer, ty, span⟩ scope machine =
      some (result, after)) :
    Declares (optionalValue (evaluate setup fuel) scope initializer) scope name declared machine
      result after := by
  rcases Run.bind_ended ran with ⟨exit, rfl, failed⟩ | ⟨given, between, found, further⟩
  · exact ⟨.error exit, after, failed, Quiet.keeps_option quiet failed, rfl, rfl⟩
  · have keeps := Quiet.keeps_option quiet found
    cases further
    exact ⟨.ok given, between, found, keeps, rfl, .define (keeps.size ▸ inside) name _⟩

end

/-- In a scope, for every node of a script or of an entry: what is neither a declaration nor a
definition leaves the names and the functions of all scopes as they were, however its
evaluation ends; an assignment that has a value gives it to the nearest variable of its name
and changes nothing besides; and a declaration or a definition binds its own name in the scope
itself and nothing besides, unless the initializer failed, which binds nothing. -/
theorem names_stay_in_scope {source : String} {context behind : Context} {root : Node}
    (parsed : parseText source context = .ok (root, behind)) (setup : Setup Host) {fuel : Nat}
    {scope : ScopeId} {machine after : Machine Host} (inside : scope < machine.store.size)
    {result : Except Exit Value} {node : Node} (within : Within root node)
    (ran : evaluate setup (fuel + 1) node scope machine = some (result, after)) :
    (node.declares = none → machine.store.Keeps after.store) ∧
      match node.form with
      | .assign name _ right =>
        Assigns (optionalValue (evaluate setup fuel) scope right) scope name machine result after
      | .declare name declared initializer =>
        Declares (optionalValue (evaluate setup fuel) scope initializer) scope name declared
          machine result after
      | .define function => result = .ok .void ∧
        Store.Rebinds scope (.func function.name) (.inr ⟨function, scope⟩) machine.store
          after.store
      | _ => node.declares = none := by
  obtain ⟨program, -⟩ := parseText_wellTyped parsed
  obtain ⟨place, stands⟩ := program.stands.of_within within
  refine ⟨fun declares => (Quiet.of_stands stands declares).keeps ran, ?_⟩
  obtain ⟨form, ty, span⟩ := node
  cases form with
  | assign name operator right => exact (Quiet.of_stands stands rfl).assigns ran
  | declare name declared initializer =>
    exact Quiet.declares_initializer stands.initializer inside ran
  | define function =>
    cases ran
    exact ⟨rfl, .defineFunction inside ⟨function, scope⟩⟩
  | _ => rfl

/-- The first branch declares a variable and assigns another one before it fails. -/
def failingHalfway : String :=
  "try \x7b int m = n + 1; n = m * 10; double n = 1 / 0; \x7d else \x7b int m = 5; n = n + m; \x7d"

def holdingOne : Store := Store.withRoot.define 0 "n" (.int 1)

theorem failingHalfway_keeps :
    ∃ root behind node result after,
      parseText failingHalfway (printing.natives.context.withVariable "n" .int) =
        .ok (root, behind) ∧ Within root node ∧ 0 < holdingOne.size ∧
      evaluate printing 20 node 0 (.ready holdingOne []) = some (result, after) ∧
      (after.store.get? 0 "n").map Value.text = some "25" ∧ node.declares = none ∧
      holdingOne.Keeps after.store := by
  have checked : (parseText failingHalfway
      (printing.natives.context.withVariable "n" .int)).toOption.any (fun program =>
        program.1.statements.any fun node => node.declares = none &&
          (evaluate printing 20 node 0 (.ready holdingOne [])).any fun ended =>
            (ended.2.store.get? 0 "n").map Value.text == some "25") = true := by
    decide +kernel
  obtain ⟨⟨root, behind⟩, parsed, checked⟩ := (Option.any_eq_true _ _).mp checked
  obtain ⟨node, member, checked⟩ := List.any_eq_true.mp checked
  obtain ⟨declares, checked⟩ := Bool.and_eq_true_iff.mp checked
  obtain ⟨⟨result, after⟩, ran, checked⟩ := (Option.any_eq_true _ _).mp checked
  have parsed := ok_of_toOption parsed
  have declares := of_decide_eq_true declares
  have within : Within root node := by
    rcases Typed.mem_statements member with rfl | isPart
    · exact .self
    · exact .component .self isPart
  have inside : 0 < holdingOne.size := by decide
  exact ⟨root, behind, node, result, after, parsed, within, inside, ran, beq_iff_eq.mp checked,
    declares, (names_stay_in_scope parsed printing inside within ran).1 declares⟩

end RobotScript
