import RobotScript.Proofs.Running.Rules

/-! # Nodes that are ready to run

`Ready` is what a part of a script needs where it is run: the names it uses reach
what its outlook has for them. It passes from a node to its parts and from one
point of a run to the next. `Sound` is what is asked of the evaluator of nested
nodes. -/
set_option autoImplicit false

namespace RobotScript

open Typing

variable {Host : Type} {stage : Stage Host}

/-- A part of a script with these free names, uses and scopes may run here. -/
structure Ready (stage : Stage Host) (context : Context) (outlook : Outlook)
    (machine : Machine (Traced Host)) (scope : Nat) (free : List Name) (links : List Use)
    (extents : List Extent) : Prop where
  world : World stage machine
  sees : stage.Sees context outlook
  inside : scope < machine.store.size
  agrees : Agrees (machine.reach scope) outlook free
  links : links ⊆ stage.links
  captureFree : ∀ extent ∈ extents, keepsMeanings extent.opening extent.statements = true

abbrev ReadyNode (stage : Stage Host) (context : Context) (outlook : Outlook)
    (machine : Machine (Traced Host)) (scope : Nat) (node : Node) : Prop :=
  Ready stage context outlook machine scope (nodeFree node) (nodeLinks outlook node)
    (nodeExtents [] node)

namespace Ready

variable {context : Context} {outlook : Outlook} {machine after : Machine (Traced Host)}
variable {scope : Nat} {free more : List Name} {links others : List Use}
variable {extents further : List Extent}

theorem first (ready : Ready stage context outlook machine scope (free ++ more) (links ++ others)
    (extents ++ further)) : Ready stage context outlook machine scope free links extents :=
  { ready with
    agrees := fun name member => ready.agrees name (List.mem_append_left more member)
    links := fun _ member => ready.links (List.mem_append_left others member)
    captureFree := fun extent member =>
      ready.captureFree extent (List.mem_append_left further member) }

theorem second (ready : Ready stage context outlook machine scope (free ++ more) (links ++ others)
    (extents ++ further)) : Ready stage context outlook machine scope more others further :=
  { ready with
    agrees := fun name member => ready.agrees name (List.mem_append_right free member)
    links := fun _ member => ready.links (List.mem_append_right links member)
    captureFree := fun extent member =>
      ready.captureFree extent (List.mem_append_right extents member) }

theorem rest {name : Name} {use : Use}
    (ready : Ready stage context outlook machine scope (name :: free) (use :: links) extents) :
    Ready stage context outlook machine scope free links extents :=
  { ready with
    agrees := fun other member => ready.agrees other (List.mem_cons_of_mem name member)
    links := fun _ member => ready.links (List.mem_cons_of_mem use member) }

theorem later {bound : Nat} (ready : Ready stage context outlook machine scope free links extents)
    (leads : Leads stage bound machine after) (below : scope < bound) :
    Ready stage context outlook after scope free links extents :=
  { ready with
    world := leads.world
    inside := leads.size ▸ ready.inside
    agrees := by
      rw [leads.below.reach ready.world.rooted below]
      exact ready.agrees }

end Ready

/-- What a statement makes of its scope: what it declares is bound there, and all
else is as it was. -/
structure Advances (outlook : Outlook) (scope : Nat) (node : Node)
    (before after : Machine (Traced Host)) : Prop where
  reaches : ∀ name, after.reach scope name =
    if node.declares = some name then outlook.after node name else before.reach scope name
  functions : ∀ name closure, after.store.functionIn? name scope = some closure →
    before.store.functionIn? name scope = some closure ∨ node.form = .define closure.function

/-- An evaluator gives expressions values of their types, and ends neither them
nor statements in any other way than they may end. -/
structure Sound (stage : Stage Host) (inner : Node → ScopeId → Run (Traced Host) Value) :
    Prop where
  expression : ∀ {context : Context} {outlook : Outlook} {machine : Machine (Traced Host)}
    {scope : Nat} {node : Node}, Expression context node →
    ReadyNode stage context outlook machine scope node →
    Runs stage machine.store.size (inner node scope) machine
      (fun value _ => value.Is node.ty) Exit.Quiet
  statement : ∀ (place : Grammar.Place) {context : Context} {outlook : Outlook}
    {machine : Machine (Traced Host)} {scope : Nat} {node : Node},
    Statement place context node → ReadyNode stage context outlook machine scope node →
    scope + 1 = machine.store.size →
    (∀ name, node.declares = some name → Unkept machine scope name) →
    Runs stage scope (inner node scope) machine
      (fun value after => value.Is node.ty ∧ Advances outlook scope node machine after)
      (Exit.Fits place)
  block : ∀ (place : Grammar.Place) {context : Context} {outlook : Outlook}
    {machine : Machine (Traced Host)} {scope : Nat} {node : Node}, IsBlock node →
    Sequence (Statement place) context.push node.statements →
    ReadyNode stage context outlook machine scope node →
    Runs stage machine.store.size (inner node scope) machine
      (fun value _ => value.Is .void) (Exit.Fits place)

/-! ## What is read is what is reached -/

theorem findSome?_map {α β γ : Type} {list : List α} {find : α → Option β} {make : α → β → γ}
    {made : γ} (found : (list.findSome? fun item => (find item).map (make item)) = some made) :
    ∃ item ∈ list, ∃ result, find item = some result ∧ made = make item result ∧
      list.findSome? find = some result ∧
      (list.find? fun item => (find item).isSome) = some item := by
  induction list with
  | nil => cases found
  | cons first rest ih =>
    rw [List.findSome?_cons] at found
    cases here : find first with
    | some result =>
      rw [here] at found
      cases found
      refine ⟨first, List.mem_cons_self, result, here, rfl, ?_, ?_⟩
      · rw [List.findSome?_cons, here]
      · rw [List.find?_cons, here]
        rfl
    | none =>
      rw [here] at found
      obtain ⟨item, member, result, isResult, isMade, read, owner⟩ := ih found
      refine ⟨item, List.mem_cons_of_mem first member, result, isResult, isMade, ?_, ?_⟩
      · rw [List.findSome?_cons, here]
        exact read
      · rw [List.find?_cons, here]
        exact owner

namespace Machine

variable {machine : Machine (Traced Host)} {scope : Nat} {name : String} {entry : Entry}

theorem get?_of_reach (reached : machine.reach scope (.var name) = some entry) :
    ∃ owner value, machine.store.get? scope name = some value ∧
      machine.store.owner? scope name = some owner ∧
      machine.store.variableIn? name owner = some value ∧ entry.meaning = .var value.ty := by
  obtain ⟨owner, -, value, bound, rfl, read, owns⟩ := findSome?_map reached
  exact ⟨owner, value, read, owns, bound, rfl⟩

theorem function?_of_reach (reached : machine.reach scope (.func name) = some entry) :
    ∃ home closure, machine.store.function? scope name = some closure ∧
      machine.store.functionIn? name home = some closure ∧
      entry.meaning = .func closure.function.signature := by
  obtain ⟨home, -, closure, bound, rfl, read, -⟩ := findSome?_map reached
  exact ⟨home, closure, read, bound, rfl⟩

end Machine

end RobotScript
