import RobotScript.Proofs.Binding.Runs
import RobotScript.Proofs.Binding.Situated
import RobotScript.Proofs.Reading.StatementSound

/-! # Nodes that are ready to run

`Ready` is what a part of a script needs where it is run: that the declarations of its
context are in view. It passes from a node to its parts and from one point of a run to
the next, and behind a statement to the statements after it. `Sound` is what is asked of
the evaluator of nested nodes. -/
set_option autoImplicit false

namespace RobotScript

open Typing

variable {Host : Type}

namespace Binding

variable {footing : Footing Host} {context : Context} {machine after : Machine (Watched Host)}
variable {scope : ScopeId} {free : List Name} {extents : List Extent} {node : Node}

/-- A part of a script with these free names and scopes may run here. -/
structure Ready (footing : Footing Host) (context : Context) (machine : Machine (Watched Host))
    (scope : ScopeId) (free : List Name) (extents : List Extent) : Prop where
  world : World footing machine
  sees : Sees footing machine.store scope context free
  inside : scope < machine.store.size
  captureFree : footing.faithful →
    ∀ extent ∈ extents, keepsMeanings extent.opening extent.statements = true

abbrev ReadyNode (footing : Footing Host) (context : Context) (machine : Machine (Watched Host))
    (scope : ScopeId) (node : Node) : Prop :=
  Ready footing context machine scope (nodeFree node) (nodeExtents [] node)

namespace Ready

theorem mono (ready : Ready footing context machine scope free extents) {fewer : List Name}
    {less : List Extent} (names : fewer ⊆ free) (scopes : less ⊆ extents) :
    Ready footing context machine scope fewer less :=
  { ready with
    sees := ready.sees.mono names
    captureFree := fun asked extent member => ready.captureFree asked extent (scopes member) }

theorem part {part : Node} (ready : ReadyNode footing context machine scope node)
    (member : part ∈ node.parts) : ReadyNode footing context machine scope part :=
  ready.mono (partOf_of_mem member).free (partOf_of_mem member).extents

theorem later {bound : Nat} (ready : Ready footing context machine scope free extents)
    (leads : Leads footing bound machine after) (below : scope < bound) :
    Ready footing context after scope free extents :=
  { ready with
    world := leads.world
    sees := ready.sees.carry (.of_sameBelow leads.below ready.world.rooted below)
    inside := leads.size ▸ ready.inside }

end Ready

/-! ## New scopes -/

theorem Sees.opened (sees : Sees footing machine.store scope context free)
    (rooted : machine.store.Rooted) (inside : scope < machine.store.size) :
    Sees footing (machine.entered scope .empty).store machine.store.size context.push free where
  natives := sees.natives
  functions name signature notNative found := by
    obtain ⟨closure, stored, means⟩ := sees.functions name signature notNative found
    exact ⟨closure, (Store.function?_opened rooted inside .empty name).trans stored, means⟩
  values asked name ty found := by
    refine (Store.get?_opened rooted inside .empty name).trans ?_
    rw [sees.values asked name ty found, Bool.or_true]

theorem Ready.opened (ready : Ready footing context machine scope free extents) :
    Ready footing context.push (machine.entered scope .empty) machine.store.size free extents where
  world := ready.world.entered ready.inside .empty
  sees := ready.sees.opened ready.world.rooted ready.inside
  inside := by
    rw [Machine.entered, Store.size_opened]
    exact Nat.lt_succ_self _
  captureFree := ready.captureFree

theorem unkept_opened (store : Store) (parent : Option ScopeId) (vars : Bindings Value)
    (name : Name) : (store.opened parent vars).Unkept store.size name := by
  intro label closure found
  rw [Store.functionIn?_opened] at found
  cases found

/-! ## Behind a statement -/

/-- What a statement makes of its scope: it binds what it declares, and all else is as
it was. -/
def Advances (scope : ScopeId) (node : Node) (before after : Store) : Prop :=
  match node.declares with
  | none => Store.SameBelow (scope + 1) before after
  | some name => Store.Binds scope name (node.function?.map (⟨·, scope⟩)) before after

theorem Advances.of_none {before behind : Store} (declares : node.declares = none)
    (same : Store.SameBelow (scope + 1) before behind) : Advances scope node before behind := by
  rw [Advances, declares]
  exact same

theorem mem_hides {name : Name} (member : name ∈ free) (other : node.declares ≠ some name) :
    name ∈ node.hides free := List.mem_filter.mpr ⟨member, decide_eq_true other⟩

theorem Sees.withVariable {before behind : Store} {name : String} {ty : Ty}
    {closure : Option Closure} {used : List Name} (sees : Sees footing before scope context used)
    (binds : Store.Binds scope (.var name) closure before behind) (rooted : before.Rooted)
    (inside : scope < before.size) (hidden : ∀ label, .func label ∈ free → .func label ∈ used) :
    Sees footing behind scope (context.withVariable name ty) free where
  natives := sees.natives
  functions label signature notNative found := by
    obtain ⟨other, stored, means⟩ := sees.functions label signature notNative found
    refine ⟨other, ?_, fun asked member => means asked (hidden label member)⟩
    rw [binds.function? rooted inside, if_neg nofun]
    exact stored
  values asked label found isVariable := by
    rw [binds.get? rooted inside]
    rw [Context.variableType?_withVariable] at isVariable
    split at isVariable
    next same => rw [decide_eq_true (congrArg Name.var same), Bool.true_or]
    next => rw [sees.values asked label found isVariable, Bool.or_true]

theorem Sees.withFunction {before behind : Store} {function : Function} {used : List Name}
    (sees : Sees footing before scope context used)
    (binds : Store.Binds scope (.func function.name) (some ⟨function, scope⟩) before behind)
    (rooted : before.Rooted) (inside : scope < before.size)
    (hidden : ∀ label, function.name ≠ label → .func label ∈ free → .func label ∈ used) :
    Sees footing behind scope (context.withFunction function.name function.signature) free where
  natives := sees.natives
  functions label signature notNative found := by
    have notNative : context.natives.find? label = none := notNative
    rw [Context.signature?_withFunction _ _ _ _ notNative] at found
    rw [binds.function? rooted inside]
    split at found
    next same =>
      obtain rfl := Option.some.inj found
      exact ⟨⟨function, scope⟩, if_pos (congrArg Name.func same), fun _ _ => rfl⟩
    next other =>
      obtain ⟨closure, stored, means⟩ := sees.functions label signature notNative found
      refine ⟨closure, ?_, fun asked member => means asked (hidden label other member)⟩
      rw [if_neg fun same => other (Name.func.inj same)]
      exact stored
  values asked label ty found := by
    rw [binds.get? rooted inside, sees.values asked label ty found, Bool.or_true]

theorem Sees.behind {before behind : Store}
    (sees : Sees footing before scope context (node.hides free))
    (advances : Advances scope node before behind) (rooted : before.Rooted)
    (inside : scope < before.size) : Sees footing behind scope (context.after node) free := by
  obtain ⟨form, ty, span⟩ := node
  cases form with
  | declare name declared initializer =>
    exact sees.withVariable advances rooted inside fun label member => mem_hides member nofun
  | define function =>
    refine sees.withFunction advances rooted inside fun label other member => mem_hides member ?_
    rintro ⟨⟩
    exact other rfl
  | _ =>
    exact (sees.carry (.of_sameBelow advances rooted (Nat.lt_succ_self scope))).mono
      fun name member => mem_hides member nofun

theorem Ready.behind (ready : Ready footing context machine scope (node.hides free) extents)
    (leads : Leads footing scope machine after)
    (advances : Advances scope node machine.store after.store) :
    Ready footing (context.after node) after scope free extents where
  world := leads.world
  sees := ready.sees.behind advances ready.world.rooted ready.inside
  inside := leads.size ▸ ready.inside
  captureFree := ready.captureFree

structure ReadySequence (footing : Footing Host) (context : Context)
    (machine : Machine (Watched Host)) (scope : ScopeId) (list : List Node) : Prop where
  ready : Ready footing context machine scope (sequenceFree list) (nodesExtents list)
  top : scope + 1 = machine.store.size
  calm : footing.faithful → Calm list
  unkept : footing.faithful → ∀ node ∈ list, ∀ name, node.declares = some name →
    machine.store.Unkept scope name

namespace ReadySequence

variable {list rest : List Node}

theorem head (ready : ReadySequence footing context machine scope (node :: rest)) :
    ReadyNode footing context machine scope node :=
  ready.ready.mono (List.subset_append_left ..) (List.subset_append_left ..)

theorem later (ready : ReadySequence footing context machine scope list)
    (leads : Leads footing machine.store.size machine after) :
    ReadySequence footing context after scope list where
  ready := ready.ready.later leads ready.ready.inside
  top := leads.size ▸ ready.top
  calm := ready.calm
  unkept asked node member name declares :=
    (ready.unkept asked node member name declares).carry leads.below ready.ready.inside

/-- The functions that a scope holds behind a statement: those before, and the one that
the statement defines. -/
theorem functionIn?_cases {before behind : Store} (advances : Advances scope node before behind)
    {label : String} {closure : Closure} (found : behind.functionIn? label scope = some closure) :
    before.functionIn? label scope = some closure ∨ node.form = .define closure.function := by
  obtain ⟨form, ty, span⟩ := node
  have binds {name : Name} {made : Option Closure} (binds : Store.Binds scope name made before behind) :
      before.functionIn? label scope = some closure ∨ made = some closure := by
    rw [binds.functions] at found
    split at found
    · exact .inr found
    · exact .inl found
  cases form with
  | declare name declared initializer => exact (binds advances).imp id nofun
  | define function =>
    refine (binds advances).imp id ?_
    rintro ⟨⟩
    rfl
  | _ =>
    have same : Store.SameBelow (scope + 1) before behind := advances
    rw [same.functions scope (Nat.lt_succ_self scope)] at found
    exact .inl found

theorem tail (ready : ReadySequence footing context machine scope (node :: rest))
    (leads : Leads footing scope machine after)
    (advances : Advances scope node machine.store after.store) :
    ReadySequence footing (context.after node) after scope rest where
  ready := Ready.behind
    (ready.ready.mono (List.subset_append_right ..) (List.subset_append_right ..)) leads advances
  top := leads.size ▸ ready.top
  calm asked := (List.pairwise_cons.mp (ready.calm asked)).2
  unkept := by
    intro asked later member name declares label closure found free
    rcases functionIn?_cases advances found with before | defined
    · exact ready.unkept asked later (List.mem_cons_of_mem node member) name declares label
        closure before free
    · have kept : name ∈ node.keeps := by
        rw [Typed.keeps, defined]
        exact free
      exact (List.pairwise_cons.mp (ready.calm asked)).1 later member name kept declares

end ReadySequence

/-! ## The evaluator of nested nodes -/

/-- An evaluator leaves all scopes alone, unless it evaluates a statement, which binds
what it declares. -/
structure Sound (footing : Footing Host) (inner : Node → ScopeId → Run (Watched Host) Value) :
    Prop where
  settled : ∀ {context : Context} {machine : Machine (Watched Host)} {scope : ScopeId}
    {node : Node}, Settled context node → ReadyNode footing context machine scope node →
    RunsStill footing (inner node scope) machine
  statement : ∀ {place : Grammar.Place} {context : Context} {machine : Machine (Watched Host)}
    {scope : ScopeId} {node : Node}, Statement place context node →
    ReadyNode footing context machine scope node → scope + 1 = machine.store.size →
    (footing.faithful → ∀ name, node.declares = some name → machine.store.Unkept scope name) →
    Runs footing scope (inner node scope) machine
      fun _ after => Advances scope node machine.store after.store

end Binding

end RobotScript
