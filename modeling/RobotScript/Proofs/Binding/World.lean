import RobotScript.Proofs.Binding.Lookups
import RobotScript.Proofs.Scoping.Outlook
import RobotScript.Proofs.Watching.Visits

/-! # The world in which names are bound

What holds of the machine at every point of a run of a well-typed script, whatever its
natives do: each function that is stored was defined in the very scope that stores it,
from which it sees all functions that its body was read with. If no function is captured
it sees them with the signatures that it was read with, and all variables as well; a run
for which this is asked is faithful. -/
set_option autoImplicit false

namespace RobotScript

open Typing

variable {Host : Type}

/-- Every function was stored in the scope in which it was defined. A call of a function
of the script finds one, in a scope that the chain of the caller keeps alive. -/
structure Visit.Grounded (natives : NativeTable Host) (visit : Visit) : Prop where
  homes : ∀ id name closure, visit.store.functionIn? name id = some closure → closure.home = id
  called : ∀ name arguments, visit.node.form = .call name arguments → natives.find? name = none →
    visit.store.isHeld visit.scope = true ∧
      ∃ home ∈ visit.store.chain visit.scope, ∃ closure,
        visit.store.functionIn? name home = some closure ∧
          visit.store.function? visit.scope name = some closure ∧ closure.home = home

/-- No function that a scope holds keeps using a name. -/
def Store.Unkept (store : Store) (scope : ScopeId) (name : Name) : Prop :=
  ∀ label closure, store.functionIn? label scope = some closure →
    name ∉ definitionFree closure.function

theorem Store.Unkept.carry {before after : Store} {bound scope : ScopeId} {name : Name}
    (unkept : before.Unkept scope name) (same : SameBelow bound before after)
    (below : scope < bound) : after.Unkept scope name := by
  intro label closure found
  rw [same.functions scope below] at found
  exact unkept label closure found

namespace Binding

/-- The setup of a run, and whether it is asked to be faithful. -/
structure Footing (Host : Type) where
  plain : Setup Host
  faithful : Prop

variable {footing : Footing Host}

/-- From a scope the declarations of a context are in view. Which function it is that a
name reaches matters for the names that are used. -/
structure Sees (footing : Footing Host) (store : Store) (scope : ScopeId) (context : Context)
    (free : List Name) : Prop where
  natives : context.natives = footing.plain.natives.map (·.signature)
  functions : ∀ name signature, context.natives.find? name = none →
    context.signature? name = some signature →
      ∃ closure, store.function? scope name = some closure ∧
        (footing.faithful → .func name ∈ free → closure.function.signature = signature)
  values : footing.faithful → ∀ name ty, context.variableType? name = some ty →
    (store.get? scope name).isSome = true

/-- A function that sees, from its home, what its body was read with. -/
structure Understood (footing : Footing Host) (store : Store) (home : ScopeId)
    (function : Function) (context : Context) : Prop where
  sees : Sees footing store home context (definitionFree function)
  isBlock : IsBlock function.body
  body : Sequence (Statement ⟨false, some function.returns⟩)
    (context.entering function.parameters) function.body.statements
  captureFree : footing.faithful →
    CaptureFree (Parameter.names function.parameters) function.body

structure World (footing : Footing Host) (machine : Machine (Watched Host)) : Prop where
  rooted : machine.store.Rooted
  held : ∀ id < machine.store.size, machine.store.isHeld id = true
  closures : ∀ id name closure, machine.store.functionIn? name id = some closure →
    closure.home = id ∧ ∃ context, Understood footing machine.store id closure.function context
  visits : ∀ visit ∈ machine.visits, visit.Grounded footing.plain.natives

/-! ## Changes that keep the view -/

/-- What was in view from a scope still is, and the names that are used reach the same
functions, if that matters. -/
structure Carries (faithful : Prop) (free : List Name) (scope : ScopeId) (before after : Store) :
    Prop where
  functions : ∀ name closure, before.function? scope name = some closure →
    ∃ other, after.function? scope name = some other ∧
      (faithful → .func name ∈ free → other = closure)
  values : ∀ name, (before.get? scope name).isSome = true → (after.get? scope name).isSome = true

namespace Carries

variable {store after : Store} {faithful : Prop} {free : List Name} {scope bound : ScopeId}

theorem of_sameBelow (same : Store.SameBelow bound store after) (rooted : store.Rooted)
    (below : scope < bound) : Carries faithful free scope store after where
  functions name closure found :=
    ⟨closure, (same.function? rooted below name).trans found, fun _ _ => rfl⟩
  values name seen := (same.get? rooted below name).trans seen

theorem of_binds {name : Name} {closure : Option Closure}
    (binds : Store.Binds bound name closure store after)
    (stores : ∀ label, name = .func label → closure.isSome = true) (rooted : store.Rooted)
    (inside : bound < store.size) (old : scope ≤ bound)
    (unused : faithful → scope = bound → name ∉ free) :
    Carries faithful free scope store after := by
  rcases Nat.lt_or_eq_of_le old with below | rfl
  · exact .of_sameBelow binds.sameBelow rooted below
  · refine ⟨fun label stored found => ?_, fun label seen => ?_⟩
    · rw [binds.function? rooted inside]
      split
      next isName =>
        obtain ⟨made, rfl⟩ := Option.isSome_iff_exists.mp (stores label isName)
        exact ⟨made, rfl, fun asked used => absurd (isName ▸ used) (unused asked rfl)⟩
      · exact ⟨stored, found, fun _ _ => rfl⟩
    · rw [binds.get? rooted inside, seen, Bool.or_true]

end Carries

theorem Sees.carry {store after : Store} {scope : ScopeId} {context : Context} {free : List Name}
    (sees : Sees footing store scope context free)
    (carries : Carries footing.faithful free scope store after) :
    Sees footing after scope context free where
  natives := sees.natives
  functions name signature notNative found := by
    obtain ⟨closure, stored, means⟩ := sees.functions name signature notNative found
    obtain ⟨other, storedNow, same⟩ := carries.functions name closure stored
    refine ⟨other, storedNow, fun asked used => ?_⟩
    rw [same asked used, means asked used]
  values asked name ty found := carries.values name (sees.values asked name ty found)

theorem Sees.mono {store : Store} {scope : ScopeId} {context : Context} {free fewer : List Name}
    (sees : Sees footing store scope context free) (less : fewer ⊆ free) :
    Sees footing store scope context fewer where
  natives := sees.natives
  functions name signature notNative found := by
    obtain ⟨closure, stored, means⟩ := sees.functions name signature notNative found
    exact ⟨closure, stored, fun asked used => means asked (less used)⟩
  values := sees.values

theorem Understood.carry {store after : Store} {home : ScopeId} {function : Function}
    {context : Context} (understood : Understood footing store home function context)
    (carries : Carries footing.faithful (definitionFree function) home store after) :
    Understood footing after home function context :=
  { understood with sees := understood.sees.carry carries }

/-- A later machine on which the functions stored are old ones that still see what they
saw. -/
theorem World.carry {machine after : Machine (Watched Host)} (world : World footing machine)
    (rooted : after.store.Rooted)
    (held : ∀ id < after.store.size, after.store.isHeld id = true)
    (closures : ∀ id name closure, after.store.functionIn? name id = some closure →
      machine.store.functionIn? name id = some closure ∧
        Carries footing.faithful (definitionFree closure.function) id machine.store after.store)
    (visits : after.visits = machine.visits) : World footing after where
  rooted := rooted
  held := held
  closures := by
    intro id name closure found
    obtain ⟨before, carries⟩ := closures id name closure found
    obtain ⟨home, context, understood⟩ := world.closures id name closure before
    exact ⟨home, context, understood.carry carries⟩
  visits := visits ▸ world.visits

/-! ## How a run may change the world -/

/-- The world is kept, the scopes are the same ones, and those before `bound` bind what
they bound. -/
structure Leads (footing : Footing Host) (bound : Nat) (before after : Machine (Watched Host)) :
    Prop where
  world : World footing after
  size : after.store.size = before.store.size
  below : Store.SameBelow bound before.store after.store

namespace Leads

variable {bound : Nat} {first second third : Machine (Watched Host)}

theorem refl (world : World footing first) (bound : Nat) : Leads footing bound first first :=
  ⟨world, rfl, .refl bound first.store⟩

theorem trans (one : Leads footing bound first second) (two : Leads footing bound second third) :
    Leads footing bound first third :=
  ⟨two.world, two.size.trans one.size, one.below.trans two.below⟩

theorem mono {lower : Nat} (leads : Leads footing bound first second) (less : lower ≤ bound) :
    Leads footing lower first second := ⟨leads.world, leads.size, leads.below.mono less⟩

theorem elsewhere (world : World footing first) (bound : Nat)
    (store : second.store = first.store) (visits : second.visits = first.visits) :
    Leads footing bound first second := by
  obtain ⟨stored, host, steps, depth⟩ := first
  obtain ⟨_, otherHost, otherSteps, otherDepth⟩ := second
  cases store
  exact ⟨⟨world.rooted, world.held, world.closures, visits ▸ world.visits⟩, rfl, .refl bound stored⟩

end Leads

namespace World

variable {machine : Machine (Watched Host)}

theorem entered (world : World footing machine) {parent : ScopeId}
    (inside : parent < machine.store.size) (vars : Bindings Value) :
    World footing (machine.entered parent vars) := by
  have same := Store.SameBelow.opened machine.store (some parent) vars
  refine world.carry (Store.rooted_opened world.rooted inside vars)
    (Store.isHeld_opened _ _ _ world.held) ?_ rfl
  intro id name closure found
  have before := Store.functionIn?_of_opened found
  exact ⟨before, .of_sameBelow same world.rooted (Store.functionIn?_lt before)⟩

theorem left (world : World footing machine) {bound : Nat}
    (size : machine.store.size = bound + 1) : World footing machine.left := by
  refine world.carry (Store.rooted_closed world.rooted) (Store.isHeld_closed world.held) ?_ rfl
  intro id name closure found
  have inside := Store.functionIn?_lt found
  rw [Machine.left, Store.size_closed, size, Nat.add_sub_cancel] at inside
  exact ⟨Store.functionIn?_of_closed found,
    .of_sameBelow (Store.SameBelow.closed size) world.rooted inside⟩

theorem noted (world : World footing machine) {visit : Visit} (here : visit.store = machine.store)
    (called : ∀ name arguments, visit.node.form = .call name arguments →
      footing.plain.natives.find? name = none → visit.scope < machine.store.size ∧
        ∃ closure, machine.store.function? visit.scope name = some closure) :
    World footing (machine.visited visit) := by
  refine ⟨world.rooted, world.held, world.closures, ?_⟩
  intro other member
  rcases List.mem_append.mp member with before | new
  · exact world.visits other before
  · obtain rfl := List.mem_singleton.mp new
    refine ⟨?_, ?_⟩
    · rw [here]
      exact fun id name closure found => (world.closures id name closure found).1
    · intro name arguments isCall notNative
      obtain ⟨inside, closure, found⟩ := called name arguments isCall notNative
      obtain ⟨home, member, stored⟩ := Store.exists_of_function? found
      rw [here]
      exact ⟨world.held _ inside, home, member, closure, stored, found,
        (world.closures home name closure stored).1⟩

end World

/-! ## Binding names -/

namespace Leads

variable {machine : Machine (Watched Host)}

theorem assigned (world : World footing machine) (bound : Nat) {owner : ScopeId} {name : String}
    (isBound : (machine.store.variableIn? name owner).isSome = true) (value : Value) :
    Leads footing bound machine { machine with store := machine.store.define owner name value } := by
  obtain ⟨old, found⟩ := Option.isSome_iff_exists.mp isBound
  have binds := Store.binds_define (Store.variableIn?_lt found) name value
  have same (bound : Nat) :
      Store.SameBelow bound machine.store (machine.store.define owner name value) := by
    refine ⟨fun id _ => ?_, fun id _ => binds.parents id, fun id _ other => ?_, fun id _ other => ?_⟩
    · rw [binds.size]
    · exact Store.functionIn?_define ..
    · rw [binds.values]
      by_cases here : id = owner ∧ Name.var name = .var other
      · obtain ⟨rfl, ⟨⟩⟩ := here
        rw [isBound, Bool.or_true]
      · rw [decide_eq_false here, Bool.false_or]
  refine ⟨world.carry (binds.rooted world.rooted) ?_ ?_ rfl, binds.size, same bound⟩
  · intro id inside
    rw [binds.size] at inside
    exact (Store.isHeld_define ..).trans (world.held id inside)
  · intro id label closure stored
    rw [Store.functionIn?_define] at stored
    exact ⟨stored, .of_sameBelow (same _) world.rooted (Nat.lt_succ_self id)⟩

/-- A variable may be declared in the innermost scope if no function there keeps using
its name. -/
theorem declared (world : World footing machine) {scope : ScopeId}
    (top : scope + 1 = machine.store.size) (name : String) (value : Value)
    (unkept : footing.faithful → machine.store.Unkept scope (.var name)) :
    Leads footing scope machine { machine with store := machine.store.define scope name value } := by
  have inside : scope < machine.store.size := top ▸ Nat.lt_succ_self scope
  have binds := Store.binds_define inside name value
  refine ⟨world.carry (binds.rooted world.rooted) ?_ ?_ rfl, binds.size, binds.sameBelow⟩
  · intro id below
    rw [binds.size] at below
    exact (Store.isHeld_define ..).trans (world.held id below)
  · intro id label closure stored
    rw [Store.functionIn?_define] at stored
    refine ⟨stored, .of_binds binds nofun world.rooted inside (Store.functionIn?_le top stored) ?_⟩
    rintro asked rfl
    exact unkept asked label closure stored

theorem defined (world : World footing machine) {scope : ScopeId}
    (top : scope + 1 = machine.store.size) (function : Function)
    (unkept : footing.faithful → machine.store.Unkept scope (.func function.name))
    {context : Context}
    (understood : Understood footing (machine.store.defineFunction scope ⟨function, scope⟩) scope
      function context) :
    Leads footing scope machine
      { machine with store := machine.store.defineFunction scope ⟨function, scope⟩ } := by
  have inside : scope < machine.store.size := top ▸ Nat.lt_succ_self scope
  have binds := Store.binds_defineFunction inside ⟨function, scope⟩
  refine ⟨⟨binds.rooted world.rooted, ?_, ?_, world.visits⟩, binds.size, binds.sameBelow⟩
  · intro id below
    rw [binds.size] at below
    exact (Store.isHeld_defineFunction ..).trans (world.held id below)
  · intro id label closure found
    rcases Store.functionIn?_of_defineFunction found with before | ⟨rfl, -, rfl⟩
    · obtain ⟨home, context, known⟩ := world.closures id label closure before
      have old := Store.functionIn?_le top before
      refine ⟨home, context, known.carry (.of_binds binds (fun _ _ => rfl) world.rooted inside old ?_)⟩
      rintro asked rfl
      exact unkept asked label closure before
    · exact ⟨rfl, context, understood⟩

end Leads

end Binding

end RobotScript
