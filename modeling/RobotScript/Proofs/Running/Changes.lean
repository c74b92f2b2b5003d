import RobotScript.Proofs.Running.World

/-! # What the single changes of a machine do to the world

Writing to the ledger, opening and closing scopes, storing values and functions:
each is shown to keep the world, and to leave alone the scopes that it does not
touch. A declaration is the one change that could take a function its meaning;
that the function does not keep using the name is what rules it out. -/
set_option autoImplicit false

namespace RobotScript

variable {Host : Type} {stage : Stage Host} {machine after : Machine (Traced Host)}

theorem Understood.carry {reach other : Name → Option Entry} {function : Function}
    {context : Context} {outlook : Outlook}
    (understood : Understood stage reach function context outlook)
    (same : ∀ name ∈ definitionFree function, other name = reach name) :
    Understood stage other function context outlook :=
  { understood with
    agrees := fun name free => (same name free).trans (understood.agrees name free) }

/-- A later machine on which the functions stored are old ones, and whatever they
keep using reaches what it did. -/
theorem World.carry (world : World stage machine) (rooted : after.store.Rooted)
    (held : ∀ id < after.store.size, after.store.isHeld id = true)
    (wellFormed : ∀ id name value, after.store.variableIn? name id = some value →
      value.WellFormed)
    (closures : ∀ id name closure, after.store.functionIn? name id = some closure →
      machine.store.functionIn? name id = some closure ∧
        ∀ kept ∈ definitionFree closure.function, after.reach id kept = machine.reach id kept)
    (holds : stage.holds after.host.1)
    (uses : ∀ use ∈ after.ledger.uses, use ∈ stage.links ∧ use.Fits) : World stage after where
  rooted := rooted
  held := held
  wellFormed := wellFormed
  closures := by
    intro id name closure found
    obtain ⟨before, same⟩ := closures id name closure found
    obtain ⟨home, context, outlook, understood⟩ := world.closures id name closure before
    exact ⟨home, context, outlook, understood.carry same⟩
  holds := holds
  uses := uses

theorem Store.functionIn?_lt {store : Store} {name : String} {id : Nat} {closure : Closure}
    (found : store.functionIn? name id = some closure) : id < store.size := by
  rcases Nat.lt_or_ge id store.size with inside | outside
  · exact inside
  · rw [Store.functionIn?, Store.scope?_of_size_le outside] at found
    cases found

theorem Store.variableIn?_lt {store : Store} {name : String} {id : Nat} {value : Value}
    (found : store.variableIn? name id = some value) : id < store.size := by
  rcases Nat.lt_or_ge id store.size with inside | outside
  · exact inside
  · rw [Store.variableIn?, Store.scope?_of_size_le outside] at found
    cases found

/-! ## The host, the counters and the ledger -/

theorem Leads.elsewhere (world : World stage machine) (bound : Nat)
    (store : after.store = machine.store) (ledger : after.ledger = machine.ledger)
    (holds : stage.holds after.host.1) : Leads stage bound machine after := by
  obtain ⟨stored, ⟨host, kept⟩, steps, depth⟩ := machine
  obtain ⟨otherStored, ⟨otherHost, otherKept⟩, otherSteps, otherDepth⟩ := after
  obtain rfl : otherStored = stored := store
  obtain rfl : otherKept = kept := ledger
  refine ⟨⟨world.rooted, world.held, world.wellFormed, world.closures, holds, world.uses⟩, rfl, ?_⟩
  exact ⟨fun _ _ => Iff.rfl, fun _ _ => rfl, fun _ _ _ => rfl, fun _ _ _ => rfl⟩

theorem Leads.noted (world : World stage machine) (bound : Nat) {use : Use}
    (linked : use ∈ stage.links) (fits : use.Fits) :
    Leads stage bound machine (machine.withLedger (machine.ledger.noted use)) := by
  refine ⟨⟨world.rooted, world.held, world.wellFormed, world.closures, world.holds, ?_⟩, rfl, ?_⟩
  · intro other member
    rcases List.mem_append.mp member with before | new
    · exact world.uses other before
    · rw [List.mem_singleton.mp new]
      exact ⟨linked, fits⟩
  · exact ⟨fun _ _ => Iff.rfl, fun _ _ => rfl, fun _ _ _ => rfl, fun _ _ _ => rfl⟩

theorem Below.prepared (machine : Machine (Traced Host)) (names : List Name) (site : Span)
    {bound : Nat} (old : bound ≤ machine.store.size) :
    Below bound machine
      (machine.withLedger (machine.ledger.prepared machine.store.size names site)) := by
  refine ⟨fun _ _ => Iff.rfl, fun _ _ => rfl, fun _ _ _ => rfl, ?_⟩
  intro id below name
  have differs : id ≠ machine.store.size := Nat.ne_of_lt (Nat.lt_of_lt_of_le below old)
  cases name <;>
    simp [Machine.entryIn?, Machine.withLedger, Machine.ledger, Ledger.prepared, differs]

theorem Leads.prepared (world : World stage machine) (names : List Name) (site : Span) :
    Leads stage machine.store.size machine
      (machine.withLedger (machine.ledger.prepared machine.store.size names site)) := by
  have below := Below.prepared machine names site (Nat.le_refl _)
  refine ⟨world.carry world.rooted world.held world.wellFormed ?_ world.holds world.uses, rfl,
    below⟩
  intro id name closure found
  refine ⟨found, ?_⟩
  intro kept free
  rw [below.reach world.rooted (Store.functionIn?_lt found)]

/-! ## Scopes -/

def Machine.opened (machine : Machine (Traced Host)) (parent : ScopeId) (vars : Bindings Value) :
    Machine (Traced Host) := { machine with store := machine.store.opened (some parent) vars }

def Machine.closed (machine : Machine (Traced Host)) : Machine (Traced Host) :=
  { machine with store := machine.store.closed }

theorem Below.opened (machine : Machine (Traced Host)) (parent : ScopeId)
    (vars : Bindings Value) : Below machine.store.size machine (machine.opened parent vars) := by
  have same : ∀ id < machine.store.size,
      (machine.store.opened (some parent) vars).scope? id = machine.store.scope? id := by
    intro id below
    rw [Store.scope?_opened, if_neg (Nat.ne_of_lt below)]
  refine ⟨?_, ?_, ?_, ?_⟩
  · intro id below
    refine ⟨fun _ => ?_, fun _ => below⟩
    exact Nat.lt_of_lt_of_le below
      (by simp [Machine.opened])
  · intro id below
    simp only [Machine.opened, Store.parent?, same id below]
  · intro id below name
    simp only [Machine.opened, Store.functionIn?, same id below]
  · intro id below name
    cases name <;>
      simp only [Machine.opened, Machine.entryIn?, Machine.ledger, Store.variableIn?,
        Store.functionIn?, same id below]

theorem World.opened (world : World stage machine) {parent : ScopeId}
    (inside : parent < machine.store.size) {vars : Bindings Value}
    (values : ∀ name value, vars.find? name = some value → value.WellFormed) :
    World stage (machine.opened parent vars) := by
  have below := Below.opened machine parent vars
  have scopes := Store.scope?_opened machine.store (some parent) vars
  refine world.carry ?_ ?_ ?_ ?_ world.holds world.uses
  · intro id outer isParent
    simp only [Machine.opened, Store.parent?, scopes] at isParent
    split at isParent
    · rename_i here
      cases isParent
      rw [here]
      exact inside
    · exact world.rooted id outer isParent
  · intro id here
    simp only [Machine.opened, Store.isHeld, scopes]
    by_cases new : id = machine.store.size
    · rw [if_pos new]
    · rw [if_neg new]
      have old : id < machine.store.size := by
        simp only [Machine.opened, Store.size_opened] at here
        exact Nat.lt_of_le_of_ne (Nat.le_of_lt_succ here) new
      exact world.held id old
  · intro id name value found
    simp only [Machine.opened, Store.variableIn?, scopes] at found
    split at found
    · exact values name value found
    · exact world.wellFormed id name value found
  · intro id name closure found
    simp only [Machine.opened, Store.functionIn?, scopes] at found
    split at found
    · cases found
    · refine ⟨found, ?_⟩
      intro kept free
      rw [below.reach world.rooted (Store.functionIn?_lt found)]

theorem Below.closed {machine : Machine (Traced Host)} {bound : Nat}
    (size : machine.store.size = bound + 1) : Below bound machine machine.closed := by
  have same : ∀ id < bound, machine.store.closed.scope? id = machine.store.scope? id := by
    intro id below
    exact Store.scope?_closed (by rw [size]; exact Nat.succ_lt_succ below)
  refine ⟨?_, ?_, ?_, ?_⟩
  · intro id below
    simp only [Machine.closed, Store.size_closed, size]
    exact ⟨fun _ => below, fun _ => Nat.lt_succ_of_lt below⟩
  · intro id below
    simp only [Machine.closed, Store.parent?, same id below]
  · intro id below name
    simp only [Machine.closed, Store.functionIn?, same id below]
  · intro id below name
    cases name <;>
      simp only [Machine.closed, Machine.entryIn?, Machine.ledger, Store.variableIn?,
        Store.functionIn?, same id below]

theorem World.closed (world : World stage machine) {bound : Nat}
    (size : machine.store.size = bound + 1) : World stage machine.closed := by
  have below := Below.closed size
  have inside : ∀ id < machine.closed.store.size, id < bound := by
    intro id here
    simpa only [Machine.closed, Store.size_closed, size, Nat.add_sub_cancel] using here
  have same : ∀ id < bound, machine.closed.store.scope? id = machine.store.scope? id := by
    intro id below
    exact Store.scope?_closed (by rw [size]; exact Nat.succ_lt_succ below)
  refine world.carry ?_ ?_ ?_ ?_ world.holds world.uses
  · intro id outer isParent
    rcases Nat.lt_or_ge id machine.closed.store.size with here | outside
    · rw [below.parents id (inside id here)] at isParent
      exact world.rooted id outer isParent
    · rw [Store.parent?, Store.scope?_of_size_le outside] at isParent
      cases isParent
  · intro id here
    rw [Store.isHeld, same id (inside id here)]
    exact world.held id (by rw [size]; exact Nat.lt_succ_of_lt (inside id here))
  · intro id name value found
    have here := inside id (Store.variableIn?_lt found)
    rw [Store.variableIn?, same id here] at found
    exact world.wellFormed id name value found
  · intro id name closure found
    have here := inside id (Store.functionIn?_lt found)
    rw [below.functions id here] at found
    refine ⟨found, ?_⟩
    intro kept free
    rw [below.reach world.rooted here]

/-! ## Variables and functions -/

def Machine.assigned (machine : Machine (Traced Host)) (owner : ScopeId) (name : String)
    (value : Value) : Machine (Traced Host) :=
  { machine with store := machine.store.define owner name value }

theorem Leads.assigned (world : World stage machine) (bound : Nat) {owner : ScopeId}
    {name : String} {old value : Value}
    (found : machine.store.variableIn? name owner = some old) (sameTy : value.ty = old.ty)
    (wellFormed : value.WellFormed) :
    Leads stage bound machine (machine.assigned owner name value) := by
  have inside := Store.variableIn?_lt found
  have reads := Store.variableIn?_define inside name value
  -- An entry shows the type of a value and not the value, so nothing changes in it.
  have entries : ∀ id other, (machine.assigned owner name value).entryIn? other id =
      machine.entryIn? other id := by
    intro id other
    cases other with
    | func label =>
      simp only [Machine.assigned, Machine.entryIn?, Machine.ledger, Store.functionIn?_define]
    | var label =>
      simp only [Machine.assigned, Machine.entryIn?, Machine.ledger, reads]
      by_cases here : owner = id ∧ name = label
      · obtain ⟨rfl, rfl⟩ := here
        rw [if_pos ⟨rfl, rfl⟩, found, Option.map_some, Option.map_some, sameTy]
      · rw [if_neg here]
  have below : ∀ bound, Below bound machine (machine.assigned owner name value) := by
    intro bound
    refine ⟨?_, ?_, ?_, ?_⟩
    · intro id _
      simp only [Machine.assigned, Store.size_define]
    · intro id _
      simp only [Machine.assigned, Store.parent?_define]
    · intro id _ label
      simp only [Machine.assigned, Store.functionIn?_define]
    · intro id _ label
      exact entries id label
  refine ⟨world.carry ?_ ?_ ?_ ?_ world.holds world.uses, ?_, below bound⟩
  · intro id outer isParent
    simp only [Machine.assigned, Store.parent?_define] at isParent
    exact world.rooted id outer isParent
  · intro id here
    simp only [Machine.assigned, Store.size_define] at here
    simp only [Machine.assigned, Store.isHeld_define]
    exact world.held id here
  · intro id label stored isStored
    simp only [Machine.assigned, reads] at isStored
    split at isStored
    · cases isStored
      exact wellFormed
    · exact world.wellFormed id label stored isStored
  · intro id label closure isStored
    simp only [Machine.assigned, Store.functionIn?_define] at isStored
    refine ⟨isStored, ?_⟩
    intro kept free
    rw [(below _).reach world.rooted (Store.functionIn?_lt isStored)]
  · simp only [Machine.assigned, Store.size_define]

def Machine.declared (machine : Machine (Traced Host)) (scope : ScopeId) (name : String)
    (value : Value) (site : Span) : Machine (Traced Host) :=
  { machine with
    store := machine.store.define scope name value
    host := (machine.host.1, machine.ledger.placed scope (.var name) site) }

def Machine.defined (machine : Machine (Traced Host)) (scope : ScopeId) (function : Function)
    (site : Span) : Machine (Traced Host) :=
  { machine with
    store := machine.store.defineFunction scope ⟨function, scope⟩
    host := (machine.host.1, machine.ledger.placed scope (.func function.name) site) }

theorem Machine.entryIn?_declared (machine : Machine (Traced Host)) {scope : Nat} (inside : scope < machine.store.size)
    (name : String) (value : Value) (site : Span) (other : Name) (id : Nat) :
    (machine.declared scope name value site).entryIn? other id =
      if id = scope ∧ other = .var name then some ⟨.var value.ty, some site⟩
      else machine.entryIn? other id := by
  cases other with
  | func label =>
    simp [Machine.declared, Machine.entryIn?, Machine.ledger, Ledger.placed]
  | var label =>
    simp only [Machine.declared, Machine.entryIn?, Machine.ledger, Ledger.placed,
      Store.variableIn?_define inside]
    by_cases here : id = scope ∧ label = name
    · obtain ⟨rfl, rfl⟩ := here
      simp
    · have differs : ¬ (scope = id ∧ name = label) := fun both => here ⟨both.1.symm, both.2.symm⟩
      have otherName : ¬ (id = scope ∧ Name.var label = .var name) := by
        rintro ⟨isScope, isName⟩
        exact here ⟨isScope, Name.var.inj isName⟩
      rw [if_neg differs, if_neg otherName, if_neg otherName]

theorem Machine.entryIn?_defined (machine : Machine (Traced Host)) {scope : Nat} (inside : scope < machine.store.size)
    (function : Function) (site : Span) (other : Name) (id : Nat) :
    (machine.defined scope function site).entryIn? other id =
      if id = scope ∧ other = .func function.name then
        some ⟨.func function.signature, some site⟩
      else machine.entryIn? other id := by
  cases other with
  | var label =>
    simp [Machine.defined, Machine.entryIn?, Machine.ledger, Ledger.placed]
  | func label =>
    simp only [Machine.defined, Machine.entryIn?, Machine.ledger, Ledger.placed,
      Store.functionIn?_defineFunction inside]
    by_cases here : id = scope ∧ label = function.name
    · obtain ⟨rfl, rfl⟩ := here
      simp
    · have differs : ¬ (scope = id ∧ function.name = label) :=
        fun both => here ⟨both.1.symm, both.2.symm⟩
      have otherName : ¬ (id = scope ∧ Name.func label = .func function.name) := by
        rintro ⟨isScope, isName⟩
        exact here ⟨isScope, Name.func.inj isName⟩
      rw [if_neg differs, if_neg otherName, if_neg otherName]

/-- A change of one scope, which binds one name there anew. -/
structure Updates (machine after : Machine (Traced Host)) (scope : Nat) (own : Name)
    (entry : Entry) : Prop where
  size : after.store.size = machine.store.size
  parents : ∀ id, after.store.parent? id = machine.store.parent? id
  functions : ∀ id < scope, ∀ name,
    after.store.functionIn? name id = machine.store.functionIn? name id
  entries : ∀ name id, after.entryIn? name id =
    if id = scope ∧ name = own then some entry else machine.entryIn? name id

namespace Updates

variable {scope : Nat} {own : Name} {entry : Entry}

theorem rooted (updates : Updates machine after scope own entry)
    (rooted : machine.store.Rooted) : after.store.Rooted := by
  intro id outer isParent
  rw [updates.parents] at isParent
  exact rooted id outer isParent

theorem below (updates : Updates machine after scope own entry) : Below scope machine after where
  sizes id _ := by rw [updates.size]
  parents id _ := updates.parents id
  functions := updates.functions
  entries id before name := by
    rw [updates.entries, if_neg fun here => Nat.ne_of_lt before here.1]

theorem reach (updates : Updates machine after scope own entry)
    (rooted : machine.store.Rooted) (inside : scope < machine.store.size) (name : Name) :
    after.reach scope name = if name = own then some entry else machine.reach scope name := by
  rw [Machine.reach_eq (updates.rooted rooted) (updates.size ▸ inside),
    Machine.reach_eq rooted inside, updates.entries, updates.parents]
  by_cases isOwn : name = own
  · rw [if_pos ⟨rfl, isOwn⟩, if_pos isOwn, Option.some_or]
  · rw [if_neg fun here => isOwn here.2, if_neg isOwn]
    cases isParent : machine.store.parent? scope with
    | none => rfl
    | some outer =>
      rw [Option.bind_some, Option.bind_some,
        updates.below.reach rooted (rooted scope outer isParent)]

theorem keeps (updates : Updates machine after scope own entry)
    (rooted : machine.store.Rooted) (inside : scope < machine.store.size) {id : Nat}
    (old : id ≤ scope) {name : Name} (differs : id = scope → name ≠ own) :
    after.reach id name = machine.reach id name := by
  rcases Nat.lt_or_eq_of_le old with before | rfl
  · rw [updates.below.reach rooted before]
  · rw [updates.reach rooted inside, if_neg (differs rfl)]

end Updates

/-- No function that a scope holds keeps using a name. -/
def Unkept (machine : Machine (Traced Host)) (scope : ScopeId) (name : Name) : Prop :=
  ∀ label closure, machine.store.functionIn? label scope = some closure →
    name ∉ definitionFree closure.function

theorem Updates.declared (machine : Machine (Traced Host)) {scope : Nat}
    (inside : scope < machine.store.size) (name : String) (value : Value) (site : Span) :
    Updates machine (machine.declared scope name value site) scope (.var name)
      ⟨.var value.ty, some site⟩ where
  size := Store.size_define _ _ _ _
  parents := Store.parent?_define _ _ _ _
  functions id _ label := Store.functionIn?_define _ _ _ _ label id
  entries := Machine.entryIn?_declared machine inside name value site

theorem Updates.defined (machine : Machine (Traced Host)) {scope : Nat}
    (inside : scope < machine.store.size) (function : Function) (site : Span) :
    Updates machine (machine.defined scope function site) scope (.func function.name)
      ⟨.func function.signature, some site⟩ where
  size := Store.size_defineFunction _ _ _
  parents := Store.parent?_defineFunction _ _ _
  functions id before label := by
    refine (Store.functionIn?_defineFunction inside ⟨function, scope⟩ label id).trans ?_
    exact if_neg fun here => Nat.ne_of_gt before here.1
  entries := Machine.entryIn?_defined machine inside function site

theorem Store.functionIn?_le {store : Store} {scope : Nat} (top : scope + 1 = store.size)
    {name : String} {id : Nat} {closure : Closure}
    (found : store.functionIn? name id = some closure) : id ≤ scope := by
  have inside := Store.functionIn?_lt found
  omega

/-- A variable may be declared in the innermost scope if no function there keeps
using its name. -/
theorem Leads.declared (world : World stage machine) {scope : Nat}
    (top : scope + 1 = machine.store.size) (name : String) {value : Value}
    (wellFormed : value.WellFormed) (site : Span) (unkept : Unkept machine scope (.var name)) :
    Leads stage scope machine (machine.declared scope name value site) := by
  have inside : scope < machine.store.size := by omega
  have updates := Updates.declared machine inside name value site
  refine ⟨world.carry (updates.rooted world.rooted) ?_ ?_ ?_ world.holds world.uses,
    updates.size, updates.below⟩
  · intro id here
    rw [updates.size] at here
    exact (Store.isHeld_define _ _ _ _ id).trans (world.held id here)
  · intro id label stored found
    have here := (Store.variableIn?_define inside name value label id).symm.trans found
    split at here
    · cases here
      exact wellFormed
    · exact world.wellFormed id label stored here
  · intro id label closure found
    have here := (Store.functionIn?_define machine.store scope name value label id).symm.trans found
    have old := Store.functionIn?_le top here
    refine ⟨here, ?_⟩
    intro kept free
    refine updates.keeps world.rooted inside old ?_
    rintro rfl rfl
    exact unkept label closure here free

theorem Leads.defined (world : World stage machine) {scope : Nat}
    (top : scope + 1 = machine.store.size) (function : Function) (site : Span)
    (unkept : Unkept machine scope (.func function.name)) {context : Context} {outlook : Outlook}
    (understood : Understood stage ((machine.defined scope function site).reach scope) function
      context outlook) :
    Leads stage scope machine (machine.defined scope function site) := by
  have inside : scope < machine.store.size := by omega
  have updates := Updates.defined machine inside function site
  refine ⟨⟨updates.rooted world.rooted, ?_, ?_, ?_, world.holds, world.uses⟩, updates.size,
    updates.below⟩
  · intro id here
    rw [updates.size] at here
    exact (Store.isHeld_defineFunction _ _ _ id).trans (world.held id here)
  · intro id label stored found
    exact world.wellFormed id label stored
      ((Store.variableIn?_defineFunction _ _ _ label id).symm.trans found)
  · intro id label closure found
    have here :=
      (Store.functionIn?_defineFunction inside ⟨function, scope⟩ label id).symm.trans found
    by_cases new : scope = id ∧ function.name = label
    · rw [if_pos new] at here
      cases here
      obtain ⟨rfl, -⟩ := new
      exact ⟨rfl, context, outlook, understood⟩
    · rw [if_neg new] at here
      obtain ⟨home, context, outlook, before⟩ := world.closures id label closure here
      have old := Store.functionIn?_le top here
      refine ⟨home, context, outlook, before.carry ?_⟩
      intro kept free
      refine updates.keeps world.rooted inside old ?_
      rintro rfl rfl
      exact unkept label closure here free

end RobotScript
