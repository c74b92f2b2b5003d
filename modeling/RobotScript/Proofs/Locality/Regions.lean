import RobotScript.Proofs.Binding.Lookups

/-! # The scopes that a run deals with

A run in a scope deals with the scopes around it and with those that it opens itself.
`Since` is what holds of a store at every point of such a run: all other scopes are as
they were, and nothing near leads away from what is near, neither a chain nor the home
of a function. Every change that a run makes near its scope keeps this. -/
set_option autoImplicit false

namespace RobotScript

namespace Store

variable {store first : Store} {scope : ScopeId}

/-! ## Chains within chains -/

theorem mem_chain_self {id : ScopeId} (inside : id < store.size) : id ∈ store.chain id := by
  obtain ⟨found, isScope⟩ := scope?_of_lt inside
  rw [chain, isScope]
  dsimp only
  split
  · exact List.mem_singleton_self id
  · split
    · exact List.mem_cons_self
    · exact List.mem_singleton_self id

theorem lt_size_of_mem_chain {id other : ScopeId} (member : other ∈ store.chain id) :
    other < store.size := by
  induction id using Nat.strongRecOn with
  | ind id ih =>
    have inside : id < store.size := by
      refine Nat.lt_of_not_le fun outside => ?_
      rw [chain_of_size_le outside] at member
      cases member
    rcases chain_cases store id with same | same | ⟨parent, older, -, same⟩ <;>
      rw [same] at member
    · cases member
    · exact List.mem_singleton.mp member ▸ inside
    · rcases List.mem_cons.mp member with rfl | behind
      · exact inside
      · exact ih parent older behind

theorem chain_subset {inner outer other : ScopeId} (around : outer ∈ store.chain inner)
    (further : other ∈ store.chain outer) : other ∈ store.chain inner := by
  induction inner using Nat.strongRecOn with
  | ind inner ih =>
    rcases chain_cases store inner with same | same | ⟨parent, older, -, same⟩ <;>
      rw [same] at around
    · cases around
    · exact List.mem_singleton.mp around ▸ further
    · rcases List.mem_cons.mp around with rfl | behind
      · exact further
      · exact same ▸ List.mem_cons_of_mem inner (ih parent older behind)

theorem lt_size_of_isHeld {id : ScopeId} (held : store.isHeld id = true) : id < store.size := by
  refine Nat.lt_of_not_le fun outside => ?_
  rw [isHeld, scope?_of_size_le outside] at held
  cases held

/-- A scope is alive as long as some scope that is held lies in it. -/
theorem isAlive_iff {id : ScopeId} :
    store.isAlive id = true ↔ ∃ holder, store.isHeld holder = true ∧ id ∈ store.chain holder := by
  rw [isAlive, Bool.or_eq_true, List.any_eq_true]
  constructor
  · rintro (held | ⟨holder, -, both⟩)
    · exact ⟨id, held, mem_chain_self (lt_size_of_isHeld held)⟩
    · obtain ⟨held, around⟩ := Bool.and_eq_true_iff.mp both
      exact ⟨holder, held, List.contains_iff_mem.mp around⟩
  · rintro ⟨holder, held, around⟩
    refine .inr ⟨holder, List.mem_range.mpr (lt_size_of_isHeld held), ?_⟩
    exact Bool.and_eq_true_iff.mpr ⟨held, List.contains_iff_mem.mpr around⟩

theorem isAlive_of_mem_chain {id other : ScopeId} (alive : store.isAlive id = true)
    (around : other ∈ store.chain id) : store.isAlive other = true := by
  obtain ⟨holder, held, member⟩ := isAlive_iff.mp alive
  exact isAlive_iff.mpr ⟨holder, held, chain_subset member around⟩

/-! ## Homes -/

/-- Every function is stored in the scope that is its home. -/
def Homed (store : Store) : Prop :=
  ∀ name id closure, store.functionIn? name id = some closure → closure.home = id

/-- The home of a function lies around every scope from which it is found. -/
theorem Homed.home_mem_chain (homed : Homed store) {name : String} {closure : Closure}
    (found : store.function? scope name = some closure) :
    closure.home ∈ store.chain scope := by
  obtain ⟨home, around, stored⟩ := exists_of_function? found
  exact (homed name home closure stored).symm ▸ around

/-! ## What a run in a scope has made of a store -/

/-- The scopes around a scope, and all that are opened later. -/
def Nearby (first : Store) (scope id : ScopeId) : Prop :=
  id ∈ first.chain scope ∨ first.size ≤ id

structure Since (first : Store) (scope : ScopeId) (store : Store) : Prop where
  size : first.size ≤ store.size
  parents : ∀ id < first.size, store.parent? id = first.parent? id
  held : ∀ id < first.size, store.isHeld id = first.isHeld id
  beyond : ∀ id, ¬ first.Nearby scope id → store.scope? id = first.scope? id
  opens : ∀ id, first.size ≤ id → id < store.size → store.isHeld id = true
  inward : ∀ id outer, first.size ≤ id → store.parent? id = some outer →
    first.Nearby scope outer
  homes : ∀ name id closure, first.Nearby scope id → store.functionIn? name id = some closure →
    closure.home = id

theorem Since.start (homes : ∀ name, ∀ id ∈ store.chain scope, ∀ closure,
    store.functionIn? name id = some closure → closure.home = id) : Since store scope store where
  size := Nat.le_refl _
  parents _ _ := rfl
  held _ _ := rfl
  beyond _ _ := rfl
  opens id outside inside := absurd inside (Nat.not_lt.mpr outside)
  inward id outer outside isParent := by
    rw [parent?, scope?_of_size_le outside] at isParent
    cases isParent
  homes name id closure near stored := by
    rcases near with around | outside
    · exact homes name id around closure stored
    · rw [functionIn?, scope?_of_size_le outside] at stored
      cases stored

namespace Since

variable (since : Since first scope store)

include since

/-! ### Where lookups lead -/

theorem chain {id : ScopeId} (inside : id < first.size) : store.chain id = first.chain id := by
  refine chain_congr (fun other below => ?_) since.parents inside
  exact ⟨fun within => Nat.lt_of_lt_of_le within since.size, fun _ => below⟩

theorem nearby_of_mem_chain {id other : ScopeId} (near : first.Nearby scope id)
    (member : other ∈ store.chain id) : first.Nearby scope other := by
  induction id using Nat.strongRecOn with
  | ind id ih =>
    rcases near with around | later
    · rw [since.chain (lt_size_of_mem_chain around)] at member
      exact .inl (chain_subset around member)
    · rcases chain_cases store id with same | same | ⟨parent, older, isParent, same⟩ <;>
        rw [same] at member
      · cases member
      · exact .inr (List.mem_singleton.mp member ▸ later)
      · rcases List.mem_cons.mp member with rfl | behind
        · exact .inr later
        · exact ih parent older (since.inward id parent later isParent) behind

theorem home {id : ScopeId} (near : first.Nearby scope id) {name : String} {closure : Closure}
    (found : store.function? id name = some closure) :
    first.Nearby scope closure.home ∧ closure.home ∈ store.chain id := by
  obtain ⟨home, around, stored⟩ := exists_of_function? found
  have isNear := since.nearby_of_mem_chain near around
  obtain rfl := since.homes name home closure isNear stored
  exact ⟨isNear, around⟩

theorem isAlive (alive : first.isAlive scope = true) {id other : ScopeId}
    (near : first.Nearby scope id) (around : other ∈ store.chain id) :
    store.isAlive other = true := by
  refine isAlive_of_mem_chain ?_ around
  rcases near with within | later
  · obtain ⟨holder, held, member⟩ := isAlive_iff.mp (isAlive_of_mem_chain alive within)
    have inside := lt_size_of_isHeld held
    exact isAlive_iff.mpr ⟨holder, (since.held holder inside).trans held,
      (since.chain inside).symm ▸ member⟩
  · have inside : id < store.size := by
      refine Nat.lt_of_not_le fun outside => ?_
      rw [chain_of_size_le outside] at around
      cases around
    rw [Store.isAlive, since.opens id later inside, Bool.true_or]

/-! ### What a run changes -/

theorem changed {after : Store} {id : ScopeId} (near : first.Nearby scope id)
    (size : after.size = store.size) (parents : ∀ other, after.parent? other = store.parent? other)
    (held : ∀ other, after.isHeld other = store.isHeld other)
    (others : ∀ other, other ≠ id → after.scope? other = store.scope? other)
    (homes : ∀ name other closure, after.functionIn? name other = some closure →
      store.functionIn? name other = some closure ∨ closure.home = other) :
    Since first scope after where
  size := size ▸ since.size
  parents other inside := (parents other).trans (since.parents other inside)
  held other inside := (held other).trans (since.held other inside)
  beyond other far := (others other fun here => far (here ▸ near)).trans (since.beyond other far)
  opens other later inside := (held other).trans (since.opens other later (size ▸ inside))
  inward other outer later isParent := since.inward other outer later (parents other ▸ isParent)
  homes name other closure isNear stored :=
    (homes name other closure stored).elim (since.homes name other closure isNear) fun home => home

theorem define {id : ScopeId} (near : first.Nearby scope id) (name : String) (value : Value) :
    Since first scope (store.define id name value) := by
  refine since.changed near (size_define ..) (parent?_define store id name value)
    (isHeld_define store id name value) (fun other away => ?_) fun function other closure stored => ?_
  · rw [scope?_define, if_neg away.symm]
  · rw [functionIn?_define] at stored
    exact .inl stored

theorem defineFunction {id : ScopeId} (near : first.Nearby scope id) (function : Function) :
    Since first scope (store.defineFunction id ⟨function, id⟩) := by
  refine since.changed near (size_defineFunction ..) (parent?_defineFunction store id _)
    (isHeld_defineFunction store id _) (fun other away => ?_) fun name other closure stored => ?_
  · rw [scope?_defineFunction, if_neg away.symm]
  · rcases functionIn?_of_defineFunction stored with before | ⟨rfl, -, rfl⟩
    · exact .inl before
    · exact .inr rfl

theorem kept {after : Store}
    (same : ∀ id < first.size, after.scope? id = store.scope? id) :
    (∀ id < first.size, after.parent? id = first.parent? id) ∧
      (∀ id < first.size, after.isHeld id = first.isHeld id) ∧
      ∀ id, ¬ first.Nearby scope id → after.scope? id = first.scope? id := by
  refine ⟨fun id inside => ?_, fun id inside => ?_, fun id beyond => ?_⟩
  · rw [parent?, same id inside]
    exact since.parents id inside
  · rw [Store.isHeld, same id inside]
    exact since.held id inside
  · have inside : id < first.size := Nat.lt_of_not_le fun later => beyond (.inr later)
    exact (same id inside).trans (since.beyond id beyond)

theorem opened {parent : ScopeId} (near : first.Nearby scope parent) (vars : Bindings Value) :
    Since first scope (store.opened (some parent) vars) := by
  obtain ⟨parents, held, beyond⟩ := since.kept fun id inside =>
    scope?_opened_below store (some parent) vars (Nat.lt_of_lt_of_le inside since.size)
  refine ⟨?_, parents, held, beyond, fun id later inside => ?_, fun id outer later isParent => ?_,
    fun name id closure isNear stored => ?_⟩
  · rw [size_opened]
    exact Nat.le_succ_of_le since.size
  · by_cases new : id = store.size
    · rw [Store.isHeld, scope?_opened, if_pos new]
    · rw [size_opened] at inside
      rw [Store.isHeld, scope?_opened, if_neg new]
      exact since.opens id later (Nat.lt_of_le_of_ne (Nat.le_of_lt_succ inside) new)
  · rw [parent?, scope?_opened] at isParent
    split at isParent
    · cases isParent
      exact near
    · exact since.inward id outer later isParent
  · exact since.homes name id closure isNear (functionIn?_of_opened stored)

theorem closed (more : first.size < store.size) : Since first scope store.closed := by
  obtain ⟨parents, held, beyond⟩ := since.kept fun id inside =>
    scope?_closed (Nat.lt_of_le_of_lt (Nat.succ_le_of_lt inside) more)
  refine ⟨?_, parents, held, beyond, fun id later inside => ?_, fun id outer later isParent => ?_,
    fun name id closure isNear stored => ?_⟩
  · rw [size_closed]
    exact Nat.le_sub_one_of_lt more
  · rw [size_closed] at inside
    rw [Store.isHeld, scope?_closed (Nat.add_lt_of_lt_sub inside)]
    exact since.opens id later (Nat.lt_of_lt_of_le inside (Nat.sub_le _ _))
  · obtain ⟨found, isScope, isOuter⟩ := Option.bind_eq_some_iff.mp isParent
    exact since.inward id outer later
      (Option.bind_eq_some_iff.mpr ⟨found, scope?_of_closed isScope, isOuter⟩)
  · exact since.homes name id closure isNear (functionIn?_of_closed stored)

end Since

end Store

end RobotScript
