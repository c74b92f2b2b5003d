import RobotScript.Scope

/-! # Scopes and their chains

What each change of a store does to a single scope, and how a lookup along a
chain goes on from a scope to the one around it. A store is rooted if each scope
lies in an older one; then a chain only leads to older scopes. -/
set_option autoImplicit false

namespace RobotScript

namespace Store

variable {store : Store}

def parent? (store : Store) (id : ScopeId) : Option ScopeId :=
  (store.scope? id).bind (·.parent)

def Rooted (store : Store) : Prop := ∀ id parent, store.parent? id = some parent → parent < id

theorem scope?_isSome {id : ScopeId} : (store.scope? id).isSome = true ↔ id < store.size := by
  simp [scope?, size]

theorem scope?_of_lt {id : ScopeId} (inside : id < store.size) :
    ∃ scope, store.scope? id = some scope := Option.isSome_iff_exists.mp (scope?_isSome.mpr inside)

theorem scope?_of_size_le {id : ScopeId} (outside : store.size ≤ id) : store.scope? id = none := by
  simpa [scope?, size] using outside

/-! ## Changes -/

@[simp] theorem size_opened (store : Store) (parent : Option ScopeId) (vars : Bindings Value) :
    (store.opened parent vars).size = store.size + 1 := Array.size_push _

@[simp] theorem size_closed (store : Store) : store.closed.size = store.size - 1 := Array.size_pop

@[simp] theorem size_define (store : Store) (id : ScopeId) (name : String) (value : Value) :
    (store.define id name value).size = store.size := Array.size_modify

@[simp] theorem size_defineFunction (store : Store) (id : ScopeId) (closure : Closure) :
    (store.defineFunction id closure).size = store.size := Array.size_modify

theorem scope?_opened (store : Store) (parent : Option ScopeId) (vars : Bindings Value)
    (id : ScopeId) :
    (store.opened parent vars).scope? id =
      if id = store.size then some ⟨vars, .empty, parent, true⟩ else store.scope? id :=
  Array.getElem?_push

theorem scope?_closed_eq (store : Store) (id : ScopeId) :
    store.closed.scope? id = if id < store.size - 1 then store.scope? id else none :=
  Array.getElem?_pop

theorem scope?_closed {id : ScopeId} (inside : id + 1 < store.size) :
    store.closed.scope? id = store.scope? id :=
  (scope?_closed_eq store id).trans (if_pos (Nat.lt_sub_of_add_lt inside))

theorem scope?_define (store : Store) (id : ScopeId) (name : String) (value : Value)
    (other : ScopeId) :
    (store.define id name value).scope? other =
      if id = other then
        (store.scope? other).map fun scope => { scope with vars := scope.vars.insert name value }
      else store.scope? other := Array.getElem?_modify

theorem scope?_defineFunction (store : Store) (id : ScopeId) (closure : Closure)
    (other : ScopeId) :
    (store.defineFunction id closure).scope? other =
      if id = other then
        (store.scope? other).map fun scope =>
          { scope with functions := scope.functions.insert closure.function.name closure }
      else store.scope? other := Array.getElem?_modify

@[simp] theorem parent?_define (store : Store) (id : ScopeId) (name : String) (value : Value)
    (other : ScopeId) : (store.define id name value).parent? other = store.parent? other := by
  rw [parent?, parent?, scope?_define]
  split
  · cases store.scope? other <;> rfl
  · rfl

@[simp] theorem parent?_defineFunction (store : Store) (id : ScopeId) (closure : Closure)
    (other : ScopeId) :
    (store.defineFunction id closure).parent? other = store.parent? other := by
  rw [parent?, parent?, scope?_defineFunction]
  split
  · cases store.scope? other <;> rfl
  · rfl

@[simp] theorem functionIn?_define (store : Store) (id : ScopeId) (name : String) (value : Value)
    (function : String) (other : ScopeId) :
    (store.define id name value).functionIn? function other =
      store.functionIn? function other := by
  rw [functionIn?, functionIn?, scope?_define]
  split
  · cases store.scope? other <;> rfl
  · rfl

@[simp] theorem variableIn?_defineFunction (store : Store) (id : ScopeId) (closure : Closure)
    (name : String) (other : ScopeId) :
    (store.defineFunction id closure).variableIn? name other = store.variableIn? name other := by
  rw [variableIn?, variableIn?, scope?_defineFunction]
  split
  · cases store.scope? other <;> rfl
  · rfl

theorem variableIn?_define {id : ScopeId} (inside : id < store.size) (name : String)
    (value : Value) (other : String) (at_ : ScopeId) :
    (store.define id name value).variableIn? other at_ =
      if id = at_ ∧ name = other then some value else store.variableIn? other at_ := by
  rw [variableIn?, variableIn?, scope?_define]
  by_cases here : id = at_
  · subst here
    obtain ⟨scope, found⟩ := scope?_of_lt inside
    simp [found, Bindings.find?_insert]
  · rw [if_neg here, if_neg fun both => here both.1]

theorem functionIn?_defineFunction {id : ScopeId} (inside : id < store.size) (closure : Closure)
    (other : String) (at_ : ScopeId) :
    (store.defineFunction id closure).functionIn? other at_ =
      if id = at_ ∧ closure.function.name = other then some closure
      else store.functionIn? other at_ := by
  rw [functionIn?, functionIn?, scope?_defineFunction]
  by_cases here : id = at_
  · subst here
    obtain ⟨scope, found⟩ := scope?_of_lt inside
    simp [found, Bindings.find?_insert]
  · rw [if_neg here, if_neg fun both => here both.1]

theorem isHeld_define (store : Store) (id : ScopeId) (name : String) (value : Value)
    (other : ScopeId) : (store.define id name value).isHeld other = store.isHeld other := by
  rw [isHeld, isHeld, scope?_define]
  by_cases here : id = other
  · rw [if_pos here]
    cases store.scope? other <;> rfl
  · rw [if_neg here]

theorem isHeld_defineFunction (store : Store) (id : ScopeId) (closure : Closure)
    (other : ScopeId) : (store.defineFunction id closure).isHeld other = store.isHeld other := by
  rw [isHeld, isHeld, scope?_defineFunction]
  by_cases here : id = other
  · rw [if_pos here]
    cases store.scope? other <;> rfl
  · rw [if_neg here]

theorem parent?_opened (store : Store) (parent : ScopeId) (vars : Bindings Value) :
    (store.opened (some parent) vars).parent? store.size = some parent := by
  rw [parent?, scope?_opened, if_pos rfl]
  rfl

theorem functionIn?_opened (store : Store) (parent : Option ScopeId) (vars : Bindings Value)
    (name : String) : (store.opened parent vars).functionIn? name store.size = none := by
  rw [functionIn?, scope?_opened, if_pos rfl]
  rfl

theorem variableIn?_opened (store : Store) (parent : Option ScopeId) (vars : Bindings Value)
    (name : String) :
    (store.opened parent vars).variableIn? name store.size = vars.find? name := by
  rw [variableIn?, scope?_opened, if_pos rfl]
  rfl

/-! ## Stored functions -/

def Stores (good : Closure → Prop) (store : Store) : Prop :=
  ∀ name id closure, store.functionIn? name id = some closure → good closure

theorem scope?_of_closed {id : ScopeId} {scope : Scope} (found : store.closed.scope? id = some scope) :
    store.scope? id = some scope := by
  change store.scopes.pop[id]? = some scope at found
  rw [Array.getElem?_pop] at found
  split at found
  · exact found
  · cases found

theorem functionIn?_of_closed {name : String} {id : ScopeId} {closure : Closure}
    (found : store.closed.functionIn? name id = some closure) :
    store.functionIn? name id = some closure := by
  obtain ⟨scope, isScope, bound⟩ := Option.bind_eq_some_iff.mp found
  exact Option.bind_eq_some_iff.mpr ⟨scope, scope?_of_closed isScope, bound⟩

theorem functionIn?_of_opened {parent : Option ScopeId} {vars : Bindings Value} {name : String}
    {id : ScopeId} {closure : Closure}
    (found : (store.opened parent vars).functionIn? name id = some closure) :
    store.functionIn? name id = some closure := by
  obtain ⟨scope, isScope, bound⟩ := Option.bind_eq_some_iff.mp found
  rw [scope?_opened] at isScope
  split at isScope
  · cases isScope
    cases bound
  · exact Option.bind_eq_some_iff.mpr ⟨scope, isScope, bound⟩

theorem functionIn?_of_defineFunction {id at_ : ScopeId} {closure other : Closure} {name : String}
    (found : (store.defineFunction id closure).functionIn? name at_ = some other) :
    store.functionIn? name at_ = some other ∨ other = closure ∧ name = closure.function.name ∧
      at_ = id := by
  rcases Nat.lt_or_ge id store.size with inside | outside
  · rw [functionIn?_defineFunction inside] at found
    split at found
    next here =>
      cases found
      exact .inr ⟨rfl, here.2.symm, here.1.symm⟩
    · exact .inl found
  · refine .inl ?_
    rw [functionIn?, scope?_defineFunction] at found
    split at found
    next here =>
      rw [scope?_of_size_le (here ▸ outside)] at found
      cases found
    · exact found

theorem assign?_eq_some {id : ScopeId} {name : String} {value : Value} {after : Store}
    (assigned : store.assign? id name value = some after) :
    ∃ owner, store.owner? id name = some owner ∧ after = store.define owner name value := by
  obtain ⟨owner, owns, rfl⟩ := Option.map_eq_some_iff.mp assigned
  exact ⟨owner, owns, rfl⟩

namespace Stores

variable {good : Closure → Prop}

theorem opened (stores : Stores good store) (parent : Option ScopeId) (vars : Bindings Value) :
    Stores good (store.opened parent vars) :=
  fun name id closure found => stores name id closure (functionIn?_of_opened found)

theorem closed (stores : Stores good store) : Stores good store.closed :=
  fun name id closure found => stores name id closure (functionIn?_of_closed found)

theorem define (stores : Stores good store) (id : ScopeId) (name : String) (value : Value) :
    Stores good (store.define id name value) := by
  intro other at_ closure found
  rw [functionIn?_define] at found
  exact stores other at_ closure found

theorem defineFunction (stores : Stores good store) {closure : Closure} (isGood : good closure)
    (id : ScopeId) : Stores good (store.defineFunction id closure) := by
  intro other at_ stored found
  rcases functionIn?_of_defineFunction found with before | ⟨rfl, -, -⟩
  · exact stores other at_ stored before
  · exact isGood

end Stores

/-! ## A fresh root -/

theorem rooted_withRoot : withRoot.Rooted := by
  rintro (_ | id) parent ⟨⟩

theorem isHeld_withRoot {id : ScopeId} (inside : id < withRoot.size) :
    withRoot.isHeld id = true := by
  obtain rfl : id = 0 := Nat.lt_one_iff.mp inside
  rfl

theorem variableIn?_withRoot (name : String) (id : ScopeId) :
    withRoot.variableIn? name id = none := by
  cases id <;> rfl

theorem functionIn?_withRoot (name : String) (id : ScopeId) :
    withRoot.functionIn? name id = none := by
  cases id <;> rfl

theorem Stores.withRoot (good : Closure → Prop) : Stores good Store.withRoot := by
  intro name id closure found
  cases (functionIn?_withRoot name id).symm.trans found

/-! ## Chains -/

theorem chain_of_lt {id : ScopeId} (older : ∀ parent, store.parent? id = some parent → parent < id)
    (inside : id < store.size) :
    store.chain id = id :: match store.parent? id with
      | none => []
      | some parent => store.chain parent := by
  obtain ⟨scope, found⟩ := scope?_of_lt inside
  have parentEq : store.parent? id = scope.parent := by rw [parent?, found]; rfl
  rw [chain, found]
  dsimp only
  rw [parentEq] at older ⊢
  cases isParent : scope.parent with
  | none => rfl
  | some parent => exact if_pos (older parent isParent)

theorem chain_of_size_le {id : ScopeId} (outside : store.size ≤ id) : store.chain id = [] := by
  rw [chain, scope?_of_size_le outside]

theorem mem_chain (rooted : store.Rooted) {id other : ScopeId} (member : other ∈ store.chain id) :
    other ≤ id := by
  induction id using Nat.strongRecOn with
  | ind id ih =>
    rcases Nat.lt_or_ge id store.size with inside | outside
    · rw [chain_of_lt (rooted id) inside] at member
      cases isParent : store.parent? id with
      | none =>
        rw [isParent, List.mem_singleton] at member
        exact Nat.le_of_eq member
      | some parent =>
        rw [isParent] at member
        have older := rooted id parent isParent
        rcases List.mem_cons.mp member with rfl | further
        · exact Nat.le_refl _
        · exact Nat.le_trans (ih parent older further) (Nat.le_of_lt older)
    · rw [chain_of_size_le outside] at member
      cases member

theorem findSome?_chain {α : Type} (rooted : store.Rooted) {id : ScopeId}
    (inside : id < store.size) (find : ScopeId → Option α) :
    (store.chain id).findSome? find =
      (find id).or ((store.parent? id).bind fun parent => (store.chain parent).findSome? find) := by
  rw [chain_of_lt (rooted id) inside, List.findSome?_cons]
  cases find id with
  | some result => rfl
  | none => cases store.parent? id <;> rfl

theorem findSome?_congr {α β : Type} {one two : α → Option β} {list : List α}
    (same : ∀ item ∈ list, one item = two item) : list.findSome? one = list.findSome? two := by
  induction list with
  | nil => rfl
  | cons first rest ih =>
    rw [List.findSome?_cons, List.findSome?_cons, same first List.mem_cons_self,
      ih fun item member => same item (List.mem_cons_of_mem _ member)]

theorem chain_cases (store : Store) (id : ScopeId) :
    store.chain id = [] ∨ store.chain id = [id] ∨
      ∃ parent < id, store.parent? id = some parent ∧ store.chain id = id :: store.chain parent := by
  rw [chain, parent?]
  cases store.scope? id with
  | none => exact .inl rfl
  | some scope =>
    rw [Option.bind_some]
    dsimp only
    cases isParent : scope.parent with
    | none => exact .inr (.inl rfl)
    | some parent =>
      dsimp only
      split
      next older => exact .inr (.inr ⟨parent, older, rfl, rfl⟩)
      · exact .inr (.inl rfl)

theorem chain_step {other : Store} {id : ScopeId} (sizes : id < store.size ↔ id < other.size)
    (parents : other.parent? id = store.parent? id)
    (further : ∀ parent < id, store.parent? id = some parent →
      other.chain parent = store.chain parent) : other.chain id = store.chain id := by
  by_cases inside : id < store.size
  · obtain ⟨scope, found⟩ := scope?_of_lt inside
    obtain ⟨twin, foundToo⟩ := scope?_of_lt (sizes.mp inside)
    rw [parent?, parent?, found, foundToo, Option.bind_some, Option.bind_some] at parents
    rw [parent?, found, Option.bind_some] at further
    rw [chain, chain, found, foundToo]
    dsimp only
    rw [parents]
    cases isParent : scope.parent with
    | none => rfl
    | some parent =>
      dsimp only
      split
      next older => rw [further parent older isParent]
      · rfl
  · have outside := Nat.le_of_not_lt inside
    have outsideToo := Nat.le_of_not_lt fun within => inside (sizes.mpr within)
    rw [chain_of_size_le outside, chain_of_size_le outsideToo]

/-- Stores with the same scopes up to a number have the same chains up to there. -/
theorem chain_congr {other : Store} {bound : ScopeId}
    (sizes : ∀ id < bound, id < store.size ↔ id < other.size)
    (parents : ∀ id < bound, other.parent? id = store.parent? id) {id : ScopeId}
    (below : id < bound) : other.chain id = store.chain id := by
  induction id using Nat.strongRecOn with
  | ind id ih =>
    refine chain_step (sizes id below) (parents id below) fun parent older _ => ?_
    exact ih parent older (Nat.lt_trans older below)

end Store

end RobotScript
