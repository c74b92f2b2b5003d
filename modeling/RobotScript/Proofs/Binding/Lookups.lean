import RobotScript.Proofs.Running.Changes

/-! # Lookups

What a name reaches from a scope, as scopes are opened and closed and names are bound in
them. Of variables only whether they are bound is looked at, so that assigning changes
nothing. -/
set_option autoImplicit false

namespace RobotScript

namespace Store

variable {store : Store}

theorem function?_eq (rooted : store.Rooted) {id : ScopeId} (inside : id < store.size)
    (name : String) :
    store.function? id name = (store.functionIn? name id).or
      ((store.parent? id).bind fun parent => store.function? parent name) :=
  findSome?_chain rooted inside _

theorem get?_eq (rooted : store.Rooted) {id : ScopeId} (inside : id < store.size) (name : String) :
    store.get? id name = (store.variableIn? name id).or
      ((store.parent? id).bind fun parent => store.get? parent name) :=
  findSome?_chain rooted inside _

theorem exists_of_function? {id : ScopeId} {name : String} {closure : Closure}
    (found : store.function? id name = some closure) :
    ∃ home ∈ store.chain id, store.functionIn? name home = some closure :=
  List.exists_of_findSome?_eq_some found

theorem get?_isSome {id : ScopeId} {name : String} :
    (store.get? id name).isSome = true ↔
      ∃ other ∈ store.chain id, (store.variableIn? name other).isSome = true := by
  rw [get?, List.findSome?_isSome_iff]

/-! ## Scopes below a bound -/

/-- The scopes before `bound` have the same functions, and the same variables up to
their values. -/
structure SameBelow (bound : ScopeId) (before after : Store) : Prop where
  sizes : ∀ id < bound, id < before.size ↔ id < after.size
  parents : ∀ id < bound, after.parent? id = before.parent? id
  functions : ∀ id < bound, ∀ name, after.functionIn? name id = before.functionIn? name id
  values : ∀ id < bound, ∀ name,
    (after.variableIn? name id).isSome = (before.variableIn? name id).isSome

namespace SameBelow

variable {bound : ScopeId} {first second third : Store}

theorem refl (bound : ScopeId) (store : Store) : SameBelow bound store store :=
  ⟨fun _ _ => Iff.rfl, fun _ _ => rfl, fun _ _ _ => rfl, fun _ _ _ => rfl⟩

theorem trans (one : SameBelow bound first second) (two : SameBelow bound second third) :
    SameBelow bound first third :=
  ⟨fun id below => (one.sizes id below).trans (two.sizes id below),
    fun id below => (two.parents id below).trans (one.parents id below),
    fun id below name => (two.functions id below name).trans (one.functions id below name),
    fun id below name => (two.values id below name).trans (one.values id below name)⟩

theorem mono {lower : ScopeId} (same : SameBelow bound first second) (less : lower ≤ bound) :
    SameBelow lower first second :=
  ⟨fun id below => same.sizes id (Nat.lt_of_lt_of_le below less),
    fun id below => same.parents id (Nat.lt_of_lt_of_le below less),
    fun id below => same.functions id (Nat.lt_of_lt_of_le below less),
    fun id below => same.values id (Nat.lt_of_lt_of_le below less)⟩

theorem chain (same : SameBelow bound first second) {id : ScopeId} (below : id < bound) :
    second.chain id = first.chain id := chain_congr same.sizes same.parents below

theorem function? (same : SameBelow bound first second) (rooted : first.Rooted) {id : ScopeId}
    (below : id < bound) (name : String) : second.function? id name = first.function? id name := by
  rw [Store.function?, Store.function?, same.chain below]
  refine findSome?_congr fun other member => ?_
  exact same.functions other (Nat.lt_of_le_of_lt (mem_chain rooted member) below) name

theorem get? (same : SameBelow bound first second) (rooted : first.Rooted) {id : ScopeId}
    (below : id < bound) (name : String) :
    (second.get? id name).isSome = (first.get? id name).isSome := by
  rw [Bool.eq_iff_iff, get?_isSome, get?_isSome, same.chain below]
  refine exists_congr fun other => and_congr_right fun member => ?_
  rw [same.values other (Nat.lt_of_le_of_lt (mem_chain rooted member) below)]

end SameBelow

/-! ## Opening and closing -/

theorem scope?_opened_below (store : Store) (parent : Option ScopeId) (vars : Bindings Value)
    {id : ScopeId} (below : id < store.size) :
    (store.opened parent vars).scope? id = store.scope? id := by
  rw [scope?_opened, if_neg (Nat.ne_of_lt below)]

theorem SameBelow.of_scopes {bound : ScopeId} {before after : Store}
    (same : ∀ id < bound, after.scope? id = before.scope? id) : SameBelow bound before after := by
  refine ⟨fun id below => ?_, fun id below => ?_, fun id below name => ?_, fun id below name => ?_⟩
  · rw [← scope?_isSome, ← scope?_isSome, same id below]
  · rw [parent?, parent?, same id below]
  · rw [functionIn?, functionIn?, same id below]
  · rw [variableIn?, variableIn?, same id below]

theorem SameBelow.opened (store : Store) (parent : Option ScopeId) (vars : Bindings Value) :
    SameBelow store.size store (store.opened parent vars) :=
  .of_scopes fun _ below => scope?_opened_below store parent vars below

theorem SameBelow.closed {bound : ScopeId} (size : store.size = bound + 1) :
    SameBelow bound store store.closed :=
  .of_scopes fun _ below => scope?_closed (size ▸ Nat.succ_lt_succ below)

theorem rooted_opened (rooted : store.Rooted) {parent : ScopeId} (inside : parent < store.size)
    (vars : Bindings Value) : (store.opened (some parent) vars).Rooted := by
  intro id outer isParent
  rw [parent?, scope?_opened] at isParent
  split at isParent
  next here =>
    cases isParent
    exact here ▸ inside
  · exact rooted id outer isParent

theorem rooted_closed (rooted : store.Rooted) : store.closed.Rooted := by
  intro id outer isParent
  obtain ⟨scope, found, isOuter⟩ := Option.bind_eq_some_iff.mp isParent
  exact rooted id outer (Option.bind_eq_some_iff.mpr ⟨scope, scope?_of_closed found, isOuter⟩)

theorem isHeld_opened (store : Store) (parent : Option ScopeId) (vars : Bindings Value)
    (held : ∀ id < store.size, store.isHeld id = true) :
    ∀ id < (store.opened parent vars).size, (store.opened parent vars).isHeld id = true := by
  intro id inside
  rw [size_opened] at inside
  rcases Nat.lt_or_eq_of_le (Nat.le_of_lt_succ inside) with below | rfl
  · rw [isHeld, scope?_opened_below store parent vars below]
    exact held id below
  · rw [isHeld, scope?_opened, if_pos rfl]

theorem isHeld_closed (held : ∀ id < store.size, store.isHeld id = true) :
    ∀ id < store.closed.size, store.closed.isHeld id = true := by
  intro id inside
  rw [size_closed] at inside
  rw [isHeld, scope?_closed (Nat.add_lt_of_lt_sub inside)]
  exact held id (Nat.lt_of_lt_of_le inside (Nat.sub_le _ _))

theorem function?_opened (rooted : store.Rooted) {parent : ScopeId} (inside : parent < store.size)
    (vars : Bindings Value) (name : String) :
    (store.opened (some parent) vars).function? store.size name = store.function? parent name := by
  have new : store.size < (store.opened (some parent) vars).size := by
    rw [size_opened]
    exact Nat.lt_succ_self _
  rw [function?_eq (rooted_opened rooted inside vars) new, functionIn?_opened, parent?_opened]
  exact (SameBelow.opened store (some parent) vars).function? rooted inside name

theorem get?_opened (rooted : store.Rooted) {parent : ScopeId} (inside : parent < store.size)
    (vars : Bindings Value) (name : String) :
    ((store.opened (some parent) vars).get? store.size name).isSome =
      ((vars.find? name).isSome || (store.get? parent name).isSome) := by
  have new : store.size < (store.opened (some parent) vars).size := by
    rw [size_opened]
    exact Nat.lt_succ_self _
  rw [get?_eq (rooted_opened rooted inside vars) new, variableIn?_opened, parent?_opened,
    Option.bind_some, Option.isSome_or,
    (SameBelow.opened store (some parent) vars).get? rooted inside name]

/-! ## Binding names -/

/-- A change that binds one more name in one scope, or binds it anew. -/
structure Binds (scope : ScopeId) (name : Name) (closure : Option Closure) (before after : Store) :
    Prop where
  size : after.size = before.size
  parents : ∀ id, after.parent? id = before.parent? id
  functions : ∀ id other, after.functionIn? other id =
    if id = scope ∧ name = .func other then closure else before.functionIn? other id
  values : ∀ id other, (after.variableIn? other id).isSome =
    (decide (id = scope ∧ name = .var other) || (before.variableIn? other id).isSome)

theorem binds_define {scope : ScopeId} (inside : scope < store.size) (name : String)
    (value : Value) : Binds scope (.var name) none store (store.define scope name value) where
  size := size_define ..
  parents := parent?_define _ _ _ _
  functions id other := by
    rw [functionIn?_define, if_neg]
    rintro ⟨-, ⟨⟩⟩
  values id other := by
    rw [variableIn?_define inside]
    by_cases here : scope = id ∧ name = other
    · rw [if_pos here, decide_eq_true ⟨here.1.symm, congrArg Name.var here.2⟩]
      rfl
    · rw [if_neg here, decide_eq_false fun both => here ⟨both.1.symm, Name.var.inj both.2⟩]
      rfl

theorem binds_defineFunction {scope : ScopeId} (inside : scope < store.size) (closure : Closure) :
    Binds scope (.func closure.function.name) (some closure) store
      (store.defineFunction scope closure) where
  size := size_defineFunction ..
  parents := parent?_defineFunction _ _ _
  functions id other := by
    rw [functionIn?_defineFunction inside]
    by_cases here : scope = id ∧ closure.function.name = other
    · rw [if_pos here, if_pos ⟨here.1.symm, congrArg Name.func here.2⟩]
    · rw [if_neg here, if_neg fun both => here ⟨both.1.symm, Name.func.inj both.2⟩]
  values id other := by
    rw [variableIn?_defineFunction, decide_eq_false]
    · rfl
    · rintro ⟨-, ⟨⟩⟩

namespace Binds

variable {after : Store} {scope : ScopeId} {name : Name} {closure : Option Closure}

theorem behind {first : Store} (binds : Binds scope name closure store after)
    (size : store.size = first.size) (same : SameBelow first.size first store) :
    Binds scope name closure first after where
  size := binds.size.trans size
  parents id := by
    rw [binds.parents]
    rcases Nat.lt_or_ge id first.size with inside | outside
    · exact same.parents id inside
    · rw [parent?, parent?, scope?_of_size_le outside, scope?_of_size_le (size ▸ outside)]
  functions id other := by
    rw [binds.functions]
    rcases Nat.lt_or_ge id first.size with inside | outside
    · rw [same.functions id inside]
    · rw [functionIn?, functionIn?, scope?_of_size_le outside, scope?_of_size_le (size ▸ outside)]
  values id other := by
    rw [binds.values]
    rcases Nat.lt_or_ge id first.size with inside | outside
    · rw [same.values id inside]
    · rw [variableIn?, variableIn?, scope?_of_size_le outside, scope?_of_size_le (size ▸ outside)]

theorem rooted (binds : Binds scope name closure store after) (rooted : store.Rooted) :
    after.Rooted := by
  intro id outer isParent
  rw [binds.parents] at isParent
  exact rooted id outer isParent

theorem sameBelow (binds : Binds scope name closure store after) : SameBelow scope store after where
  sizes id _ := by rw [binds.size]
  parents id _ := binds.parents id
  functions id below other := by
    rw [binds.functions, if_neg fun here => Nat.ne_of_lt below here.1]
  values id below other := by
    rw [binds.values, decide_eq_false fun here => Nat.ne_of_lt below here.1, Bool.false_or]

theorem function? (binds : Binds scope name closure store after) (rooted : store.Rooted)
    (inside : scope < store.size) (other : String) :
    after.function? scope other =
      if name = .func other then
        closure.or ((store.parent? scope).bind fun parent => store.function? parent other)
      else store.function? scope other := by
  have around : ((after.parent? scope).bind fun parent => after.function? parent other) =
      (store.parent? scope).bind fun parent => store.function? parent other := by
    rw [binds.parents]
    cases isParent : store.parent? scope with
    | none => rfl
    | some parent =>
      exact binds.sameBelow.function? rooted (rooted scope parent isParent) other
  rw [function?_eq (binds.rooted rooted) (binds.size ▸ inside), function?_eq rooted inside,
    around, binds.functions]
  by_cases here : name = .func other
  · rw [if_pos ⟨rfl, here⟩, if_pos here]
  · rw [if_neg fun both => here both.2, if_neg here]

theorem get? (binds : Binds scope name closure store after) (rooted : store.Rooted)
    (inside : scope < store.size) (other : String) :
    (after.get? scope other).isSome =
      (decide (name = .var other) || (store.get? scope other).isSome) := by
  have around : ((after.parent? scope).bind fun parent => after.get? parent other).isSome =
      ((store.parent? scope).bind fun parent => store.get? parent other).isSome := by
    rw [binds.parents]
    cases isParent : store.parent? scope with
    | none => rfl
    | some parent => exact binds.sameBelow.get? rooted (rooted scope parent isParent) other
  rw [get?_eq (binds.rooted rooted) (binds.size ▸ inside), get?_eq rooted inside,
    Option.isSome_or, Option.isSome_or, around, binds.values]
  simp only [true_and]
  rw [Bool.or_assoc]

end Binds

end Store

end RobotScript
