import Mathlib.Data.List.Find
import RobotScript.Proofs.Locality.Regions
import RobotScript.Proofs.Relating.Course
import RobotScript.Proofs.Typing.Quiet

/-! # Scopes that keep their names

Whatever is opened while a node is evaluated is closed again, and a name is only bound by a
declaration or a definition, in the scope in which this is evaluated itself. So the scopes
that were there keep their names and functions, unless a node binds a name where it
stands. -/
set_option autoImplicit false

namespace RobotScript

open Evaluation

variable {Host : Type}

namespace Store

/-! ## What is kept -/

/-- There are the scopes that there were; those below the bound have the same names, the
same functions and the same place, and none of them was let go. -/
structure KeepsBelow (bound : ScopeId) (before after : Store) : Prop where
  size : after.size = before.size
  same : SameBelow bound before after
  held : ∀ id < bound, after.isHeld id = before.isHeld id

abbrev Keeps (before after : Store) : Prop := KeepsBelow before.size before after

namespace KeepsBelow

variable {bound : ScopeId} {first second third store : Store}

theorem refl (bound : ScopeId) (store : Store) : KeepsBelow bound store store :=
  ⟨rfl, .refl bound store, fun _ _ => rfl⟩

theorem trans (one : KeepsBelow bound first second) (two : KeepsBelow bound second third) :
    KeepsBelow bound first third :=
  ⟨two.size.trans one.size, one.same.trans two.same,
    fun id below => (two.held id below).trans (one.held id below)⟩

theorem beyond {after : Store} (size : after.size = store.size)
    (same : ∀ id < bound, after.scope? id = store.scope? id) : KeepsBelow bound store after :=
  ⟨size, .of_scopes same, fun id below => by rw [isHeld, isHeld, same id below]⟩

theorem define (store : Store) {scope : ScopeId} (later : bound ≤ scope) (name : String)
    (value : Value) : KeepsBelow bound store (store.define scope name value) := by
  refine beyond (size_define ..) fun id below => ?_
  rw [scope?_define, if_neg (Nat.ne_of_gt (Nat.lt_of_lt_of_le below later))]

theorem defineFunction (store : Store) {scope : ScopeId} (later : bound ≤ scope)
    (closure : Closure) : KeepsBelow bound store (store.defineFunction scope closure) := by
  refine beyond (size_defineFunction ..) fun id below => ?_
  rw [scope?_defineFunction, if_neg (Nat.ne_of_gt (Nat.lt_of_lt_of_le below later))]

theorem assigned {owner : ScopeId} {name : String} {before : Value}
    (found : store.variableIn? name owner = some before) (value : Value) :
    KeepsBelow bound store (store.define owner name value) := by
  refine ⟨size_define .., ⟨fun id _ => by rw [size_define], fun id _ => ?_, fun id _ other => ?_,
    fun id _ other => ?_⟩, fun id _ => isHeld_define store owner name value id⟩
  · exact parent?_define store owner name value id
  · exact functionIn?_define store owner name value other id
  · rw [variableIn?_define (variableIn?_lt found)]
    by_cases here : owner = id ∧ name = other
    · obtain ⟨rfl, rfl⟩ := here
      simp [found]
    · rw [if_neg here]

theorem inScope {parent : Option ScopeId} {vars : Bindings Value} (inside : bound ≤ first.size)
    (keeps : KeepsBelow bound (first.opened parent vars) second) :
    KeepsBelow bound first second.closed := by
  have size : second.size = first.size + 1 := keeps.size.trans (size_opened ..)
  have opens : SameBelow bound first (first.opened parent vars) :=
    (SameBelow.opened first parent vars).mono inside
  have closes : SameBelow bound second second.closed := (SameBelow.closed size).mono inside
  refine ⟨by simp [size], (opens.trans keeps.same).trans closes, fun id below => ?_⟩
  have old : id < first.size := Nat.lt_of_lt_of_le below inside
  have before := keeps.held id below
  rw [isHeld, isHeld, scope?_opened_below first parent vars old] at before
  rw [isHeld, isHeld, scope?_closed (size ▸ Nat.succ_lt_succ old)]
  exact before

theorem owner? {before after : Store} (keeps : Keeps before after) (scope : ScopeId)
    (name : String) : after.owner? scope name = before.owner? scope name := by
  rcases Nat.lt_or_ge scope before.size with inside | outside
  · rw [Store.owner?, Store.owner?, keeps.same.chain inside]
    refine List.find?_congr fun id around => ?_
    rw [keeps.same.values id (lt_size_of_mem_chain around)]
  · rw [Store.owner?, Store.owner?, chain_of_size_le outside,
      chain_of_size_le (keeps.size ▸ outside)]
    rfl

end KeepsBelow

/-! ## What is bound -/

/-- What a name stands for in a scope: a variable for a value, a function for itself. -/
def meaning? (store : Store) (scope : ScopeId) : Name → Option (Value ⊕ Closure)
  | .var name => (store.variableIn? name scope).map .inl
  | .func name => (store.functionIn? name scope).map .inr

/-- A name has this meaning in the scope now; nothing else is different. -/
structure Rebinds (scope : ScopeId) (name : Name) (meaning : Value ⊕ Closure)
    (before after : Store) : Prop where
  size : after.size = before.size
  parents : ∀ id, after.parent? id = before.parent? id
  held : ∀ id, after.isHeld id = before.isHeld id
  meanings : ∀ id other, after.meaning? id other =
    if id = scope ∧ other = name then some meaning else before.meaning? id other

variable {store : Store} {scope : ScopeId}

theorem Rebinds.define (inside : scope < store.size) (name : String) (value : Value) :
    Rebinds scope (.var name) (.inl value) store (store.define scope name value) where
  size := size_define ..
  parents := parent?_define store scope name value
  held := isHeld_define store scope name value
  meanings id other := by
    cases other with
    | func other => simp [meaning?]
    | var other =>
      rw [meaning?, variableIn?_define inside]
      by_cases here : scope = id ∧ name = other
      · rw [if_pos here, if_pos ⟨here.1.symm, congrArg Name.var here.2.symm⟩]
        rfl
      · rw [if_neg here, if_neg fun both => here ⟨both.1.symm, (Name.var.inj both.2).symm⟩]
        rfl

theorem Rebinds.defineFunction (inside : scope < store.size) (closure : Closure) :
    Rebinds scope (.func closure.function.name) (.inr closure) store
      (store.defineFunction scope closure) where
  size := size_defineFunction ..
  parents := parent?_defineFunction store scope closure
  held := isHeld_defineFunction store scope closure
  meanings id other := by
    cases other with
    | var other => simp [meaning?]
    | func other =>
      rw [meaning?, functionIn?_defineFunction inside]
      by_cases here : scope = id ∧ closure.function.name = other
      · rw [if_pos here, if_pos ⟨here.1.symm, congrArg Name.func here.2.symm⟩]
        rfl
      · rw [if_neg here, if_neg fun both => here ⟨both.1.symm, (Name.func.inj both.2).symm⟩]
        rfl

theorem lt_size_of_owner? {name : String} {owner : ScopeId}
    (owns : store.owner? scope name = some owner) : owner < store.size :=
  lt_size_of_mem_chain (List.mem_of_find?_eq_some owns)

end Store

/-! ## Quiet nodes keep the names -/

/-- Whatever is evaluated in a later scope, and whatever is quiet, keeps the names of the
scopes below a bound. -/
theorem keeping_course (setup : Setup Host) (bound : ScopeId) :
    Course setup
      (fun before after => bound ≤ before.store.size →
        Store.KeepsBelow bound before.store after.store)
      (fun scope node => bound ≤ scope ∨ Quiet node) (fun scope => bound ≤ scope) where
  parts := by
    intro scope node apt part member
    exact apt.imp_right fun quiet => quiet.part member
  fresh := fun _ _ => .inl
  refl := fun machine _ => .refl bound machine.store
  trans := by
    intro first second third one two inside
    have keeps := one inside
    exact keeps.trans (two (keeps.size ▸ inside))
  counted := fun machine _ => .refl bound machine.store
  watched := fun _ _ machine _ _ => .refl bound machine.store
  called := fun _ _ _ machine _ _ => .refl bound machine.store
  deeper := fun _ _ keeps inside => keeps inside
  inScope := by
    intro machine parent vars after keeps inside
    refine .inScope inside (keeps inside ?_)
    rw [Machine.entered, Store.size_opened]
    exact Nat.le_succ_of_le inside
  assigned := by
    intro machine scope name value store assigned _
    obtain ⟨owner, owns, rfl⟩ := Store.assign?_eq_some assigned
    obtain ⟨before, found⟩ := Option.isSome_iff_exists.mp
      (List.find?_some (p := fun id => (machine.store.variableIn? name id).isSome) owns)
    exact .assigned found value
  defined := by
    rintro machine scope name declared initializer span ty value (later | quiet) _
    · exact .define machine.store later name value
    · cases quiet.declares
  functionDefined := by
    rintro machine scope function span ty (later | quiet) _
    · exact .defineFunction machine.store later _
    · cases quiet.declares

section

variable {setup : Setup Host} {fuel : Nat} {scope : ScopeId} {machine after : Machine Host}

theorem Quiet.keeps {node : Node} (quiet : Quiet node) {result : Except Exit Value}
    (ran : evaluate setup fuel node scope machine = some (result, after)) :
    machine.store.Keeps after.store :=
  (keeping_course setup machine.store.size).evaluate (.inr quiet) ran (Nat.le_refl _)

theorem Quiet.keeps_option {right : Option Node} (quiet : ∀ node ∈ right.toList, Quiet node)
    {result : Except Exit (Option Value)}
    (ran : optionalValue (evaluate setup fuel) scope right machine = some (result, after)) :
    machine.store.Keeps after.store := by
  have course := keeping_course setup machine.store.size
  have moves : Moves _ (Option Value) (optionalValue (evaluate setup fuel) scope right) _ :=
    course.congruence.optionalValue (course.congruence.evaluate (.refl _ fuel))
      fun node member => .inr (quiet node member)
  exact moves machine result after ran (Nat.le_refl _)

end

end RobotScript
