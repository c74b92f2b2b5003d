import RobotScript.Proofs.Relating.Course
import RobotScript.Proofs.Running.Chains
import RobotScript.Proofs.Typing.Quiet

/-! # What stands in a scope

Only a definition that is evaluated in a scope itself changes the functions of the
scope, and no variable of a scope is ever taken away. A definition stands nowhere but
among the statements of a block, a body or a script, so every other statement leaves
the functions of its scope as they are. -/
set_option autoImplicit false

namespace RobotScript

open Evaluation Typing

variable {Host : Type}

/-! ## Nodes that define nothing -/

/-- No node that is evaluated in the same scope defines a function. -/
inductive DefinesNothing : Node → Prop
  | intro {node : Node} (noFunction : ∀ function, node.form ≠ .define function)
      (parts : ∀ part ∈ node.parts, DefinesNothing part) : DefinesNothing node

namespace DefinesNothing

theorem part {node part : Node} (nothing : DefinesNothing node) (member : part ∈ node.parts) :
    DefinesNothing part := by
  cases nothing with
  | intro noFunction parts => exact parts part member

theorem of_quiet {node : Node} (quiet : Quiet node) : DefinesNothing node := by
  induction quiet with
  | @intro node declares _ ih =>
    refine .intro (fun function isDefinition => ?_) ih
    rw [Typed.declares, isDefinition] at declares
    cases declares

theorem declaration {context : Context} {node : Node} (typed : Declaration context node) :
    DefinesNothing node := by
  cases typed with
  | declare _ _ typed _ =>
    refine .intro (by rintro _ ⟨⟩) fun part member => ?_
    exact .of_quiet (.expression (typed part (Option.mem_toList.mp member)))

end DefinesNothing

/-- A statement defines a function that its scope does not have yet, or it defines
nothing. -/
theorem Typing.Statement.defines_cases {place : Grammar.Place} {context : Context} {node : Node}
    (typed : Statement place context node) :
    (∃ function span, node = ⟨.define function, .void, span⟩ ∧
      context.innermost.functions.find? function.name = none) ∨ DefinesNothing node := by
  have quiet := Quiet.statement typed
  cases typed with
  | expression typed => exact .inr (.of_quiet (.expression typed))
  | declaration typed => exact .inr (.declaration typed)
  | define _ _ _ _ fresh _ _ => exact .inl ⟨_, _, rfl, fresh⟩
  | _ => exact .inr (.of_quiet (quiet rfl))

/-! ## Scopes that stand -/

/-- The scope has the functions that it had, and the variables, though not their values. -/
structure Store.Stands (scope : ScopeId) (before after : Store) : Prop where
  size : after.size = before.size
  functions : ∀ name, after.functionIn? name scope = before.functionIn? name scope
  values : ∀ name, (before.variableIn? name scope).isSome = true →
    (after.variableIn? name scope).isSome = true

namespace Store.Stands

variable {scope : ScopeId} {first second third : Store}

theorem refl (scope : ScopeId) (store : Store) : Stands scope store store :=
  ⟨rfl, fun _ => rfl, fun _ bound => bound⟩

theorem trans (one : Stands scope first second) (two : Stands scope second third) :
    Stands scope first third :=
  ⟨two.size.trans one.size, fun name => (two.functions name).trans (one.functions name),
    fun name bound => two.values name (one.values name bound)⟩

theorem variableIn?_define_isSome {store : Store} {id : ScopeId} {name : String} (value : Value)
    {other : String} (bound : (store.variableIn? other scope).isSome = true) :
    ((store.define id name value).variableIn? other scope).isSome = true := by
  by_cases inside : id < store.size
  · rw [variableIn?_define inside]
    split
    · rfl
    · exact bound
  · have same : (store.define id name value).variableIn? other scope =
        store.variableIn? other scope := by
      rw [variableIn?, variableIn?, scope?_define]
      split
      next here =>
        rw [scope?_of_size_le (here ▸ Nat.le_of_not_lt inside)]
        rfl
      · rfl
    rw [same]
    exact bound

theorem define (store : Store) (id : ScopeId) (name : String) (value : Value) :
    Stands scope store (store.define id name value) :=
  ⟨size_define .., fun function => functionIn?_define store id name value function scope,
    fun _ bound => variableIn?_define_isSome value bound⟩

theorem defineFunction {store : Store} {id : ScopeId} (elsewhere : id ≠ scope)
    (closure : Closure) : Stands scope store (store.defineFunction id closure) := by
  refine ⟨size_defineFunction .., fun name => ?_, fun name bound => ?_⟩
  · rw [functionIn?, functionIn?, scope?_defineFunction, if_neg elsewhere]
  · rw [variableIn?_defineFunction]
    exact bound

theorem inScope {store after : Store} {parent : Option ScopeId} {vars : Bindings Value}
    (inside : scope < store.size) (stands : Stands scope (store.opened parent vars) after) :
    Stands scope store after.closed := by
  have size : after.size = store.size + 1 := stands.size.trans (size_opened ..)
  have still : scope + 1 < after.size := size ▸ Nat.succ_lt_succ inside
  have opened : (store.opened parent vars).scope? scope = store.scope? scope := by
    rw [scope?_opened, if_neg (Nat.ne_of_lt inside)]
  refine ⟨?_, fun name => ?_, fun name bound => ?_⟩
  · rw [size_closed, size, Nat.add_sub_cancel]
  · have same := stands.functions name
    rw [functionIn?, functionIn?, opened] at same
    rw [functionIn?, scope?_closed still]
    exact same
  · have bound : ((store.opened parent vars).variableIn? name scope).isSome = true := by
      rw [variableIn?, opened]
      exact bound
    rw [variableIn?, scope?_closed still]
    exact stands.values name bound

end Store.Stands

/-- Whatever is evaluated in other scopes, and whatever defines nothing, leaves a
scope standing. -/
theorem standing_course (setup : Setup Host) (scope : ScopeId) :
    Course setup
      (fun before after => scope < before.store.size →
        Store.Stands scope before.store after.store)
      (fun here node => here ≠ scope ∨ DefinesNothing node) (fun here => here ≠ scope) where
  parts := by
    rintro here node (elsewhere | nothing) part member
    · exact .inl elsewhere
    · exact .inr (nothing.part member)
  fresh := fun _ _ => .inl
  refl := fun machine _ => .refl scope machine.store
  trans := by
    intro first second third one two inside
    have stands := one inside
    exact stands.trans (two (stands.size ▸ inside))
  counted := fun machine _ => .refl scope machine.store
  watched := fun _ _ machine _ _ => .refl scope machine.store
  called := fun _ _ _ machine _ _ => .refl scope machine.store
  deeper := fun _ _ stands inside => stands inside
  inScope := by
    intro machine parent vars after stands inside
    have within : scope < (machine.entered parent vars).store.size := by
      change scope < (machine.store.opened _ vars).size
      rw [Store.size_opened]
      exact Nat.lt_succ_of_lt inside
    exact .inScope inside (stands (Nat.ne_of_gt inside) within)
  assigned := by
    intro machine here name value store assigned _
    obtain ⟨owner, -, rfl⟩ := Option.map_eq_some_iff.mp assigned
    exact .define machine.store owner name value
  defined := fun machine here name _ _ _ _ value _ _ => .define machine.store here name value
  functionDefined := by
    rintro machine here function span ty (elsewhere | nothing) _
    · exact .defineFunction elsewhere _
    · cases nothing with
      | intro noFunction _ => exact absurd rfl (noFunction function)

end RobotScript
