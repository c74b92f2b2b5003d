import RobotScript.Proofs.Binding.Lookups
import RobotScript.Proofs.Entering.Consistency

/-! # Stores with more names in the root

One store covers another if it has the same scopes, but that its root may bind further
names. What is found in the smaller store is found in the larger one as well, from every
scope, and each change keeps this: nothing stands in front of what the larger one adds. -/
set_option autoImplicit false

namespace RobotScript

structure Scope.Covers (less more : Scope) : Prop where
  parent : more.parent = less.parent
  held : more.held = less.held
  vars : ∀ name value, less.vars.find? name = some value → more.vars.find? name = some value
  functions : ∀ name closure, less.functions.find? name = some closure →
    more.functions.find? name = some closure

theorem Scope.Covers.refl (scope : Scope) : Scope.Covers scope scope :=
  ⟨rfl, rfl, fun _ _ found => found, fun _ _ found => found⟩

theorem Bindings.insert_covers {α : Type} {less more : Bindings α}
    (covers : ∀ name value, less.find? name = some value → more.find? name = some value)
    (key : String) (new : α) (name : String) (value : α)
    (found : (less.insert key new).find? name = some value) :
    (more.insert key new).find? name = some value := by
  rw [find?_insert] at found ⊢
  split at found
  next same => rw [if_pos same, found]
  next other => rw [if_neg other, covers name value found]

namespace Store

/-- The second store is the first one, with more names in its root. -/
structure Covers (less more : Store) : Prop where
  size : more.size = less.size
  inner : ∀ id, id ≠ Session.scope → more.scope? id = less.scope? id
  root : Option.Rel Scope.Covers (less.scope? Session.scope) (more.scope? Session.scope)

namespace Covers

variable {less more : Store}

/-! ## Changes -/

theorem root_map {one two : Option Scope} (root : Option.Rel Scope.Covers one two)
    {change : Scope → Scope}
    (keeps : ∀ small large, Scope.Covers small large → Scope.Covers (change small) (change large)) :
    Option.Rel Scope.Covers (one.map change) (two.map change) := by
  cases root with
  | none => exact .none
  | some same => exact .some (keeps _ _ same)

theorem define (covers : Covers less more) (id : ScopeId) (name : String) (value : Value) :
    Covers (less.define id name value) (more.define id name value) where
  size := by rw [size_define, size_define, covers.size]
  inner other away := by rw [scope?_define, scope?_define, covers.inner other away]
  root := by
    have root := covers.root
    rw [scope?_define, scope?_define]
    split
    · exact root_map root fun _ _ same =>
        ⟨same.parent, same.held, Bindings.insert_covers same.vars name value, same.functions⟩
    · exact root

theorem defineFunction (covers : Covers less more) (id : ScopeId) (closure : Closure) :
    Covers (less.defineFunction id closure) (more.defineFunction id closure) where
  size := by rw [size_defineFunction, size_defineFunction, covers.size]
  inner other away := by
    rw [scope?_defineFunction, scope?_defineFunction, covers.inner other away]
  root := by
    have root := covers.root
    rw [scope?_defineFunction, scope?_defineFunction]
    split
    · exact root_map root fun _ _ same =>
        ⟨same.parent, same.held, same.vars,
          Bindings.insert_covers same.functions closure.function.name closure⟩
    · exact root

theorem opened (covers : Covers less more) (parent : Option ScopeId) (vars : Bindings Value) :
    Covers (less.opened parent vars) (more.opened parent vars) where
  size := by rw [size_opened, size_opened, covers.size]
  inner other away := by rw [scope?_opened, scope?_opened, covers.size, covers.inner other away]
  root := by
    rw [scope?_opened, scope?_opened, covers.size]
    split
    · exact .some (.refl _)
    · exact covers.root

theorem closed (covers : Covers less more) : Covers less.closed more.closed where
  size := by rw [size_closed, size_closed, covers.size]
  inner other away := by
    rw [scope?_closed_eq, scope?_closed_eq, covers.size, covers.inner other away]
  root := by
    rw [scope?_closed_eq, scope?_closed_eq, covers.size]
    split
    · exact covers.root
    · exact .none

/-! ## Lookups -/

theorem scope? (covers : Covers less more) (id : ScopeId) :
    Option.Rel Scope.Covers (less.scope? id) (more.scope? id) := by
  by_cases here : id = Session.scope
  · exact here ▸ covers.root
  · rw [covers.inner id here]
    cases less.scope? id with
    | none => exact .none
    | some scope => exact .some (.refl scope)

theorem bind_covers {α : Type} {one two : Option Scope} (same : Option.Rel Scope.Covers one two)
    {look : Scope → Option α} {result : α}
    (keeps : ∀ here there, Scope.Covers here there → look here = some result →
      look there = some result) (found : one.bind look = some result) :
    two.bind look = some result := by
  cases same with
  | none => cases found
  | some covers => exact keeps _ _ covers found

theorem functionIn? (covers : Covers less more) {id : ScopeId} {name : String} {closure : Closure}
    (found : less.functionIn? name id = some closure) :
    more.functionIn? name id = some closure :=
  bind_covers (covers.scope? id) (fun _ _ same => same.functions name closure) found

theorem variableIn? (covers : Covers less more) {id : ScopeId} {name : String} {value : Value}
    (found : less.variableIn? name id = some value) :
    more.variableIn? name id = some value :=
  bind_covers (covers.scope? id) (fun _ _ same => same.vars name value) found

theorem parent? (covers : Covers less more) (id : ScopeId) : more.parent? id = less.parent? id := by
  have same := covers.scope? id
  unfold Store.parent?
  generalize less.scope? id = one at same ⊢
  generalize more.scope? id = two at same ⊢
  cases same with
  | none => rfl
  | some same => exact same.parent

theorem isHeld (covers : Covers less more) (id : ScopeId) : more.isHeld id = less.isHeld id := by
  have same := covers.scope? id
  unfold Store.isHeld
  generalize less.scope? id = one at same ⊢
  generalize more.scope? id = two at same ⊢
  cases same with
  | none => rfl
  | some same => exact same.held

theorem chain (covers : Covers less more) (id : ScopeId) : more.chain id = less.chain id := by
  refine chain_congr (fun other _ => ?_) (fun other _ => covers.parent? other) (Nat.lt_succ_self id)
  rw [covers.size]

theorem isAlive (covers : Covers less more) (id : ScopeId) : more.isAlive id = less.isAlive id := by
  unfold Store.isAlive
  rw [covers.isHeld, covers.size]
  simp only [covers.isHeld, covers.chain]

/-- The root is the last scope of a chain, so it hides nothing of what is found before. -/
theorem findSome?_chain {α : Type} (store : Store) {one two : ScopeId → Option α} {result : α}
    (inner : ∀ id, id ≠ Session.scope → two id = one id)
    (root : one Session.scope = some result → two Session.scope = some result) (id : ScopeId)
    (found : (store.chain id).findSome? one = some result) :
    (store.chain id).findSome? two = some result := by
  have here (id : ScopeId) (first : one id = some result) : two id = some result := by
    by_cases isRoot : id = Session.scope
    · exact isRoot ▸ root (isRoot ▸ first)
    · exact (inner id isRoot).trans first
  induction id using Nat.strongRecOn with
  | ind id ih =>
    rcases chain_cases store id with same | same | ⟨parent, older, -, same⟩ <;> rw [same] at found ⊢
    · cases found
    · rw [List.findSome?_singleton] at found ⊢
      exact here id found
    · have away : id ≠ Session.scope := Nat.ne_of_gt (Nat.lt_of_le_of_lt (Nat.zero_le _) older)
      rw [List.findSome?_cons] at found ⊢
      rw [inner id away]
      cases isFound : one id with
      | some value =>
        rw [isFound] at found
        exact found
      | none =>
        rw [isFound] at found
        exact ih parent older found

theorem function? (covers : Covers less more) {id : ScopeId} {name : String} {closure : Closure}
    (found : less.function? id name = some closure) : more.function? id name = some closure := by
  rw [Store.function?, covers.chain]
  refine findSome?_chain less (fun other away => ?_) covers.functionIn? id found
  rw [Store.functionIn?, Store.functionIn?, covers.inner other away]

theorem get? (covers : Covers less more) {id : ScopeId} {name : String} {value : Value}
    (found : less.get? id name = some value) : more.get? id name = some value := by
  rw [Store.get?, covers.chain]
  refine findSome?_chain less (fun other away => ?_) covers.variableIn? id found
  rw [Store.variableIn?, Store.variableIn?, covers.inner other away]

theorem owner? (covers : Covers less more) {id owner : ScopeId} {name : String}
    (found : less.owner? id name = some owner) : more.owner? id name = some owner := by
  rw [Store.owner?, List.find?_eq_findSome?_guard] at found ⊢
  rw [covers.chain]
  refine findSome?_chain less (fun other away => ?_) (fun isOwner => ?_) id found
  · rw [Option.guard, Option.guard, Store.variableIn?, Store.variableIn?, covers.inner other away]
  · obtain ⟨rfl, isBound⟩ := Option.guard_eq_some_iff.mp isOwner
    obtain ⟨value, bound⟩ := Option.isSome_iff_exists.mp isBound
    exact Option.guard_eq_some_iff.mpr ⟨rfl, Option.isSome_of_mem (covers.variableIn? bound)⟩

end Covers

end Store

end RobotScript
