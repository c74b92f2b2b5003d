import RobotScript.Proofs.Locality.Keeping
import RobotScript.Proofs.Locality.Sharing

/-! # Slots

From a scope a name stands for its nearest binding, the slot that a lookup reaches first on
the way outwards. Many scopes may share a slot: what is assigned is seen from all of them,
and from no other; what is bound anew makes a slot for the scope and for all those inside it
from which no nearer one hides it. -/
set_option autoImplicit false

namespace RobotScript

namespace Store

variable {store : Store} {scope : ScopeId}

/-! ## Stores in which scopes are opened and variables are bound -/

def assigned (store : Store) (scope : ScopeId) (name : String) (value : Value) : Bool × Store :=
  match store.assign? scope name value with
  | some after => (true, after)
  | none => (false, store)

/-- A store as it comes of opening roots and scopes in others and of binding and assigning
variables in them, in any order. -/
inductive Grown : Store → Prop
  | empty : Grown .empty
  | root {store : Store} (before : Grown store) : Grown (store.opened none .empty)
  | child {store : Store} {parent : ScopeId} (before : Grown store)
      (inside : parent < store.size) : Grown (store.opened (some parent) .empty)
  | define {store : Store} {scope : ScopeId} (before : Grown store) (inside : scope < store.size)
      (name : String) (value : Value) : Grown (store.define scope name value)
  | assign {store : Store} {scope : ScopeId} (before : Grown store) (inside : scope < store.size)
      (name : String) (value : Value) : Grown (store.assigned scope name value).2

theorem rooted_root (rooted : store.Rooted) (vars : Bindings Value) :
    (store.opened none vars).Rooted := by
  intro id parent isParent
  rw [parent?, scope?_opened] at isParent
  split at isParent
  · cases isParent
  · exact rooted id parent isParent

theorem rooted_define (rooted : store.Rooted) (scope : ScopeId) (name : String) (value : Value) :
    (store.define scope name value).Rooted := by
  intro id parent isParent
  rw [parent?_define] at isParent
  exact rooted id parent isParent

theorem assigned_cases (store : Store) (scope : ScopeId) (name : String) (value : Value) :
    (∃ slot, store.owner? scope name = some slot ∧
      store.assigned scope name value = (true, store.define slot name value)) ∨
    (store.owner? scope name = none ∧ store.assigned scope name value = (false, store)) := by
  rw [assigned, assign?]
  cases owns : store.owner? scope name with
  | none => exact .inr ⟨rfl, rfl⟩
  | some slot => exact .inl ⟨slot, rfl, rfl⟩

theorem Grown.rooted (grown : store.Grown) : store.Rooted := by
  induction grown with
  | empty =>
    rintro id parent ⟨⟩
  | root before ih => exact rooted_root ih .empty
  | child before inside ih => exact rooted_opened ih inside .empty
  | define before inside name value ih => exact rooted_define ih _ name value
  | @assign store scope before inside name value ih =>
    rcases assigned_cases store scope name value with ⟨slot, -, same⟩ | ⟨-, same⟩ <;> rw [same]
    · exact rooted_define ih slot name value
    · exact ih

/-! ## Slots and lookups -/

/-- From each scope the slot of a name is the scope itself, if it has a binding, and otherwise
the slot as from the scope around it; a lookup gives what is in the slot. -/
structure Nearest (store : Store) : Prop where
  slots : ∀ scope < store.size, ∀ name, store.owner? scope name =
    if (store.variableIn? name scope).isSome then some scope
    else (store.parent? scope).bind fun around => store.owner? around name
  values : ∀ scope name,
    store.get? scope name = (store.owner? scope name).bind (store.variableIn? name)

theorem get?_eq_slot (scope : ScopeId) (name : String) :
    store.get? scope name = (store.owner? scope name).bind (store.variableIn? name) := by
  rw [get?, owner?]
  induction store.chain scope with
  | nil => rfl
  | cons nearest around ih =>
    rw [List.findSome?_cons, List.find?_cons, ih]
    cases bound : store.variableIn? name nearest with
    | none => rfl
    | some value => exact bound.symm

theorem Rooted.nearest (rooted : store.Rooted) : store.Nearest where
  slots scope inside name := by
    rw [owner?, chain_of_lt (rooted scope) inside, List.find?_cons]
    cases bound : (store.variableIn? name scope).isSome with
    | true => rfl
    | false => cases store.parent? scope <;> rfl
  values := get?_eq_slot

theorem owner?_isSome (scope : ScopeId) (name : String) :
    (store.owner? scope name).isSome = (store.get? scope name).isSome := by
  cases owns : store.owner? scope name with
  | none =>
    rw [get?_eq_slot, owns, Option.bind_none]
    rfl
  | some slot =>
    have bound : (store.variableIn? name slot).isSome = true :=
      List.find?_some (p := fun slot => (store.variableIn? name slot).isSome) owns
    rw [get?_eq_slot, owns, Option.bind_some, bound, Option.isSome_some]

/-! ## Values that change -/

/-- A name has another value now, from some scopes; no other lookup has changed. -/
structure Revalues (store after : Store) (name : String) (value : Value)
    (affected : ScopeId → Prop) : Prop where
  here : ∀ seen, affected seen → after.get? seen name = some value
  elsewhere : ∀ seen other, ¬ (other = name ∧ affected seen) →
    after.get? seen other = store.get? seen other
  functions : ∀ seen function, after.function? seen function = store.function? seen function

theorem chain_define (scope : ScopeId) (name : String) (value : Value) (seen : ScopeId) :
    (store.define scope name value).chain seen = store.chain seen := by
  refine chain_congr (fun id _ => ?_) (fun id _ => parent?_define store scope name value id)
    (Nat.lt_succ_self seen)
  rw [size_define]

theorem function?_define (scope : ScopeId) (name : String) (value : Value) (seen : ScopeId)
    (function : String) :
    (store.define scope name value).function? seen function = store.function? seen function := by
  rw [function?, function?, chain_define]
  exact findSome?_congr fun id _ => functionIn?_define store scope name value function id

theorem find?_of_new {list : List ScopeId} {before after : ScopeId → Bool} {new : ScopeId}
    (others : ∀ id, id ≠ new → after id = before id) (isNew : after new = true)
    (hidden : list.find? after ≠ some new) : list.find? after = list.find? before := by
  induction list with
  | nil => rfl
  | cons first rest ih =>
    have away : first ≠ new := by
      rintro rfl
      exact hidden (List.find?_cons_of_pos isNew)
    rw [List.find?_cons, others first away] at hidden ⊢
    rw [List.find?_cons]
    cases good : before first with
    | true => rfl
    | false =>
      rw [good] at hidden
      exact ih hidden

theorem revalues_define (inside : scope < store.size) (name : String) (value : Value) :
    Revalues store (store.define scope name value) name value
      fun seen => (store.define scope name value).owner? seen name = some scope where
  here seen isSlot := by
    rw [get?_eq_slot, isSlot, Option.bind_some, variableIn?_define inside, if_pos ⟨rfl, rfl⟩]
  elsewhere seen other apart := by
    by_cases same : other = name
    · subst same
      have hidden : (store.define scope other value).owner? seen other ≠ some scope :=
        fun isSlot => apart ⟨rfl, isSlot⟩
      have still : (store.define scope other value).owner? seen other = store.owner? seen other := by
        rw [owner?, owner?, chain_define] at *
        refine find?_of_new (fun id away => ?_) ?_ hidden
        · rw [variableIn?_define inside, if_neg fun both => away both.1.symm]
        · rw [variableIn?_define inside, if_pos ⟨rfl, rfl⟩, Option.isSome_some]
      rw [get?_eq_slot, get?_eq_slot, still]
      refine Option.bind_congr fun slot isSlot => ?_
      have away : slot ≠ scope := fun here => hidden (still.trans (isSlot.trans (congrArg some here)))
      rw [variableIn?_define inside, if_neg fun both => away both.1.symm]
    · rw [get?, get?, chain_define]
      refine findSome?_congr fun id _ => ?_
      rw [variableIn?_define inside, if_neg fun both => same both.2.symm]
  functions := function?_define scope name value

theorem revalues_assigned {slot : ScopeId} {name : String}
    (owns : store.owner? scope name = some slot) (value : Value) :
    Revalues store (store.define slot name value) name value
      fun seen => store.owner? seen name = some slot := by
  obtain ⟨before, bound⟩ : ∃ before, store.variableIn? name slot = some before :=
    Option.isSome_iff_exists.mp
      (List.find?_some (p := fun slot => (store.variableIn? name slot).isSome) owns)
  have slots (seen : ScopeId) :
      (store.define slot name value).owner? seen name = store.owner? seen name :=
    KeepsBelow.owner? (.assigned bound value) seen name
  have revalues := revalues_define (lt_size_of_owner? owns) name value
  simp only [slots] at revalues
  exact revalues

/-! ## Scopes that are opened -/

theorem shared_opened (store : Store) (parent : Option ScopeId) (vars : Bindings Value) :
    Shared (· < store.size) store (store.opened parent vars) where
  scopes _ inside := scope?_opened_below store parent vars inside
  closed _ _ _ around := lt_size_of_mem_chain around

theorem get?_child (rooted : store.Rooted) {parent : ScopeId} (inside : parent < store.size)
    (name : String) :
    (store.opened (some parent) .empty).get? store.size name = store.get? parent name := by
  have new : store.size < (store.opened (some parent) .empty).size := by
    rw [size_opened]
    exact Nat.lt_succ_self _
  rw [get?_eq (rooted_opened rooted inside .empty) new, variableIn?_opened, parent?_opened,
    Bindings.find?_empty, Option.none_or, Option.bind_some]
  exact (shared_opened store (some parent) .empty).get? inside name

/-! ## All stores -/

/-- However scopes were opened and variables were bound and assigned: assigning answers
whether the name has a slot, and changes what is seen from all scopes for which it is the
same slot; where there is none, nothing is changed. Binding changes what is seen from the
scopes for which the scope is then the slot. A new scope sees what the one around it sees. -/
theorem lookups_by_slots (grown : store.Grown) (inside : scope < store.size) (name : String)
    (value : Value) :
    store.Nearest ∧
      (store.assigned scope name value).1 = (store.get? scope name).isSome ∧
      (∀ after, store.assigned scope name value = (true, after) →
        ∃ slot, store.owner? scope name = some slot ∧
          Revalues store after name value fun seen => store.owner? seen name = some slot) ∧
      (∀ after, store.assigned scope name value = (false, after) → after = store) ∧
      (Revalues store (store.define scope name value) name value fun seen =>
        (store.define scope name value).owner? seen name = some scope) ∧
      (∀ other, (store.opened (some scope) .empty).get? store.size other =
        store.get? scope other) ∧
      ∀ function, (store.opened (some scope) .empty).function? store.size function =
        store.function? scope function := by
  refine ⟨grown.rooted.nearest, ?_, ?_, ?_, revalues_define inside name value,
    get?_child grown.rooted inside, function?_opened grown.rooted inside .empty⟩
  · rw [← owner?_isSome]
    rcases assigned_cases store scope name value with ⟨slot, owns, same⟩ | ⟨owns, same⟩ <;>
      rw [same, owns] <;> rfl
  · intro after answers
    rcases assigned_cases store scope name value with ⟨slot, owns, same⟩ | ⟨-, same⟩ <;>
      cases same.symm.trans answers
    exact ⟨slot, owns, revalues_assigned owns value⟩
  · intro after answers
    rcases assigned_cases store scope name value with ⟨slot, -, same⟩ | ⟨-, same⟩ <;>
      cases same.symm.trans answers
    rfl

/-- Two scopes in a root that has an `x`, and one in the first of them with its own. -/
def branching : Store :=
  ((((withRoot.define 0 "x" (.int 1)).opened (some 0) .empty).opened (some 0) .empty).opened
    (some 1) .empty).define 3 "x" (.int 2)

theorem branching_by_slots :
    branching.Grown ∧ 1 < branching.size ∧
      ∃ after, branching.assigned 1 "x" (.int 7) = (true, after) ∧
        after.get? 2 "x" = some (.int 7) ∧ after.get? 3 "x" = some (.int 2) := by
  have root : withRoot.Grown := .root .empty
  have grown : branching.Grown :=
    .define (.child (.child (.child (.define root (by decide) "x" (.int 1)) (by decide)) (by decide))
      (by decide)) (by decide) "x" (.int 2)
  have inside : 1 < branching.size := by decide
  have slots : branching.owner? 1 "x" = some 0 ∧ branching.owner? 2 "x" = some 0 ∧
      branching.owner? 3 "x" = some 3 := by decide +kernel
  obtain ⟨one, two, three⟩ := slots
  have answers : branching.assigned 1 "x" (.int 7) = (true, branching.define 0 "x" (.int 7)) := by
    rw [assigned, assign?, one]
    rfl
  obtain ⟨nearest, -, assigns, -⟩ := lookups_by_slots grown inside "x" (.int 7)
  obtain ⟨slot, owns, revalues⟩ := assigns _ answers
  cases one.symm.trans owns
  have away : ¬ ("x" = "x" ∧ branching.owner? 3 "x" = some 0) := by
    rintro ⟨-, owned⟩
    exact absurd (three.symm.trans owned) (by decide)
  refine ⟨grown, inside, _, answers, revalues.here 2 two, ?_⟩
  rw [revalues.elsewhere 3 "x" away, nearest.values, three]
  rfl

end Store

end RobotScript
