import RobotScript.Proofs.Running.Chains
import RobotScript.Tree

/-! # Heights

The height of a tree is how deep its nodes lie within one another, those of the
functions that it defines among them. A store is low if the bodies of its functions
are; it stays low while functions are added that are low themselves. -/
set_option autoImplicit false

namespace RobotScript

mutual

def Form.height : Form → Nat
  | .literal _ | .variable _ | .breaking | .continuing => 0
  | .unary _ operand => nodeHeight operand
  | .binary left _ right => max (nodeHeight left) (nodeHeight right)
  | .block statements => nodesHeight statements
  | .returning value => optionHeight value
  | .declare _ _ initializer => optionHeight initializer
  | .assign _ _ value => optionHeight value
  | .define definition => definitionHeight definition
  | .call _ arguments => nodesHeight arguments
  | .index _ position => nodeHeight position
  | .list elements => nodesHeight elements
  | .loop initializer condition step body =>
    max (max (nodeHeight initializer) (nodeHeight condition))
      (max (nodeHeight step) (nodeHeight body))
  | .repeating count body => max (nodeHeight count) (nodeHeight body)
  | .whileTrue condition body => max (nodeHeight condition) (nodeHeight body)
  | .chain branches otherwise => max (branchesHeight branches) (optionHeight otherwise)

def nodeHeight : Typed Form → Nat
  | ⟨form, _, _⟩ => form.height + 1

def nodesHeight : List (Typed Form) → Nat
  | [] => 0
  | node :: rest => max (nodeHeight node) (nodesHeight rest)

def optionHeight : Option (Typed Form) → Nat
  | none => 0
  | some node => nodeHeight node

def branchHeight : Branch Form → Nat
  | .test guard body _ => max (nodeHeight guard) (nodeHeight body)
  | .attempt body _ => nodeHeight body

def branchesHeight : List (Branch Form) → Nat
  | [] => 0
  | branch :: rest => max (branchHeight branch) (branchesHeight rest)

def definitionHeight : Definition Form → Nat
  | ⟨_, _, _, body⟩ => nodeHeight body

end

theorem nodeHeight_pos (node : Node) : 0 < nodeHeight node := by
  obtain ⟨form, ty, span⟩ := node
  exact Nat.succ_pos form.height

theorem definitionHeight_eq (function : Function) :
    definitionHeight function = nodeHeight function.body := by
  cases function
  rfl

theorem nodeHeight_le_nodesHeight {nodes : List Node} {node : Node} (member : node ∈ nodes) :
    nodeHeight node ≤ nodesHeight nodes := by
  induction nodes with
  | nil => cases member
  | cons head rest ih =>
    rw [nodesHeight]
    rcases List.mem_cons.mp member with rfl | member
    · exact Nat.le_max_left _ _
    · exact Nat.le_trans (ih member) (Nat.le_max_right _ _)

theorem nodeHeight_le_optionHeight {value : Option Node} {node : Node}
    (member : node ∈ value.toList) : nodeHeight node ≤ optionHeight value := by
  cases value with
  | none => cases member
  | some here =>
    obtain rfl := List.mem_singleton.mp member
    exact Nat.le_refl _

theorem branchHeight_le_branchesHeight {branches : List (Branch Form)} {branch : Branch Form}
    (member : branch ∈ branches) : branchHeight branch ≤ branchesHeight branches := by
  induction branches with
  | nil => cases member
  | cons head rest ih =>
    rw [branchesHeight]
    rcases List.mem_cons.mp member with rfl | member
    · exact Nat.le_max_left _ _
    · exact Nat.le_trans (ih member) (Nat.le_max_right _ _)

theorem statements_height_le (node : Node) : nodesHeight node.statements ≤ nodeHeight node := by
  obtain ⟨form, ty, span⟩ := node
  cases form with
  | block statements => exact Nat.le_succ _
  | _ => exact Nat.max_le.mpr ⟨Nat.le_refl _, Nat.zero_le _⟩

/-! ## Low stores -/

theorem Bindings.mem_of_find? {α : Type} {bindings : Bindings α} {name : String} {value : α}
    (found : bindings.find? name = some value) : (name, value) ∈ bindings.entries := by
  obtain ⟨entries⟩ := bindings
  change findIn name entries = some value at found
  induction entries with
  | nil => cases found
  | cons entry rest ih =>
    obtain ⟨key, held⟩ := entry
    rw [findIn] at found
    split at found
    next here =>
      obtain rfl := Option.some.inj found
      exact here ▸ List.mem_cons_self
    · exact List.mem_cons_of_mem _ (ih found)

namespace Store

/-- The functions of the store have bodies of at most this height. -/
def Low (height : Nat) (store : Store) : Prop :=
  ∀ id name closure, store.functionIn? name id = some closure →
    definitionHeight closure.function ≤ height

section

variable {height : Nat} {store : Store}

theorem Low.opened (low : store.Low height) (parent : Option ScopeId) (vars : Bindings Value) :
    (store.opened parent vars).Low height := by
  intro id name closure found
  rw [functionIn?, scope?_opened] at found
  split at found
  · cases found
  · exact low id name closure found

theorem Low.closed (low : store.Low height) : store.closed.Low height := by
  intro id name closure found
  rw [functionIn?] at found
  by_cases inside : id + 1 < store.size
  · rw [scope?_closed inside] at found
    exact low id name closure found
  · have outside : store.closed.size ≤ id := by
      rw [size_closed]
      exact Nat.sub_le_of_le_add (Nat.le_of_not_lt inside)
    rw [scope?_of_size_le outside] at found
    cases found

theorem Low.define (low : store.Low height) (scope : ScopeId) (name : String) (value : Value) :
    (store.define scope name value).Low height := by
  intro id label closure found
  rw [functionIn?_define] at found
  exact low id label closure found

theorem Low.defineFunction (low : store.Low height) {closure : Closure}
    (isLow : definitionHeight closure.function ≤ height) (scope : ScopeId) :
    (store.defineFunction scope closure).Low height := by
  intro id name other found
  by_cases inside : scope < store.size
  · rw [functionIn?_defineFunction inside] at found
    split at found
    · obtain rfl := Option.some.inj found
      exact isLow
    · exact low id name other found
  · -- Outside of the store there is no scope to keep the function in.
    have same : (store.defineFunction scope closure).functionIn? name id =
        store.functionIn? name id := by
      rw [functionIn?, functionIn?, scope?_defineFunction]
      split
      next here =>
        rw [scope?_of_size_le (here ▸ Nat.le_of_not_lt inside)]
        rfl
      · rfl
    exact low id name other (same ▸ found)

theorem Low.function? (low : store.Low height) {scope : ScopeId} {name : String}
    {closure : Closure} (found : store.function? scope name = some closure) :
    definitionHeight closure.function ≤ height := by
  obtain ⟨id, -, isStored⟩ := List.exists_of_findSome?_eq_some found
  exact low id name closure isStored

theorem Low.mono {most : Nat} (low : store.Low height) (less : height ≤ most) :
    store.Low most :=
  fun id name closure found => Nat.le_trans (low id name closure found) less

end

def bodies (store : Store) : List Node :=
  store.scopes.toList.flatMap fun scope =>
    scope.functions.entries.map fun entry => entry.2.function.body

def height (store : Store) : Nat := nodesHeight store.bodies

theorem low_height (store : Store) : store.Low store.height := by
  intro id name closure found
  obtain ⟨scope, isScope, isStored⟩ := Option.bind_eq_some_iff.mp found
  have isEntry := Bindings.mem_of_find? isStored
  have member : closure.function.body ∈ store.bodies := by
    refine List.mem_flatMap.mpr ⟨scope, ?_, List.mem_map.mpr ⟨_, isEntry, rfl⟩⟩
    exact Array.mem_toList_iff.mpr (Array.mem_of_getElem? isScope)
  rw [definitionHeight_eq]
  exact nodeHeight_le_nodesHeight member

end Store

end RobotScript
