import RobotScript.Evaluation
import RobotScript.Proofs.Tree.WithoutSpans

/-! # Machines without spans

The part of a machine on which a run depends: the stored functions without their
spans, and of the host only what a view shows. Every lookup and every change of a
store can be done on this part. -/
set_option autoImplicit false

namespace RobotScript

def Closure.bare (closure : Closure) : Closure :=
  ⟨definitionWithoutSpans closure.function, closure.home⟩

def Scope.bare (scope : Scope) : Scope :=
  { scope with functions := scope.functions.map Closure.bare }

namespace Store

def bare (store : Store) : Store := ⟨store.scopes.map Scope.bare⟩

variable (store : Store)

theorem size_bare : store.bare.size = store.size := Array.size_map

theorem scope?_bare (id : ScopeId) : store.bare.scope? id = (store.scope? id).map Scope.bare :=
  Array.getElem?_map

theorem variableIn?_bare (name : String) (id : ScopeId) :
    store.bare.variableIn? name id = store.variableIn? name id := by
  rw [variableIn?, variableIn?, scope?_bare]
  cases store.scope? id <;> rfl

theorem functionIn?_bare (name : String) (id : ScopeId) :
    store.bare.functionIn? name id = (store.functionIn? name id).map Closure.bare := by
  rw [functionIn?, functionIn?, scope?_bare]
  cases store.scope? id with
  | none => rfl
  | some scope => exact Bindings.find?_map Closure.bare scope.functions name

theorem chain_bare (id : ScopeId) : store.bare.chain id = store.chain id := by
  induction id using Nat.strongRecOn with
  | ind id ih =>
    rw [chain, chain, scope?_bare]
    cases store.scope? id with
    | none => rfl
    | some scope =>
      obtain ⟨vars, functions, parent, held⟩ := scope
      cases parent with
      | none => rfl
      | some parent =>
        show (if parent < id then id :: store.bare.chain parent else [id]) =
          if parent < id then id :: store.chain parent else [id]
        by_cases older : parent < id
        · rw [if_pos older, if_pos older, ih parent older]
        · rw [if_neg older, if_neg older]

theorem get?_bare (id : ScopeId) (name : String) :
    store.bare.get? id name = store.get? id name := by
  rw [get?, get?, chain_bare]
  exact congrArg (List.findSome? · _) (funext (store.variableIn?_bare name))

theorem owner?_bare (id : ScopeId) (name : String) :
    store.bare.owner? id name = store.owner? id name := by
  rw [owner?, owner?, chain_bare]
  exact congrArg (List.find? · _) (funext fun candidate => by rw [variableIn?_bare])

theorem function?_bare (id : ScopeId) (name : String) :
    store.bare.function? id name = (store.function? id name).map Closure.bare := by
  rw [function?, function?, chain_bare, funext (store.functionIn?_bare name)]
  induction store.chain id with
  | nil => rfl
  | cons first rest ih =>
    rw [List.findSome?_cons, List.findSome?_cons]
    cases store.functionIn? name first with
    | some closure => rfl
    | none => exact ih

theorem isHeld_bare (id : ScopeId) : store.bare.isHeld id = store.isHeld id := by
  rw [isHeld, isHeld, scope?_bare]
  cases store.scope? id <;> rfl

theorem isAlive_bare (id : ScopeId) : store.bare.isAlive id = store.isAlive id := by
  simp only [isAlive, isHeld_bare, size_bare, chain_bare]

theorem opened_bare (parent : Option ScopeId) (vars : Bindings Value) :
    (store.opened parent vars).bare = store.bare.opened parent vars := by
  simp only [opened, bare, Array.map_push]
  rfl

theorem closed_bare : store.closed.bare = store.bare.closed := by
  simp only [closed, bare, Array.map_pop]

theorem map_modify {α β : Type} (make : α → β) (items : Array α) (position : Nat)
    (change : α → α) (other : β → β) (same : ∀ item, make (change item) = other (make item)) :
    (items.modify position change).map make = (items.map make).modify position other := by
  apply Array.ext_getElem?
  intro index
  simp only [Array.getElem?_map, Array.getElem?_modify]
  split
  · cases items[index]? with
    | none => rfl
    | some item => exact congrArg some (same item)
  · rfl

theorem define_bare (id : ScopeId) (name : String) (value : Value) :
    (store.define id name value).bare = store.bare.define id name value :=
  congrArg Store.mk (map_modify Scope.bare store.scopes id
    (fun scope => { scope with vars := scope.vars.insert name value })
    (fun scope => { scope with vars := scope.vars.insert name value }) fun _ => rfl)

theorem assign?_bare (id : ScopeId) (name : String) (value : Value) :
    (store.assign? id name value).map bare = store.bare.assign? id name value := by
  rw [assign?, assign?, owner?_bare]
  cases store.owner? id name with
  | none => rfl
  | some owner => exact congrArg some (store.define_bare owner name value)

theorem insert_map {α β : Type} (change : α → β) (bindings : Bindings α) (name : String)
    (value : α) :
    (bindings.insert name value).map change = (bindings.map change).insert name (change value) := by
  obtain ⟨entries⟩ := bindings
  refine congrArg Bindings.mk ?_
  show (Bindings.insertIn name value entries).map (fun entry => (entry.1, change entry.2)) =
    Bindings.insertIn name (change value) (entries.map fun entry => (entry.1, change entry.2))
  induction entries with
  | nil => rfl
  | cons entry rest ih =>
    obtain ⟨key, old⟩ := entry
    by_cases here : key = name
    · simp [Bindings.insertIn, here]
    · simp [Bindings.insertIn, here, ih]

theorem defineFunction_bare (id : ScopeId) (closure : Closure) :
    (store.defineFunction id closure).bare = store.bare.defineFunction id closure.bare := by
  obtain ⟨⟨name, returns, parameters, body⟩, home⟩ := closure
  let closure : Closure := ⟨⟨name, returns, parameters, body⟩, home⟩
  refine congrArg Store.mk (map_modify Scope.bare store.scopes id
    (fun scope =>
      { scope with functions := scope.functions.insert closure.function.name closure })
    (fun scope =>
      { scope with functions := scope.functions.insert closure.bare.function.name closure.bare })
    fun scope => ?_)
  exact congrArg (fun functions => { scope with functions := functions })
    (insert_map Closure.bare scope.functions closure.function.name closure)

end Store

/-! ## Outcomes -/

def Machine.bare {Host Shown : Type} (view : Host → Shown) (machine : Machine Host) :
    Machine Shown := ⟨machine.store.bare, view machine.host, machine.steps, machine.depth⟩

def Fault.bare (fault : Fault) : Fault := ⟨fault.cause, default⟩

def Exit.bare : Exit → Exit
  | .fault reason => .fault reason.bare
  | .jump target => .jump target

def bareResult {α β : Type} (change : α → β) : Except Exit α → Except Exit β
  | .ok value => .ok (change value)
  | .error exit => .error exit.bare

def Outcome.bare {Host Shown α β : Type} (view : Host → Shown) (change : α → β)
    (outcome : Outcome Host α) : Outcome Shown β :=
  outcome.map fun ended => (bareResult change ended.1, ended.2.bare view)

def Evaluation.Ending.bare {Host Shown : Type} (view : Host → Shown)
    (ending : Evaluation.Ending Host) : Evaluation.Ending Shown :=
  ending.map fun ended => (ended.1.mapError Fault.bare, ended.2.bare view)

end RobotScript
