import RobotScript.Tree

/-! # Scopes at run time

The store numbers the scopes in the order in which they were opened. A scope has
variables, functions and, unless it is a root, the scope around it, which is
older. Looking up a name follows the chain from a scope outwards and takes the
nearest binding.

A function remembers its home, the scope in which it was defined, without
keeping it alive: a scope lives as long as it is held or lies on the chain of a
scope that is. -/
set_option autoImplicit false

namespace RobotScript

abbrev ScopeId := Nat

structure Closure where
  function : Function
  home : ScopeId

structure Scope where
  vars : Bindings Value
  functions : Bindings Closure
  parent : Option ScopeId
  held : Bool

instance : Inhabited Scope := ⟨⟨.empty, .empty, none, false⟩⟩

structure Store where
  scopes : Array Scope

namespace Store

def empty : Store := ⟨#[]⟩

instance : Inhabited Store := ⟨empty⟩

/-- The number that the next scope gets. -/
def size (store : Store) : Nat := store.scopes.size

def scope? (store : Store) (id : ScopeId) : Option Scope := store.scopes[id]?

/-- Opens a scope with its first variables; its number is the size before. -/
def opened (store : Store) (parent : Option ScopeId) (vars : Bindings Value) : Store :=
  ⟨store.scopes.push ⟨vars, .empty, parent, true⟩⟩

/-- Closes the scope opened last. -/
def closed (store : Store) : Store := ⟨store.scopes.pop⟩

/-- Lets a scope go without closing it. -/
def released (store : Store) (id : ScopeId) : Store :=
  ⟨store.scopes.modify id fun scope => { scope with held := false }⟩

/-- A scope and the scopes around it, the nearest first. -/
def chain (store : Store) (id : ScopeId) : List ScopeId :=
  match store.scope? id with
  | none => []
  | some scope =>
    match scope.parent with
    | none => [id]
    | some parent => if parent < id then id :: store.chain parent else [id]
termination_by id

def variableIn? (store : Store) (name : String) (id : ScopeId) : Option Value :=
  (store.scope? id).bind fun scope => scope.vars.find? name

def functionIn? (store : Store) (name : String) (id : ScopeId) : Option Closure :=
  (store.scope? id).bind fun scope => scope.functions.find? name

def get? (store : Store) (id : ScopeId) (name : String) : Option Value :=
  (store.chain id).findSome? (store.variableIn? name)

def function? (store : Store) (id : ScopeId) (name : String) : Option Closure :=
  (store.chain id).findSome? (store.functionIn? name)

def owner? (store : Store) (id : ScopeId) (name : String) : Option ScopeId :=
  (store.chain id).find? fun candidate => (store.variableIn? name candidate).isSome

/-- Binds a variable in the scope itself, over any binding it has there. -/
def define (store : Store) (id : ScopeId) (name : String) (value : Value) : Store :=
  ⟨store.scopes.modify id fun scope =>
    { scope with vars := scope.vars.insert name value }⟩

/-- Changes the nearest binding of a variable; nothing if there is none. -/
def assign? (store : Store) (id : ScopeId) (name : String) (value : Value) : Option Store :=
  (store.owner? id name).map fun owner => store.define owner name value

/-- Keeps a function in a scope under its name. -/
def defineFunction (store : Store) (id : ScopeId) (closure : Closure) : Store :=
  ⟨store.scopes.modify id fun scope =>
    { scope with functions := scope.functions.insert closure.function.name closure }⟩

def isHeld (store : Store) (id : ScopeId) : Bool :=
  match store.scope? id with
  | none => false
  | some scope => scope.held

def isAlive (store : Store) (id : ScopeId) : Bool :=
  store.isHeld id ||
    (List.range store.size).any fun other => store.isHeld other && (store.chain other).contains id

/-- A store with one root, scope 0. -/
def withRoot : Store := empty.opened none .empty

end Store

end RobotScript
