import RobotScript.Bindings
import RobotScript.Ty

/-! # Declarations in view

While a script is read, a context knows what its names mean: the natives of the
host and a chain of scopes, of which there is always at least one. Variables and
functions are named apart. A name may be declared once in each scope, an inner
declaration hides the outer ones, and no function takes the name of a native. -/
set_option autoImplicit false

namespace RobotScript

/-- What a function may be called with. -/
inductive Parameters where
  | exactly (types : List Ty)
  /-- Any number of arguments that have a value. -/
  | anyNumber
deriving DecidableEq, Repr

structure Signature where
  parameters : Parameters
  returns : Ty
deriving DecidableEq, Repr

/-- The declarations of one scope. -/
structure Declarations where
  vars : Bindings Ty
  functions : Bindings Signature
deriving DecidableEq, Repr

inductive Refusal where
  | duplicate
  | native
deriving DecidableEq, Repr

structure Context where
  natives : Bindings Signature
  innermost : Declarations
  enclosing : List Declarations
deriving DecidableEq, Repr

def Declarations.empty : Declarations := ⟨.empty, .empty⟩

namespace Context

def withNatives (natives : Bindings Signature) : Context := ⟨natives, .empty, []⟩

def scopes (context : Context) : List Declarations := context.innermost :: context.enclosing

def depth (context : Context) : Nat := context.scopes.length

def push (context : Context) : Context :=
  { context with innermost := .empty, enclosing := context.scopes }

/-- Leaves the innermost scope; the outermost one is never left. -/
def pop (context : Context) : Context :=
  match context.enclosing with
  | [] => context
  | outer :: rest => { context with innermost := outer, enclosing := rest }

def popTimes : Nat → Context → Context
  | 0, context => context
  | count + 1, context => popTimes count context.pop

/-- Leaves every scope above a depth recorded before. -/
def truncate (context : Context) (depth : Nat) : Context :=
  popTimes (context.depth - depth) context

def declareVariable (context : Context) (name : String) (ty : Ty) : Except Refusal Context :=
  let scope := context.innermost
  if scope.vars.binds name then .error .duplicate
  else .ok { context with
    innermost := { scope with vars := scope.vars.insert name ty } }

def declareFunction (context : Context) (name : String) (signature : Signature) :
    Except Refusal Context :=
  let scope := context.innermost
  if context.natives.binds name then .error .native
  else if scope.functions.binds name then .error .duplicate
  else .ok { context with
    innermost := { scope with functions := scope.functions.insert name signature } }

def variableType? (context : Context) (name : String) : Option Ty :=
  context.scopes.findSome? fun scope => scope.vars.find? name

/-- Natives come before every function of the script. -/
def signature? (context : Context) (name : String) : Option Signature :=
  match context.natives.find? name with
  | some signature => some signature
  | none => context.scopes.findSome? fun scope => scope.functions.find? name

end Context

end RobotScript
