import RobotScript.Fault
import RobotScript.Native
import RobotScript.Scope

/-! # The machine a script runs on

A run changes the store and the host and counts its steps and the function
bodies it is in. It ends with a result, with a fault or with a jump that looks
for its target; the machine is then as the run left it. A run with too little
fuel ends with nothing, which says nothing about the script. -/
set_option autoImplicit false

namespace RobotScript

structure Limits where
  /-- Statements and rounds of loops; unbounded if there is no number. -/
  maxSteps : Option Nat
  /-- Function bodies that may be entered within one another. -/
  maxDepth : Nat
deriving DecidableEq, Repr

def Limits.standard : Limits := ⟨none, 200⟩

instance : Inhabited Limits := ⟨Limits.standard⟩

/-- What stays the same during a run. -/
structure Setup (Host : Type) where
  natives : NativeTable Host
  limits : Limits
  /-- Asked at every step, with its number, whether the run may go on. -/
  watch : Option (Nat → Host → Bool × Host)

structure Machine (Host : Type) where
  store : Store
  host : Host
  /-- The steps so far. A count of 64 bits tells the same under every limit but `2 ^ 64 - 1`,
  which it cannot exceed; without a limit it would be full after as many steps. -/
  steps : Nat
  depth : Nat

def Machine.ready {Host : Type} (store : Store) (host : Host) : Machine Host :=
  ⟨store, host, 0, 0⟩

/-- Where control goes when it does not go on. -/
inductive Jump where
  | toCaller (value : Value)
  | behindLoop
  | nextRound

/-- Why a run does not go on with a result. -/
inductive Exit where
  | fault (fault : Fault)
  | jump (jump : Jump)

abbrev Outcome (Host α : Type) := Option (Except Exit α × Machine Host)

def Run (Host α : Type) : Type := Machine Host → Outcome Host α

namespace Run

variable {Host α β : Type}

@[inline] def pure (value : α) : Run Host α := fun machine => some (.ok value, machine)

@[inline] def bind (first : Run Host α) (next : α → Run Host β) : Run Host β := fun machine =>
  match first machine with
  | none => none
  | some (.error exit, after) => some (.error exit, after)
  | some (.ok value, after) => next value after

instance : Monad (Run Host) where
  pure := pure
  bind := bind

def exhausted : Run Host α := fun _ => none

def stop (exit : Exit) : Run Host α := fun machine => some (.error exit, machine)

def fail (cause : Cause) (span : Span) : Run Host α := stop (.fault ⟨cause, span⟩)

/-- The outcome of an operation on values, at a place. -/
def lift (span : Span) : Except Cause α → Run Host α
  | .ok value => pure value
  | .error cause => fail cause span

/-- Runs to the end, whatever it is, and goes on with it. -/
@[inline] def settle (body : Run Host α) : Run Host (Except Exit α) := fun machine =>
  match body machine with
  | none => none
  | some (result, after) => some (.ok result, after)

@[inline] def store : Run Host Store := fun machine => some (.ok machine.store, machine)

@[inline] def changeStore (change : Store → Store) : Run Host Unit := fun machine =>
  some (.ok (), { machine with store := change machine.store })

@[inline] def onHost (action : Host → α × Host) : Run Host α := fun machine =>
  let (result, host) := action machine.host
  some (.ok result, { machine with host := host })

def depth : Run Host Nat := fun machine => some (.ok machine.depth, machine)

/-- Counts one more step; its number is the count behind it. -/
def countStep : Run Host Nat := fun machine =>
  some (.ok (machine.steps + 1), { machine with steps := machine.steps + 1 })

/-- Runs in a new scope, which is closed however the run ends. -/
@[inline] def inScope (parent : ScopeId) (vars : Bindings Value) (body : ScopeId → Run Host α) :
    Run Host α := fun machine =>
  let entered := { machine with store := machine.store.opened (some parent) vars }
  match body machine.store.size entered with
  | none => none
  | some (result, after) => some (result, { after with store := after.store.closed })

@[inline] def deeper (body : Run Host α) : Run Host α := fun machine =>
  match body { machine with depth := machine.depth + 1 } with
  | none => none
  | some (result, after) => some (result, { after with depth := after.depth - 1 })

end Run

end RobotScript
