import RobotScript.Evaluation
import RobotScript.Grammar.Script

/-! # Scripts and turns

A script is compiled once and then runs once in each turn, always in a fresh
scope: what it declares in one turn is gone in the next, only the host stays. A
turn that fails does not keep the next one from running. -/
set_option autoImplicit false

namespace RobotScript

variable {Host : Type}

/-- The tree of a script whose calls fit the natives. -/
def compile (natives : NativeTable Host) (source : String) : Except Fault Node :=
  match parseText source natives.context with
  | .ok (root, _) => .ok root
  | .error fault => .error fault

def runFresh (setup : Setup Host) (fuel : Nat) (root : Node) (host : Host) :
    Evaluation.Ending Host :=
  Evaluation.runIn setup fuel root 0 (Machine.ready Store.withRoot host)

structure TurnSummary where
  compiled : Bool
  completed : Nat
  failed : Nat
deriving DecidableEq, Repr

namespace TurnSummary

def start : TurnSummary := ⟨true, 0, 0⟩

def uncompiled : TurnSummary := ⟨false, 0, 0⟩

def count (summary : TurnSummary) : Except Fault Value → TurnSummary
  | .ok _ => { summary with completed := summary.completed + 1 }
  | .error _ => { summary with failed := summary.failed + 1 }

def clean (summary : TurnSummary) : Bool := summary.compiled && summary.failed = 0

end TurnSummary

/-- One turn: the host is told its number, then the script runs. -/
def playTurn (setup : Setup Host) (fuel : Nat) (root : Node) (enter : Host → Nat → Host)
    (turn : Nat) (host : Host) : Option (Except Fault Value × Host) :=
  match runFresh setup fuel root (enter host turn) with
  | none => none
  | some (result, machine) => some (result, machine.host)

/-- Plays a number of turns, the first of which is `turn`. -/
def playFrom (setup : Setup Host) (fuel : Nat) (root : Node) (enter : Host → Nat → Host) :
    (left turn : Nat) → TurnSummary → Host → Option (TurnSummary × Host)
  | 0, _, summary, host => some (summary, host)
  | left + 1, turn, summary, host =>
    match playTurn setup fuel root enter turn host with
    | none => none
    | some (result, after) =>
      playFrom setup fuel root enter left (turn + 1) (summary.count result) after

/-- Compiles a script and plays it for a number of turns, counted from one. -/
def playTurns (setup : Setup Host) (fuel : Nat) (source : String) (turns : Nat)
    (enter : Host → Nat → Host) (host : Host) : Option (TurnSummary × Host) :=
  match compile setup.natives source with
  | .error _ => some (.uncompiled, host)
  | .ok root => playFrom setup fuel root enter turns 1 .start host

end RobotScript
