import RobotScript.Native

/-! # A simulation without robots

The least host that a script can talk to: it knows the number of the turn and
keeps the lines that were printed. -/
set_option autoImplicit false

namespace RobotScript

structure Simulation where
  turn : Int
  /-- The lines printed so far, the last one first. -/
  printed : List String
deriving DecidableEq, Repr

namespace Simulation

def fresh : Simulation := ⟨0, []⟩

instance : Inhabited Simulation := ⟨fresh⟩

def write (line : String) (host : Simulation) : Simulation :=
  { host with printed := line :: host.printed }

def enterTurn (host : Simulation) (turn : Int) : Simulation := { host with turn := turn }

def lines (host : Simulation) : List String := host.printed.reverse

/-- Hands the printed lines over: they are no longer kept. -/
def flushed (host : Simulation) : Simulation := { host with printed := [] }

/-- What a script can do here: print a line and ask for the turn. -/
def natives : NativeTable Simulation :=
  .ofList [("print", .print write), ("turn", .turn (·.turn))]

end Simulation

end RobotScript
