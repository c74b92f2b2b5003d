import RobotScript.Context
import RobotScript.Decimal.Numeral
import RobotScript.Value

/-! # Natives

A native is a function that the host offers to scripts, and their only way to
the host: it gets the values of its arguments and the host, and gives a result
or the reason why it failed, with the host as it is then. -/
set_option autoImplicit false

namespace RobotScript

structure Native (Host : Type) where
  signature : Signature
  run : List Value → Host → Except String Value × Host

abbrev NativeTable (Host : Type) := Bindings (Native Host)

namespace NativeTable

variable {Host : Type}

/-- The context of a script that has declared nothing yet. -/
def context (natives : NativeTable Host) : Context :=
  .withNatives (natives.map (·.signature))

end NativeTable

namespace Native

variable {Host : Type}

/-- A native that only looks at its arguments. -/
def pure (parameters : List Ty) (returns : Ty) (result : List Value → Except String Value) :
    Native Host :=
  ⟨⟨.exactly parameters, returns⟩, fun arguments host => (result arguments, host)⟩

def constant (returns : Ty) (value : Value) : Native Host :=
  pure [] returns fun _ => .ok value

/-- Writes its arguments as one line, with nothing between them. -/
def print (write : String → Host → Host) : Native Host :=
  ⟨⟨.anyNumber, .void⟩, fun arguments host =>
    (.ok .void, write (String.join (arguments.map Value.text)) host)⟩

/-- Tells the number of the turn, which has to fit an int. -/
def turn (read : Host → Int) : Native Host :=
  ⟨⟨.exactly [], .int⟩, fun _ host =>
    (match Decimal.exactInt? (read host) with
      | some number => .ok (.int number)
      | none => .error "turn counter overflowed", host)⟩

end Native

end RobotScript
