import RobotScript.Simulation

/-! # Natives to try scripts with

Beside `print` and `turn` this table has a native for each way in which one can
meet a script: it widens, fails, breaks its own signature, gives a list or what
is not a number, or takes any number of arguments. -/
set_option autoImplicit false

namespace RobotScript.Workbench

def twice : List Value → Except String Value
  | [.double number] => .ok (.double (2 * number))
  | _ => .error "expected one double"

def fail (arguments : List Value) : Except String Value :=
  .error ((arguments.head?.map Value.text).getD "")

/-- The ints from zero up to, not including, the argument; at most a hundred. -/
def ints : List Value → Except String Value
  | [.int number] =>
    .ok (.list .int ((List.range (min number.toInt.toNat 100)).map fun item =>
      .int (Int64.ofNat item)))
  | _ => .error "expected one int"

def total : List Value → Except String Value
  | [.list .double items] =>
    .ok (.double ((items.filterMap Value.asDouble?).foldl (· + ·) 0))
  | _ => .error "expected one double list"

def len : List Value → Except String Value
  | [.string characters] => .ok (.int (Int64.ofNat characters.length))
  | _ => .error "expected one string"

def mix (arguments : List Value) : Except String Value :=
  .ok (.string (";".intercalate
    (arguments.map fun argument => argument.ty.text ++ "=" ++ argument.text)))

def count (arguments : List Value) : Except String Value :=
  .ok (.int (Int64.ofNat arguments.length))

def join (arguments : List Value) : Except String Value :=
  .ok (.string (",".intercalate (arguments.map Value.text)))

def anyNumber (returns : Ty) (result : List Value → Except String Value) : Native Simulation :=
  ⟨⟨.anyNumber, returns⟩, fun arguments host => (result arguments, host)⟩

def natives : NativeTable Simulation :=
  .ofList
    [("print", .print Simulation.write),
     ("turn", .turn (·.turn)),
     ("twice", .pure [.double] .double twice),
     ("fail", .pure [.string] .int fail),
     ("broken", .constant .int (.string "oops")),
     ("badvoid", .constant .void (.int 1)),
     ("voidint", .constant .int .void),
     ("wide", .constant .double (.int 3)),
     ("ints", .pure [.int] (.listOf .int) ints),
     ("widelist", .constant (.listOf .double) (.list .int [.int 1, .int 2])),
     ("total", .pure [.listOf .double] .double total),
     ("len", .pure [.string] .int len),
     ("mix", .pure [.int, .double, .bool, .string] .string mix),
     ("nan", .constant .double (.double (0 / 0))),
     ("inf", .constant .double (.double (1 / 0))),
     ("count", anyNumber .int count),
     ("join", anyNumber .string join)]

end RobotScript.Workbench
