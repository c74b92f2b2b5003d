import RobotScript.Ty
import RobotScript.Decimal.Places

/-! # Values

What a script computes with. A list carries the primitive of its items, so that
an empty list still has a type. `widenTo` is the one implicit conversion: an int
becomes a double, and the ints of an int list become doubles. -/
set_option autoImplicit false

namespace RobotScript

inductive Value where
  | int (number : Int64)
  | double (number : Float)
  | bool (truth : Bool)
  | string (characters : String)
  | list (element : Primitive) (items : List Value)
  | void

namespace Value

instance : Inhabited Value := ⟨void⟩

def ty : Value → Ty
  | int _ => .int
  | double _ => .double
  | bool _ => .bool
  | string _ => .string
  | list element _ => .listOf element
  | void => .void

/-- The value of a variable declared without an initializer. -/
def default (ty : Ty) : Value :=
  if ty.isList then list ty.primitive []
  else
    match ty.primitive with
    | .int => int 0
    | .double => double 0
    | .bool => bool false
    | .string => string ""
    | .void => void

def nearestDouble (number : Int64) : Float := Float.ofInt number.toInt

def asBool? : Value → Option Bool
  | bool truth => some truth
  | _ => none

def asInt? : Value → Option Int64
  | int number => some number
  | _ => none

def asDouble? : Value → Option Float
  | int number => some (nearestDouble number)
  | double number => some number
  | _ => none

def widen : Value → Value
  | int number => double (nearestDouble number)
  | value => value

/-- Widens a value if the target type asks for it; any other value stays. -/
def widenTo (target : Ty) (value : Value) : Value :=
  match value with
  | int number => if target = .double then double (nearestDouble number) else int number
  | list .int items =>
    if target = .listOf .double then list .double (items.map widen) else list .int items
  | other => other

mutual

/-- How a value is printed; a string is printed bare. -/
def text : Value → String
  | int number => Decimal.intText number
  | double number => Decimal.doubleText number
  | bool truth => if truth then "true" else "false"
  | string characters => characters
  | list _ items => "[" ++ itemsText items ++ "]"
  | void => "void"

def itemsText : List Value → String
  | [] => ""
  | [item] => item.text
  | item :: next :: rest => item.text ++ ", " ++ itemsText (next :: rest)

end

mutual

/-- Equality of values as the language has it: doubles compare as numbers, so
what is not a number differs from itself. -/
def same : Value → Value → Bool
  | int left, int right => left = right
  | double left, double right => left == right
  | bool left, bool right => left = right
  | string left, string right => left = right
  | list element items, list other others => element = other && sameItems items others
  | void, void => true
  | _, _ => false

def sameItems : List Value → List Value → Bool
  | [], [] => true
  | left :: lefts, right :: rights => same left right && sameItems lefts rights
  | _, _ => false

end

end Value

end RobotScript
