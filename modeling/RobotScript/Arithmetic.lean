import RobotScript.Decimal.Numeral
import RobotScript.Fault
import RobotScript.Value

/-! # Operators on values

Ints are computed exactly; a result that does not fit an int is a fault, never
another number. An int beside a double counts as the nearest double. A string
joins with the text of anything. -/
set_option autoImplicit false

namespace RobotScript

def recoverable {α : Type} (cause : RecoverableCause) : Except Cause α :=
  .error (.recoverable cause)

def fatal {α : Type} (cause : FatalCause) : Except Cause α := .error (.fatal cause)

/-- An exact result as an int. -/
def exactly (operator : BinaryOp) (number : Int) : Except Cause Value :=
  match Decimal.exactInt? number with
  | some result => .ok (.int result)
  | none => recoverable (.overflow operator)

/-- The largest exponent that is tried on every base. -/
def largestExponent : Int := 4294967295

/-- Powers of ints. Zero, one and minus one have powers for every exponent; any
other base overflows from exponent 64 on. -/
def intPower (base exponent : Int64) : Except Cause Value :=
  let number := exponent.toInt
  if number < 0 then recoverable .negativeExponent
  else if base = 0 then .ok (.int (if number = 0 then 1 else 0))
  else if base = 1 then .ok (.int 1)
  else if base = -1 then .ok (.int (if number % 2 = 0 then 1 else -1))
  else if largestExponent < number then recoverable (.exponentTooLarge exponent)
  else if 64 ≤ number then recoverable (.overflow .power)
  else exactly .power (Int.pow base.toInt number.toNat)

def numbers (operator : BinaryOp) (left right : Value) : Except Cause (Float × Float) :=
  match left.asDouble?, right.asDouble? with
  | some first, some second => .ok (first, second)
  | _, _ => fatal (.binaryMismatch operator left.ty right.ty)

/-- An operator that computes exactly on two ints and otherwise on doubles. -/
def arithmetic (operator : BinaryOp) (onInts : Int64 → Int64 → Except Cause Value)
    (onDoubles : Float → Float → Float) (left right : Value) : Except Cause Value :=
  match left, right with
  | .int first, .int second => onInts first second
  | _, _ =>
    match numbers operator left right with
    | .ok (first, second) => .ok (.double (onDoubles first second))
    | .error cause => .error cause

def add : Value → Value → Except Cause Value :=
  arithmetic .add (fun first second => exactly .add (first.toInt + second.toInt))
    (fun first second => first + second)

def subtract : Value → Value → Except Cause Value :=
  arithmetic .subtract (fun first second => exactly .subtract (first.toInt - second.toInt))
    (fun first second => first - second)

def multiply : Value → Value → Except Cause Value :=
  arithmetic .multiply (fun first second => exactly .multiply (first.toInt * second.toInt))
    (fun first second => first * second)

def raise : Value → Value → Except Cause Value :=
  arithmetic .power intPower (fun first second => Float.pow first second)

/-- The sum of numbers, or two texts joined if one side is a string. -/
def addOrJoin (left right : Value) : Except Cause Value :=
  match left, right with
  | .string characters, _ => .ok (.string (characters ++ right.text))
  | _, .string characters => .ok (.string (left.text ++ characters))
  | _, _ => add left right

/-- Division is always that of doubles. -/
def divide (left right : Value) : Except Cause Value :=
  match numbers .divide left right with
  | .ok (first, second) =>
    if second == 0 then recoverable .divisionByZero else .ok (.double (first / second))
  | .error cause => .error cause

/-- Ints compare exactly, other numbers as doubles, all else by kind and content. -/
def equals (left right : Value) : Bool :=
  match left, right with
  | .int first, .int second => first = second
  | _, _ =>
    match left.asDouble?, right.asDouble? with
    | some first, some second => first == second
    | _, _ => left.same right

/-- An order of numbers, all taken as doubles. -/
def compare (operator : BinaryOp) (holds : Float → Float → Bool) (left right : Value) :
    Except Cause Value :=
  match numbers operator left right with
  | .ok (first, second) => .ok (.bool (holds first second))
  | .error cause => .error cause

def truth (value : Value) : Except Cause Bool :=
  match value.asBool? with
  | some result => .ok result
  | none => fatal (.expectedBool value.ty)

def logic (combine : Bool → Bool → Bool) (left right : Value) : Except Cause Value :=
  match truth left, truth right with
  | .ok first, .ok second => .ok (.bool (combine first second))
  | .error cause, _ => .error cause
  | _, .error cause => .error cause

def BinaryOp.apply (operator : BinaryOp) (left right : Value) : Except Cause Value :=
  match operator with
  | .add => addOrJoin left right
  | .subtract => RobotScript.subtract left right
  | .multiply => RobotScript.multiply left right
  | .divide => RobotScript.divide left right
  | .power => raise left right
  | .equal => .ok (.bool (equals left right))
  | .notEqual => .ok (.bool !(equals left right))
  | .less => compare .less (fun first second => first < second) left right
  | .lessEqual => compare .lessEqual (fun first second => first ≤ second) left right
  | .greater => compare .greater (fun first second => second < first) left right
  | .greaterEqual => compare .greaterEqual (fun first second => second ≤ first) left right
  | .and => logic (· && ·) left right
  | .or => logic (· || ·) left right

def UnaryOp.apply (operator : UnaryOp) (operand : Value) : Except Cause Value :=
  match operator, operand with
  | .negate, .int number =>
    match Decimal.exactInt? (-number.toInt) with
    | some result => .ok (.int result)
    | none => recoverable .negationOverflow
  | .negate, .double number => .ok (.double (-number))
  | .not, .bool value => .ok (.bool !value)
  | _, _ => fatal (.unaryMismatch operator operand.ty)

end RobotScript
