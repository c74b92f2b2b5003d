import RobotScript.Ty

/-! # Operators and the types they take

`BinaryOp.result?` and `UnaryOp.result?` are the typing table of the language:
`none` says that the operator does not apply. -/
set_option autoImplicit false

namespace RobotScript

inductive UnaryOp where
  | negate
  | not
deriving DecidableEq, Repr

inductive BinaryOp where
  | add
  | subtract
  | multiply
  | divide
  | power
  | equal
  | notEqual
  | less
  | lessEqual
  | greater
  | greaterEqual
  | and
  | or
deriving DecidableEq, Repr

/-- How an assignment combines the variable with the value at its right. -/
inductive AssignOp where
  | set
  | compound (operator : BinaryOp)
  | increment
  | decrement
deriving DecidableEq, Repr

def UnaryOp.symbol : UnaryOp → String
  | .negate => "-"
  | .not => "not"

def BinaryOp.symbol : BinaryOp → String
  | .add => "+"
  | .subtract => "-"
  | .multiply => "*"
  | .divide => "/"
  | .power => "^"
  | .equal => "=="
  | .notEqual => "!="
  | .less => "<"
  | .lessEqual => "<="
  | .greater => ">"
  | .greaterEqual => ">="
  | .and => "and"
  | .or => "or"

def AssignOp.symbol : AssignOp → String
  | .set => "="
  | .compound operator => "=" ++ operator.symbol
  | .increment => "++"
  | .decrement => "--"

def UnaryOp.result? (operator : UnaryOp) (operand : Ty) : Option Ty :=
  match operator with
  | .negate => if operand.isNumeric then some operand else none
  | .not => if operand = .bool then some .bool else none

/-- A string joins with a string or a number on either side. -/
def Ty.joins (left right : Ty) : Bool :=
  (left = .string && (right.isNumeric || right = .string)) ||
    (right = .string && left.isNumeric)

def BinaryOp.result? (operator : BinaryOp) (left right : Ty) : Option Ty :=
  let numeric := left.isNumeric && right.isNumeric
  match operator with
  | .add =>
    if numeric then some (left.widest right)
    else if left.joins right then some .string
    else none
  | .subtract | .multiply | .power => if numeric then some (left.widest right) else none
  | .divide => if numeric then some .double else none
  | .less | .lessEqual | .greater | .greaterEqual => if numeric then some .bool else none
  | .equal | .notEqual =>
    if numeric || (left = .string && right = .string) || (left = .bool && right = .bool) then
      some .bool
    else none
  | .and | .or => if left = .bool && right = .bool then some .bool else none

end RobotScript
