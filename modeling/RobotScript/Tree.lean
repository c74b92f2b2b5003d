import RobotScript.Context
import RobotScript.Operator
import RobotScript.Position
import RobotScript.Value

/-! # Script trees

A node is a form with its static type and its span; statements have type void.
A script is one node, a block of its top-level statements. -/
set_option autoImplicit false

namespace RobotScript

/-- A form with its static type and its place in the script. -/
structure Typed (α : Type) where
  form : α
  ty : Ty
  span : Span

structure Parameter where
  name : String
  ty : Ty
deriving DecidableEq, Repr

/-- A function as the script defines it. -/
structure Definition (α : Type) where
  name : String
  returns : Ty
  parameters : List Parameter
  body : Typed α

/-- A branch of a chain: `test` is taken if its guard is true, `attempt` unless
its body fails. -/
inductive Branch (α : Type) where
  | test (guard : Typed α) (body : Typed α) (span : Span)
  | attempt (body : Typed α) (span : Span)

inductive Form where
  | literal (value : Value)
  | variable (name : String)
  | unary (operator : UnaryOp) (operand : Typed Form)
  | binary (left : Typed Form) (operator : BinaryOp) (right : Typed Form)
  | block (statements : List (Typed Form))
  | returning (value : Option (Typed Form))
  | breaking
  | continuing
  | declare (name : String) (declared : Ty) (initializer : Option (Typed Form))
  | assign (name : String) (operator : AssignOp) (value : Option (Typed Form))
  | define (definition : Definition Form)
  | call (name : String) (arguments : List (Typed Form))
  | index (name : String) (position : Typed Form)
  | list (elements : List (Typed Form))
  | loop (initializer condition step body : Typed Form)
  | repeating (count body : Typed Form)
  | whileTrue (condition body : Typed Form)
  | chain (branches : List (Branch Form)) (otherwise : Option (Typed Form))

abbrev Node := Typed Form

abbrev Function := Definition Form

namespace Typed

instance : Inhabited Node := ⟨⟨.breaking, .void, default⟩⟩

def statement (form : Form) (span : Span) : Node := ⟨form, .void, span⟩

/-- The statements of a block; any other node is its own only statement. -/
def statements (node : Node) : List Node :=
  match node.form with
  | .block statements => statements
  | _ => [node]

end Typed

namespace Branch

def body : Branch Form → Node
  | test _ body _ => body
  | attempt body _ => body

def span : Branch Form → Span
  | test _ _ span => span
  | attempt _ span => span

end Branch

namespace Definition

/-- The signature under which calls are checked. -/
def signature (function : Function) : Signature :=
  ⟨.exactly (function.parameters.map (·.ty)), function.returns⟩

end Definition

end RobotScript
