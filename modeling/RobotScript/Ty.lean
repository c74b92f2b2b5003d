/-! # Types

A script knows four kinds of values and lists of them. `void` marks what has no
value: statements, and functions that return nothing. Lists are one level deep. -/
set_option autoImplicit false

namespace RobotScript

inductive Primitive where
  | int
  | double
  | bool
  | string
  | void
deriving DecidableEq, Repr

def Primitive.text : Primitive → String
  | .int => "int"
  | .double => "double"
  | .bool => "bool"
  | .string => "string"
  | .void => "void"

structure Ty where
  primitive : Primitive
  isList : Bool
deriving DecidableEq, Repr

namespace Ty

def scalar (primitive : Primitive) : Ty := ⟨primitive, false⟩

def listOf (primitive : Primitive) : Ty := ⟨primitive, true⟩

@[match_pattern] def int : Ty := ⟨.int, false⟩
@[match_pattern] def double : Ty := ⟨.double, false⟩
@[match_pattern] def bool : Ty := ⟨.bool, false⟩
@[match_pattern] def string : Ty := ⟨.string, false⟩
@[match_pattern] def void : Ty := ⟨.void, false⟩

instance : Inhabited Ty := ⟨void⟩

def text (ty : Ty) : String :=
  if ty.isList then ty.primitive.text ++ "[]" else ty.primitive.text

/-- The type of one item of a list type; a scalar type is its own element. -/
def element (ty : Ty) : Ty := scalar ty.primitive

def isVoid (ty : Ty) : Bool := ty = void

def isNumeric (ty : Ty) : Bool := ty = int || ty = double

/-- Whether a value of type `source` may be stored where `target` is expected:
an int widens to a double, all else matches exactly, and void is never stored. -/
def accepts (target source : Ty) : Bool :=
  !target.isVoid && !source.isVoid &&
    (target = source || (target = double && source = int))

def widest (left right : Ty) : Ty :=
  if left = double || right = double then double else int

end Ty

end RobotScript
