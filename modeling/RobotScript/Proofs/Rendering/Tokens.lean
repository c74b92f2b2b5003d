import RobotScript.Decimal.Numeral
import RobotScript.Proofs.Tree.WithoutSpans
import RobotScript.Token

/-! # Writing trees as tokens

A tree is written with as few parentheses as the levels of its operators allow:
an operand is put in parentheses only if its own level is looser than its
position asks for. Chains that are values always have them around their
conditions and branches. What the grammar leaves open is a matter of style. -/
set_option autoImplicit false

namespace RobotScript

/-! ## The literals of a tree -/

mutual

def Form.literals : Form → List Value
  | .literal value => [value]
  | .unary _ operand => nodeLiterals operand
  | .binary left _ right => nodeLiterals left ++ nodeLiterals right
  | .block statements => nodesLiterals statements
  | .returning value => optionLiterals value
  | .declare _ _ initializer => optionLiterals initializer
  | .assign _ _ value => optionLiterals value
  | .define definition => definitionLiterals definition
  | .call _ arguments => nodesLiterals arguments
  | .index _ position => nodeLiterals position
  | .list elements => nodesLiterals elements
  | .loop initializer condition step body =>
    nodeLiterals initializer ++ nodeLiterals condition ++ nodeLiterals step ++ nodeLiterals body
  | .repeating count body => nodeLiterals count ++ nodeLiterals body
  | .whileTrue condition body => nodeLiterals condition ++ nodeLiterals body
  | .chain branches otherwise => branchesLiterals branches ++ optionLiterals otherwise
  | .variable _ | .breaking | .continuing => []

def nodeLiterals : Typed Form → List Value
  | ⟨form, _, _⟩ => form.literals

def nodesLiterals : List (Typed Form) → List Value
  | [] => []
  | node :: rest => nodeLiterals node ++ nodesLiterals rest

def optionLiterals : Option (Typed Form) → List Value
  | none => []
  | some node => nodeLiterals node

def branchLiterals : Branch Form → List Value
  | .test guard body _ => nodeLiterals guard ++ nodeLiterals body
  | .attempt body _ => nodeLiterals body

def branchesLiterals : List (Branch Form) → List Value
  | [] => []
  | branch :: rest => branchLiterals branch ++ branchesLiterals rest

def definitionLiterals : Definition Form → List Value
  | ⟨_, _, _, body⟩ => nodeLiterals body

end

namespace Rendering

/-! ## Levels -/

def infixLevel : BinaryOp → Nat
  | .and | .or => 1
  | .equal | .notEqual | .less | .lessEqual | .greater | .greaterEqual => 3
  | .add | .subtract => 4
  | .multiply | .divide => 5
  | .power => 6

def prefixLevel : UnaryOp → Nat
  | .not => 2
  | .negate => 7

/-- The level of a form without parentheses; what holds together best is 8. -/
def level : Form → Nat
  | .assign _ _ _ | .chain _ _ => 0
  | .binary _ operator _ => infixLevel operator
  | .unary operator _ => prefixLevel operator
  | _ => 8

/-! ## Tokens -/

def token (kind : TokenKind) (lexeme : String) : Token := ⟨kind, lexeme, default⟩

def signs : List (TokenKind × String) :=
  [(.leftParen, "("), (.rightParen, ")"), (.leftBrace, "\x7b"), (.rightBrace, "\x7d"),
   (.leftBracket, "["), (.rightBracket, "]"), (.comma, ","), (.semicolon, ";"), (.equal, "=")]

def mark (kind : TokenKind) : Token :=
  match signs.lookup kind with
  | some sign => token kind sign
  | none =>
    let word := TokenKind.keywords.find? fun entry => entry.2 = kind
    token kind ((word.map (·.1)).getD "")

def identifier (name : String) : Token := token .identifier name

def infixKind : BinaryOp → TokenKind
  | .add => .plus
  | .subtract => .minus
  | .multiply => .star
  | .divide => .slash
  | .power => .caret
  | .equal => .equalEqual
  | .notEqual => .bangEqual
  | .less => .less
  | .lessEqual => .lessEqual
  | .greater => .greater
  | .greaterEqual => .greaterEqual
  | .and => .and
  | .or => .or

def prefixKind : UnaryOp → TokenKind
  | .negate => .minus
  | .not => .not

/-- Only arithmetic operators have a sign for assignments. -/
def assignKind : AssignOp → TokenKind
  | .set => .equal
  | .compound .add => .equalPlus
  | .compound .subtract => .equalMinus
  | .compound .multiply => .equalStar
  | .compound .divide => .equalSlash
  | .compound .power => .equalCaret
  | .compound _ => .equal
  | .increment => .plusPlus
  | .decrement => .minusMinus

def primitiveKind : Primitive → TokenKind
  | .int => .intType
  | .double => .doubleType
  | .bool => .boolType
  | .string => .stringType
  | .void => .voidType

def typeTokens (ty : Ty) : List Token :=
  mark (primitiveKind ty.primitive) ::
    if ty.isList then [mark .leftBracket, mark .rightBracket] else []

structure Style where
  /-- How a double is written. -/
  number : Float → String
  /-- Whether a semicolon stands behind a statement that ends in a block. -/
  closes : Node → Bool

def literal (style : Style) : Value → List Token
  | .int number => [token .int (Decimal.intText number)]
  | .double number => [token .double (style.number number)]
  | .bool truth => [token .bool (if truth then "true" else "false")]
  | .string characters => [token .string characters]
  | .list _ _ | .void => []

/-- Whether a literal token stands for the value. -/
def Style.Denotes (style : Style) : Value → Prop
  | .int number => 0 ≤ number
  | .double number => Decimal.double? (style.number number) = some number
  | _ => True

/-! ## Trees -/

def grouped (tokens : List Token) : List Token := mark .leftParen :: tokens ++ [mark .rightParen]

def commaSeparated : List (List Token) → List Token
  | [] => []
  | [only] => only
  | first :: next :: rest => first ++ mark .comma :: commaSeparated (next :: rest)

def parameter (parameter : Parameter) : List Token :=
  typeTokens parameter.ty ++ [identifier parameter.name]

def isBlock : Form → Bool
  | .block _ => true
  | _ => false

def endsInBlock : Form → Bool
  | .define _ | .loop _ _ _ _ | .repeating _ _ | .whileTrue _ _ => true
  | .chain branches _ => branches.all fun branch => isBlock branch.body.form
  | _ => false

def ending (style : Style) (node : Node) : List Token :=
  if endsInBlock node.form && !style.closes node then [] else [mark .semicolon]

mutual

def written (style : Style) : Form → List Token
  | .literal value => literal style value
  | .variable name => [identifier name]
  | .unary operator operand =>
    token (prefixKind operator) operator.symbol ::
      atPosition style (prefixLevel operator) operand
  | .binary left operator right =>
    atPosition style (infixLevel operator) left ++
      token (infixKind operator) operator.symbol ::
        atPosition style (infixLevel operator + 1) right
  | .block statements => mark .leftBrace :: listed style statements ++ [mark .rightBrace]
  | .returning value => mark .return :: optional style value
  | .breaking => [mark .break]
  | .continuing => [mark .continue]
  | .declare name declared initializer =>
    typeTokens declared ++ identifier name :: initial style initializer
  | .assign name operator value =>
    identifier name :: token (assignKind operator) operator.symbol :: optional style value
  | .define definition => defined style definition
  | .call name arguments =>
    identifier name :: grouped (commaSeparated (each style arguments))
  | .index name position =>
    identifier name :: mark .leftBracket :: atPosition style 0 position ++ [mark .rightBracket]
  | .list elements =>
    mark .leftBracket :: commaSeparated (each style elements) ++ [mark .rightBracket]
  | .loop initializer condition step body =>
    mark .loop :: mark .leftParen :: atPosition style 0 initializer ++
      mark .comma :: atPosition style 0 condition ++
      mark .comma :: atPosition style 0 step ++
      mark .rightParen :: atPosition style 0 body
  | .repeating count body =>
    mark .repeat :: atPosition style 0 count ++ atPosition style 0 body
  | .whileTrue condition body =>
    mark .while :: atPosition style 0 condition ++ atPosition style 0 body
  | .chain branches otherwise => branched style true branches ++ last style otherwise

/-- A node as an operand: in parentheses if it is looser than its position. -/
def atPosition (style : Style) (position : Nat) : Typed Form → List Token
  | ⟨form, _, _⟩ =>
    if level form < position then grouped (written style form) else written style form

def optional (style : Style) : Option (Typed Form) → List Token
  | none => []
  | some node => atPosition style 0 node

def initial (style : Style) : Option (Typed Form) → List Token
  | none => []
  | some node => mark .equal :: atPosition style 0 node

def each (style : Style) : List (Typed Form) → List (List Token)
  | [] => []
  | node :: rest => atPosition style 0 node :: each style rest

def statement (style : Style) : Typed Form → List Token
  | ⟨form, ty, span⟩ => written style form ++ ending style ⟨form, ty, span⟩

def listed (style : Style) : List (Typed Form) → List Token
  | [] => []
  | node :: rest => statement style node ++ listed style rest

/-- The part of a chain that is run: a block, or a value in parentheses. -/
def result (style : Style) : Typed Form → List Token
  | ⟨form, _, _⟩ =>
    if isBlock form then written style form else grouped (written style form)

def branch (style : Style) (first : Bool) : Branch Form → List Token
  | .test ⟨guard, _, _⟩ body _ =>
    mark (if first then .if else .elif) ::
      (if isBlock body.form then written style guard else grouped (written style guard)) ++
        result style body
  | .attempt body _ => mark (if first then .try else .eltry) :: result style body

def branched (style : Style) (first : Bool) : List (Branch Form) → List Token
  | [] => []
  | next :: rest => branch style first next ++ branched style false rest

def last (style : Style) : Option (Typed Form) → List Token
  | none => []
  | some node => mark .else :: result style node

def defined (style : Style) : Definition Form → List Token
  | ⟨name, returns, parameters, body⟩ =>
    mark .func :: typeTokens returns ++ identifier name ::
      grouped (commaSeparated (parameters.map parameter)) ++ atPosition style 0 body

end

theorem written_literal (style : Style) (value : Value) :
    written style (.literal value) = literal style value := by
  rw [written]

def script (style : Style) (root : Node) : List Token :=
  listed style root.statements ++ [token .eof ""]

end Rendering

end RobotScript
