import RobotScript.Decimal.Numeral
import RobotScript.Grammar.Reader

/-! # Expressions

From the loosest to the tightest: and/or, not, comparisons, sums, products,
powers, negation, atoms. Binary operators of one level group to the left. Every
node is checked against the types of its parts when it is built. The functions
take the reader of nested expressions as an argument, `inner`. -/
set_option autoImplicit false

namespace RobotScript.Grammar

/-! ## Operators -/

def binaryNode (left : Node) (operator : BinaryOp) (operatorSpan : Span) (right : Node) :
    Parse Node :=
  match operator.result? left.ty right.ty with
  | some ty => return ⟨.binary left operator right, ty, left.span.through right.span⟩
  | none => refuse (.typing (.binary operator left.ty right.ty)) operatorSpan

def unaryNode (operator : UnaryOp) (operatorSpan : Span) (operand : Node) : Parse Node :=
  match operator.result? operand.ty with
  | some ty => return ⟨.unary operator operand, ty, operatorSpan.through operand.span⟩
  | none => refuse (.typing (.unary operator operand.ty)) operatorSpan

def binaryOperator (operators : List (TokenKind × BinaryOp)) : Parse (Option (BinaryOp × Span)) := do
  let token ← peek
  match operators.lookup token.kind with
  | none => return none
  | some operator =>
    let _ ← advance
    return some (operator, token.span)

def operatorChain (operators : List (TokenKind × BinaryOp)) (operand : Parse Node) :
    List Token → Node → Parse Node
  | [], left => return left
  | _ :: rounds, left => do
    match ← binaryOperator operators with
    | none => return left
    | some (operator, span) =>
      let right ← operand
      operatorChain operators operand rounds (← binaryNode left operator span right)

def leftAssociative (operators : List (TokenKind × BinaryOp)) (operand : Parse Node) :
    Parse Node := do
  let first ← operand
  operatorChain operators operand (← remaining) first

/-- An operand behind any number of one prefix operator; the operator nearest to
the operand applies first. -/
def prefixed (kind : TokenKind) (operator : UnaryOp) (operand : Parse Node) :
    List Token → Parse Node
  | [] => operand
  | _ :: rounds => do
    if ← check kind then
      let sign ← advance
      unaryNode operator sign.span (← prefixed kind operator operand rounds)
    else operand

/-! ## Names in view -/

def variableType (name : Token) : Parse Ty := do
  match (← get).context.variableType? name.lexeme with
  | some ty => return ty
  | none => refuse (.naming (.unknownVariable name.lexeme)) name.span

def functionSignature (name : Token) : Parse Signature := do
  match (← get).context.signature? name.lexeme with
  | some signature => return signature
  | none => refuse (.naming (.unknownFunction name.lexeme)) name.span

/-! ## Types -/

def primitiveOf? : TokenKind → Option Primitive
  | .intType => some .int
  | .doubleType => some .double
  | .boolType => some .bool
  | .stringType => some .string
  | _ => none

/-- A type; `void` is one only where a function's result is named. -/
def typeName (allowVoid : Bool) : Parse Ty := do
  let token ← peek
  let primitive ←
    match primitiveOf? token.kind with
    | some primitive => pure primitive
    | none =>
      if token.kind ≠ .voidType then
        refuse (.grammar (.expectedType token.lexeme)) token.span
      else if allowVoid then pure Primitive.void
      else refuse (.grammar .misplacedVoid) token.span
  let _ ← advance
  if (← check .leftBracket) && (← checkNext .rightBracket) then
    if primitive = .void then refuse (.grammar .voidList) token.span
    else
      let _ ← advance
      let _ ← advance
      return .listOf primitive
  else return .scalar primitive

/-! ## Conditions and branches -/

def requireBool (condition : Node) (keyword : String) : Parse Unit :=
  if condition.ty = .bool then return ()
  else refuse (.typing (.condition keyword condition.ty)) condition.span

inductive GuardKind where
  | test
  | attempt
deriving DecidableEq, Repr

/-- The guard that a keyword opens, if it begins or goes on with a chain. -/
def GuardKind.ofToken? (kind : TokenKind) (first : Bool) : Option GuardKind :=
  match kind, first with
  | .if, true | .elif, false => some .test
  | .try, true | .eltry, false => some .attempt
  | _, _ => none

/-- The type of a chain whose branches so far have a type, if any, and whose
next branch is `body`. -/
def unifyBranch (current : Option Ty) (body : Node) : Parse Ty :=
  if body.ty.isVoid then refuse (.typing .branchWithoutValue) body.span
  else
    match current with
    | none => return body.ty
    | some ty =>
      if ty = body.ty then return body.ty
      else refuse (.typing (.branchesDiffer ty body.ty)) body.span

/-- One branch: a guard, read with `condition`, and a body. -/
def branch (condition body : Parse Node) (guard : GuardKind) : Parse (Branch Form) := do
  let keyword ← advance
  match guard with
  | .test =>
    let test ← condition
    requireBool test keyword.lexeme
    let body ← body
    return .test test body (keyword.span.through body.span)
  | .attempt =>
    let body ← body
    return .attempt body (keyword.span.through body.span)

section

variable (inner : Parse Node)

/-! ## Calls, indices and assignments -/

/-- The first argument that does not fit its parameter. -/
def misfit? (function : String) : Nat → List Node → List Ty → Option Fault
  | position, argument :: arguments, ty :: types =>
    if ty.accepts argument.ty then misfit? function (position + 1) arguments types
    else some ⟨.typing (.argument position function ty argument.ty), argument.span⟩
  | _, _, _ => none

def argumentFault? (function : String) (parameters : Parameters) (arguments : List Node)
    (span : Span) : Option Fault :=
  match parameters with
  | .anyNumber =>
    (arguments.find? fun argument => argument.ty.isVoid).map fun argument =>
      ⟨.typing (.argumentWithoutValue function), argument.span⟩
  | .exactly types =>
    if arguments.length ≠ types.length then
      some ⟨.typing (.argumentCount function types.length arguments.length), span⟩
    else misfit? function 1 arguments types

def argument (sofar : List Node) : Parse (List Node) := do
  return sofar ++ [← inner]

def arguments : Parse (List Node) := do
  if ← check .rightParen then return []
  else commaSeparated (argument inner) []

def call : Parse (Option Node) := do
  let name ← advance
  if ← accept .leftParen then
    let signature ← functionSignature name
    let arguments ← arguments inner
    let close ← expect .rightParen .argumentsClose
    let span := name.span.through close.span
    match argumentFault? name.lexeme signature.parameters arguments span with
    | some fault => throw fault
    | none => return some ⟨.call name.lexeme arguments, signature.returns, span⟩
  else return none

def index : Parse (Option Node) := do
  let name ← advance
  if ← accept .leftBracket then
    let ty ← variableType name
    if ty.isList then
      let position ← inner
      if position.ty = .int then
        let close ← expect .rightBracket .indexClose
        return some ⟨.index name.lexeme position, ty.element, name.span.through close.span⟩
      else refuse (.typing (.indexNotInt position.ty)) position.span
    else refuse (.typing (.notList name.lexeme ty)) name.span
  else return none

def assignOp? : TokenKind → Option AssignOp
  | .equal => some .set
  | .equalPlus => some (.compound .add)
  | .equalMinus => some (.compound .subtract)
  | .equalStar => some (.compound .multiply)
  | .equalSlash => some (.compound .divide)
  | .equalCaret => some (.compound .power)
  | .plusPlus => some .increment
  | .minusMinus => some .decrement
  | _ => none

/-- Whether a variable may be combined with a value and keep the result. -/
def combines (operator : BinaryOp) (target source : Ty) : Bool :=
  match operator.result? target source with
  | some result => target.accepts result
  | none => false

/-- The value at the right of an assignment, if the operator takes one. -/
def assignedValue (name : Token) (target : Ty) (operator : AssignOp) (operatorSpan : Span) :
    Parse (Option Node) := do
  match operator with
  | .increment | .decrement =>
    if target.isNumeric then return none
    else refuse (.typing (.notCountable operator target)) operatorSpan
  | .set =>
    let value ← inner
    if target.accepts value.ty then return some value
    else refuse (.typing (.assignment name.lexeme target value.ty)) value.span
  | .compound binary =>
    let value ← inner
    if combines binary target value.ty then return some value
    else refuse (.typing (.combination operator name.lexeme target value.ty)) operatorSpan

def assignment : Parse (Option Node) := do
  let name ← advance
  let sign ← peek
  match assignOp? sign.kind with
  | none => return none
  | some operator =>
    let _ ← advance
    let target ← variableType name
    let value ← assignedValue inner name target operator sign.span
    let stop := (value.map (·.span)).getD sign.span
    return some ⟨.assign name.lexeme operator value, target, name.span.through stop⟩

def variableUse : Parse Node := do
  let name ← advance
  let ty ← variableType name
  return ⟨.variable name.lexeme, ty, name.span⟩

/-- A name begins a call, an index, an assignment or stands for its variable,
tried in this order. -/
def nameForm : Parse Node := do
  match ← attempt (call inner) with
  | some node => return node
  | none =>
    match ← attempt (index inner) with
    | some node => return node
    | none =>
      match ← attempt (assignment inner) with
      | some node => return node
      | none => variableUse

/-! ## Lists and chains -/

/-- The common type of the elements so far and one more; ints among doubles are
doubles. -/
def elementType (current : Option Ty) (element : Node) : Parse Ty :=
  if element.ty.isList || element.ty.isVoid then
    refuse (.typing (.element element.ty)) element.span
  else
    match current with
    | none => return element.ty
    | some ty =>
      if ty = element.ty then return ty
      else if ty.isNumeric && element.ty.isNumeric then return .double
      else refuse (.typing (.elementsDiffer ty element.ty)) element.span

def element (sofar : List Node × Option Ty) : Parse (List Node × Option Ty) := do
  let element ← inner
  let ty ← elementType sofar.2 element
  return (sofar.1 ++ [element], some ty)

def listLiteral : Parse Node := do
  let opening ← advance
  if ← check .rightBracket then
    refuse (.grammar .emptyList) (opening.span.through (← peek).span)
  else
    let (elements, ty) ← commaSeparated (element inner) ([], none)
    let close ← expect .rightBracket .elementsClose
    let primitive := (ty.map (·.primitive)).getD .int
    return ⟨.list elements, .listOf primitive, opening.span.through close.span⟩

def valueBranches : List Token → List (Branch Form) → Option Ty →
    Parse (List (Branch Form) × Option Ty)
  | [], branches, ty => return (branches, ty)
  | _ :: rounds, branches, ty => do
    match GuardKind.ofToken? (← peek).kind branches.isEmpty with
    | none => return (branches, ty)
    | some guard =>
      let branch ← branch inner inner guard
      let unified ← unifyBranch ty branch.body
      valueBranches rounds (branches ++ [branch]) (some unified)

/-- A chain that is a value always ends in `else`. -/
def valueChain : Parse Node := do
  let start := (← peek).span
  let (branches, ty) ← valueBranches inner (← remaining) [] none
  if ← accept .else then
    let otherwise ← inner
    let ty ← unifyBranch ty otherwise
    return ⟨.chain branches (some otherwise), ty, start.through otherwise.span⟩
  else refuse (.grammar .missingElse) (← peek).span

/-! ## Atoms and levels -/

def grouped : Parse Node := do
  let opening ← advance
  let node ← inner
  let close ← expect .rightParen .groupClose
  return { node with span := opening.span.through close.span }

def literal (value : Value) : Parse Node := do
  let token ← advance
  return ⟨.literal value, value.ty, token.span⟩

def atom : Parse Node := do
  let token ← peek
  match token.kind with
  | .int =>
    match Decimal.int? token.lexeme with
    | some number => literal (.int number)
    | none => refuse (.grammar (.invalidInt token.lexeme)) token.span
  | .double =>
    match Decimal.double? token.lexeme with
    | some number => literal (.double number)
    | none => refuse (.grammar (.invalidDouble token.lexeme)) token.span
  | .bool => literal (.bool (token.lexeme = "true"))
  | .string => literal (.string token.lexeme)
  | .leftParen => grouped inner
  | .leftBracket => listLiteral inner
  | .if | .try => valueChain inner
  | .identifier => nameForm inner
  | .eof => refuse (.grammar .unexpectedEnd) token.span
  | _ => refuse (.grammar (.expectedExpression token.lexeme)) token.span

def negation : Parse Node := do
  prefixed .minus .negate (atom inner) (← remaining)

def power : Parse Node := leftAssociative [(.caret, .power)] (negation inner)

def product : Parse Node :=
  leftAssociative [(.star, .multiply), (.slash, .divide)] (power inner)

def sum : Parse Node :=
  leftAssociative [(.plus, .add), (.minus, .subtract)] (product inner)

def comparison : Parse Node :=
  leftAssociative
    [(.equalEqual, .equal), (.bangEqual, .notEqual), (.less, .less), (.lessEqual, .lessEqual),
     (.greater, .greater), (.greaterEqual, .greaterEqual)] (sum inner)

def denial : Parse Node := do
  prefixed .not .not (comparison inner) (← remaining)

def expression : Parse Node :=
  leftAssociative [(.and, .and), (.or, .or)] (denial inner)

end

end RobotScript.Grammar
