import RobotScript.Grammar.Expression
import RobotScript.Proofs.Walking.Cursor

/-! # Walking through expressions

The grammar of expressions as walks that take one another as parts without any bound. A name
is first taken for a call, then for an index, an assignment and a variable, and each
alternative that does not fit is taken back. -/
set_option autoImplicit false

namespace RobotScript.Grammar.Walk

/-- The levels at which binary operators group to the left, the loosest first. -/
inductive Level where
  | logic
  | comparison
  | sum
  | product
  | power

namespace Level

def operators : Level → List (TokenKind × BinaryOp)
  | logic => [(.and, .and), (.or, .or)]
  | comparison =>
    [(.equalEqual, .equal), (.bangEqual, .notEqual), (.less, .less), (.lessEqual, .lessEqual),
     (.greater, .greater), (.greaterEqual, .greaterEqual)]
  | sum => [(.plus, .add), (.minus, .subtract)]
  | product => [(.star, .multiply), (.slash, .divide)]
  | power => [(.caret, .power)]

end Level

def binaryOperator (operators : List (TokenKind × BinaryOp)) : Walk (Option (BinaryOp × Span)) := do
  let token ← peek
  match operators.lookup token.kind with
  | none => return none
  | some operator =>
    let _ ← advance
    return some (operator, token.span)

def literal (value : Value) : Walk Node := do
  let token ← advance
  return ⟨.literal value, value.ty, token.span⟩

def variableUse : Walk Node := do
  let name ← advance
  let ty ← ofContext (variableType name)
  return ⟨.variable name.lexeme, ty, name.span⟩

/-- What is walked in an expression, and what it gives. -/
inductive Phrase : Type → Type where
  | expression : Phrase Node
  | level (here : Level) : Phrase Node
  /-- Goes on at a level as long as there are operators of it. -/
  | further (here : Level) (left : Node) : Phrase Node
  | denial : Phrase Node
  | negation : Phrase Node
  | atom : Phrase Node
  | listLiteral : Phrase Node
  | elements (sofar : List Node) (ty : Option Ty) : Phrase (List Node × Option Ty)
  | valueChain : Phrase Node
  | valueBranches (branches : List (Branch Form)) (ty : Option Ty) :
    Phrase (List (Branch Form) × Option Ty)
  /-- Goes on with a branch whose condition is read. -/
  | valueTest (keyword : Token) (test : Node) (branches : List (Branch Form)) (ty : Option Ty) :
    Phrase (List (Branch Form) × Option Ty)
  /-- What stands behind the branches of a chain that is a value. -/
  | valueChainEnd (start : Span) (branches : List (Branch Form)) (ty : Option Ty) : Phrase Node
  /-- Call, index, assignment, then variable, in this order. -/
  | nameForm : Phrase Node
  | call : Phrase (Option Node)
  /-- A call whose name and opening parenthesis are taken. -/
  | callBehind (name : Token) : Phrase Node
  | arguments : Phrase (List Node)
  /-- The arguments behind these, of which there is one at least. -/
  | furtherArguments (sofar : List Node) : Phrase (List Node)
  | index : Phrase (Option Node)
  /-- An index whose name and opening bracket are taken. -/
  | indexBehind (name : Token) : Phrase Node
  | assignment : Phrase (Option Node)
  /-- An assignment whose name and operator are taken. -/
  | assignmentBehind (name sign : Token) (operator : AssignOp) : Phrase Node
  | assignedValue (name : Token) (target : Ty) (operator : AssignOp) (operatorSpan : Span) :
    Phrase (Option Node)

def Level.operand : Level → Phrase Node
  | logic => .denial
  | comparison => .level .sum
  | sum => .level .product
  | product => .level .power
  | power => .negation

def Phrase.walk {α : Type} : Phrase α → Walk α
  | expression => level .logic |>.walk
  | level here => do
    let first ← here.operand |>.walk
    further here first |>.walk
  | further here left => do
    match ← binaryOperator here.operators with
    | none => return left
    | some (operator, span) =>
      let right ← here.operand |>.walk
      let node ← ofContext (binaryNode left operator span right)
      further here node |>.walk
  | denial => do
    if ← check .not then
      let sign ← advance
      let inside ← denial |>.walk
      ofContext (unaryNode .not sign.span inside)
    else level .comparison |>.walk
  | negation => do
    if ← check .minus then
      let sign ← advance
      let inside ← negation |>.walk
      ofContext (unaryNode .negate sign.span inside)
    else atom |>.walk
  | atom => do
    let token ← peek
    match token.kind with
    | .int =>
      let _ ← advance
      match Decimal.int? token.lexeme with
      | some number => return ⟨.literal (.int number), .int, token.span⟩
      | none => refuse (.grammar (.invalidInt token.lexeme)) token.span
    | .double =>
      let _ ← advance
      match Decimal.double? token.lexeme with
      | some number => return ⟨.literal (.double number), .double, token.span⟩
      | none => refuse (.grammar (.invalidDouble token.lexeme)) token.span
    | .bool => literal (.bool (token.lexeme = "true"))
    | .string => literal (.string token.lexeme)
    | .leftParen =>
      let _ ← advance
      let node ← expression |>.walk
      let close ← expect .rightParen .groupClose
      return { node with span := token.span.through close.span }
    | .leftBracket => listLiteral |>.walk
    | .if | .try => valueChain |>.walk
    | .identifier => nameForm |>.walk
    | .eof => refuse (.grammar .unexpectedEnd) token.span
    | _ => refuse (.grammar (.expectedExpression token.lexeme)) token.span
  | listLiteral => do
    let opening ← advance
    if ← check .rightBracket then
      refuse (.grammar .emptyList) (opening.span.through (← peek).span)
    else
      let (nodes, ty) ← elements [] none |>.walk
      let close ← expect .rightBracket .elementsClose
      let primitive := (ty.map (·.primitive)).getD .int
      return ⟨.list nodes, .listOf primitive, opening.span.through close.span⟩
  | elements sofar ty => do
    let element ← expression |>.walk
    let unified ← ofContext (elementType ty element)
    if ← accept .comma then elements (sofar ++ [element]) (some unified) |>.walk
    else return (sofar ++ [element], some unified)
  | valueChain => do
    let start ← peek
    let (branches, ty) ← valueBranches [] none |>.walk
    valueChainEnd start.span branches ty |>.walk
  | valueBranches branches ty => do
    match GuardKind.ofToken? (← peek).kind branches.isEmpty with
    | none => return (branches, ty)
    | some .test =>
      let keyword ← advance
      let test ← expression |>.walk
      valueTest keyword test branches ty |>.walk
    | some .attempt =>
      let keyword ← advance
      let body ← expression |>.walk
      let unified ← ofContext (unifyBranch ty body)
      valueBranches (branches ++ [.attempt body (keyword.span.through body.span)]) (some unified)
        |>.walk
  | valueTest keyword test branches ty => do
    ofContext (requireBool test keyword.lexeme)
    let body ← expression |>.walk
    let unified ← ofContext (unifyBranch ty body)
    valueBranches (branches ++ [.test test body (keyword.span.through body.span)]) (some unified)
      |>.walk
  | valueChainEnd start branches ty => do
    if ← accept .else then
      let otherwise ← expression |>.walk
      let ty ← ofContext (unifyBranch ty otherwise)
      return ⟨.chain branches (some otherwise), ty, start.through otherwise.span⟩
    else refuse (.grammar .missingElse) (← peek).span
  | nameForm => do
    let before ← checkpoint
    match ← call |>.walk with
    | some node => return node
    | none =>
      restore before
      let before ← checkpoint
      match ← index |>.walk with
      | some node => return node
      | none =>
        restore before
        let before ← checkpoint
        match ← assignment |>.walk with
        | some node => return node
        | none =>
          restore before
          variableUse
  | call => do
    let name ← advance
    if ← accept .leftParen then
      let node ← callBehind name |>.walk
      return some node
    else return none
  | callBehind name => do
    let signature ← ofContext (functionSignature name)
    let arguments ← arguments |>.walk
    let close ← expect .rightParen .argumentsClose
    let span := name.span.through close.span
    match argumentFault? name.lexeme signature.parameters arguments span with
    | some fault => throw fault
    | none => return ⟨.call name.lexeme arguments, signature.returns, span⟩
  | arguments => do
    if ← check .rightParen then return [] else furtherArguments [] |>.walk
  | furtherArguments sofar => do
    let argument ← expression |>.walk
    if ← accept .comma then furtherArguments (sofar ++ [argument]) |>.walk
    else return sofar ++ [argument]
  | index => do
    let name ← advance
    if ← accept .leftBracket then
      let node ← indexBehind name |>.walk
      return some node
    else return none
  | indexBehind name => do
    let ty ← ofContext (variableType name)
    if ty.isList then
      let position ← expression |>.walk
      if position.ty = .int then
        let close ← expect .rightBracket .indexClose
        return ⟨.index name.lexeme position, ty.element, name.span.through close.span⟩
      else refuse (.typing (.indexNotInt position.ty)) position.span
    else refuse (.typing (.notList name.lexeme ty)) name.span
  | assignment => do
    let name ← advance
    let sign ← peek
    match assignOp? sign.kind with
    | none => return none
    | some operator =>
      let _ ← advance
      let node ← assignmentBehind name sign operator |>.walk
      return some node
  | assignmentBehind name sign operator => do
    let target ← ofContext (variableType name)
    let value ← assignedValue name target operator sign.span |>.walk
    let stop := (value.map (·.span)).getD sign.span
    return ⟨.assign name.lexeme operator value, target, name.span.through stop⟩
  | assignedValue name target operator operatorSpan => do
    match operator with
    | .increment | .decrement =>
      if target.isNumeric then return none
      else refuse (.typing (.notCountable operator target)) operatorSpan
    | .set =>
      let value ← expression |>.walk
      if target.accepts value.ty then return some value
      else refuse (.typing (.assignment name.lexeme target value.ty)) value.span
    | .compound binary =>
      let value ← expression |>.walk
      if combines binary target value.ty then return some value
      else refuse (.typing (.combination operator name.lexeme target value.ty)) operatorSpan
partial_fixpoint

/-- The first of two alternatives, or else the second from where the first began. -/
def either (alternative : Walk (Option Node)) (other : Walk Node) : Walk Node := do
  let before ← checkpoint
  match ← alternative with
  | some node => return node
  | none =>
    restore before
    other

theorem nameForm_eq : Phrase.nameForm.walk = either Phrase.call.walk
    (either Phrase.index.walk (either Phrase.assignment.walk variableUse)) := by
  rw [Phrase.walk]
  rfl

end RobotScript.Grammar.Walk
