import RobotScript.Grammar.Expression

/-! # Statements

A statement either is a value and ends with a semicolon, or ends in a block and
may be followed by one. Blocks, loop headers and function bodies open scopes of
their own. The functions take the reader of nested expressions and statements as
an argument, `inner`. -/
set_option autoImplicit false

namespace RobotScript.Grammar

def endStatement : Parse Unit := do
  let _ ← expect .semicolon .semicolon

/-- Behind a block a semicolon may stand. -/
def endBlockStatement : Parse Unit := do
  let _ ← accept .semicolon

def inScope {α : Type} (body : Parse α) : Parse α := do
  changeContext Context.push
  let result ← body
  changeContext Context.pop
  return result

def declareVariable (name : Token) (ty : Ty) : Parse Unit := do
  match (← get).context.declareVariable name.lexeme ty with
  | .ok context => changeContext fun _ => context
  | .error _ => refuse (.typing (.variableRedeclared name.lexeme)) name.span

def declareFunction (name : Token) (signature : Signature) : Parse Unit := do
  match (← get).context.declareFunction name.lexeme signature with
  | .ok context => changeContext fun _ => context
  | .error .duplicate => refuse (.typing (.functionRedeclared name.lexeme)) name.span
  | .error .native => refuse (.typing (.nativeRedefined name.lexeme)) name.span

/-- The context of a body, in which the parameters are variables. -/
def withParameters (parameters : List Parameter) (context : Context) : Context :=
  parameters.foldl
    (fun context parameter =>
      match context.declareVariable parameter.name parameter.ty with
      | .ok declared => declared
      | .error _ => context)
    context

/-- A type and a name; no two parameters share a name. -/
def parameter (sofar : List Parameter) : Parse (List Parameter) := do
  let ty ← typeName false
  let name ← expect .identifier .parameterName
  if sofar.any fun earlier => earlier.name = name.lexeme then
    refuse (.typing (.duplicateParameter name.lexeme)) name.span
  else return sofar ++ [⟨name.lexeme, ty⟩]

def parameters : Parse (List Parameter) := do
  if ← check .rightParen then return []
  else commaSeparated parameter []

section

variable (inner : Goal → Parse Node)

/-- Statements up to a closing brace or the end. -/
def statements (place : Place) : List Token → Parse (List Node)
  | [] => return []
  | _ :: rounds => do
    if (← check .rightBrace) || (← check .eof) then return []
    else
      let first ← inner (.statement place)
      let rest ← statements place rounds
      return first :: rest

def block (place : Place) : Parse Node := do
  let opening ← expect .leftBrace .blockOpen
  inScope do
    let statements ← statements inner place (← remaining)
    let close ← expect .rightBrace .blockClose
    return .statement (.block statements) (opening.span.through close.span)

def loopBody (place : Place) : Parse Node := block inner { place with inLoop := true }

def repeatStatement (place : Place) : Parse Node := do
  let keyword ← advance
  let count ← inner .expression
  if count.ty = .int then
    let body ← loopBody inner place
    endBlockStatement
    return .statement (.repeating count body) (keyword.span.through body.span)
  else refuse (.typing (.repeatCount count.ty)) count.span

def whileStatement (place : Place) : Parse Node := do
  let keyword ← advance
  let condition ← inner .expression
  requireBool condition "while"
  let body ← loopBody inner place
  endBlockStatement
  return .statement (.whileTrue condition body) (keyword.span.through body.span)

def initialValue (name : Token) (declared : Ty) : Parse (Option Node) := do
  if ← accept .equal then
    let value ← inner .expression
    if declared.accepts value.ty then return some value
    else refuse (.typing (.initializer name.lexeme declared value.ty)) value.span
  else return none

/-- The variable is in view only behind its initializer. -/
def variableDeclaration : Parse Node := do
  let start := (← peek).span
  let declared ← typeName false
  let name ← expect .identifier .variableName
  let value ← initialValue inner name declared
  declareVariable name declared
  let stop := (value.map (·.span)).getD name.span
  return .statement (.declare name.lexeme declared value) (start.through stop)

/-- The first part of a loop header: a declaration or an expression. -/
def loopInitializer : Parse Node := do
  if (primitiveOf? (← peek).kind).isSome then variableDeclaration inner
  else inner .expression

/-- The header has a scope of its own, which the body sees. -/
def loopStatement (place : Place) : Parse Node := do
  let keyword ← advance
  let _ ← expect .leftParen .loopOpen
  let node ← inScope do
    let initializer ← loopInitializer inner
    let _ ← expect .comma .loopInitializerEnd
    let condition ← inner .expression
    requireBool condition "loop"
    let _ ← expect .comma .loopConditionEnd
    let step ← inner .expression
    let _ ← expect .rightParen .loopStepEnd
    let body ← loopBody inner place
    return Typed.statement (.loop initializer condition step body) (keyword.span.through body.span)
  endBlockStatement
  return node

def functionBody (returns : Ty) (parameters : List Parameter) : Parse Node := do
  let opening ← expect .leftBrace .bodyOpen
  inScope do
    changeContext (withParameters parameters)
    let statements ← statements inner ⟨false, some returns⟩ (← remaining)
    let close ← expect .rightBrace .bodyClose
    return .statement (.block statements) (opening.span.through close.span)

/-- The function is in view in its own body. -/
def functionDefinition : Parse Node := do
  let keyword ← advance
  let returns ← typeName true
  let name ← expect .identifier .functionName
  let _ ← expect .leftParen .parametersOpen
  let parameters ← parameters
  let _ ← expect .rightParen .parametersClose
  declareFunction name ⟨.exactly (parameters.map (·.ty)), returns⟩
  let body ← functionBody inner returns parameters
  endBlockStatement
  return .statement (.define ⟨name.lexeme, returns, parameters, body⟩)
    (keyword.span.through body.span)

/-- The value of a `return`, which has to fit the function around it; at the top
level any value may stand. -/
def returnedValue (place : Place) (keyword : Token) : Parse (Option Node) := do
  if ← check .semicolon then
    match place.returns with
    | none => return none
    | some ty =>
      if ty.isVoid then return none
      else refuse (.typing (.missingResult ty)) keyword.span
  else
    let value ← inner .expression
    match place.returns with
    | none => return some value
    | some ty =>
      if ty.isVoid then refuse (.typing .resultOfVoid) value.span
      else if ty.accepts value.ty then return some value
      else refuse (.typing (.result ty value.ty)) value.span

def returnStatement (place : Place) : Parse Node := do
  let keyword ← advance
  let value ← returnedValue inner place keyword
  endStatement
  let stop := (value.map (·.span)).getD keyword.span
  return .statement (.returning value) (keyword.span.through stop)

def jumpStatement (place : Place) (form : Form) : Parse Node := do
  let keyword ← advance
  if place.inLoop then
    endStatement
    return .statement form (keyword.span.through keyword.span)
  else refuse (.grammar (.outsideLoop keyword.lexeme)) keyword.span

def expressionStatement : Parse Node := do
  let node ← inner .expression
  endStatement
  return node

/-- Whether an `if` or `try` begins a statement: behind `try`, or behind the
condition of `if`, stands a brace. The condition is read and given back. -/
def startsChain : Parse Bool := do
  if ← check .try then checkNext .leftBrace
  else
    let before ← get
    let _ ← advance
    let _ ← inner .expression
    let braced ← check .leftBrace
    set before
    return braced

def blockBranches (place : Place) :
    List Token → List (Branch Form) → Parse (List (Branch Form))
  | [], branches => return branches
  | _ :: rounds, branches => do
    match GuardKind.ofToken? (← peek).kind branches.isEmpty with
    | none => return branches
    | some guard =>
      let branch ← branch (inner .expression) (block inner place) guard
      blockBranches place rounds (branches ++ [branch])

def chainEnd (start : Span) (branches : List (Branch Form)) (otherwise : Option Node) : Span :=
  match otherwise with
  | some node => node.span
  | none => (branches.getLast?.map Branch.span).getD start

def chainStatement (place : Place) : Parse Node := do
  let start := (← peek).span
  let branches ← blockBranches inner place (← remaining) []
  let otherwise ← if ← accept .else then some <$> block inner place else pure none
  endBlockStatement
  return .statement (.chain branches otherwise) (start.through (chainEnd start branches otherwise))

def statement (place : Place) : Parse Node := do
  let token ← peek
  match token.kind with
  | .repeat => repeatStatement inner place
  | .loop => loopStatement inner place
  | .while => whileStatement inner place
  | .func => functionDefinition inner
  | .intType | .doubleType | .boolType | .stringType =>
    let node ← variableDeclaration inner
    endStatement
    return node
  | .voidType => refuse (.grammar .voidVariable) token.span
  | .return => returnStatement inner place
  | .break => jumpStatement place .breaking
  | .continue => jumpStatement place .continuing
  | .if | .try =>
    if ← startsChain inner then chainStatement inner place else expressionStatement inner
  | _ => expressionStatement inner

end

end RobotScript.Grammar
