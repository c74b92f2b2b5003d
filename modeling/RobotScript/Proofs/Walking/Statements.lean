import RobotScript.Grammar.Statement
import RobotScript.Proofs.Walking.Expressions

/-! # Walking through statements and scripts

The grammar of statements as walks that take one another as parts without any bound. Scopes
are opened and left by hand, and so are loops and the bodies of functions. The condition of an
`if` is read to see what stands behind it, taken back, and read again. -/
set_option autoImplicit false

namespace RobotScript.Grammar.Walk

def brackets : Walk Bool := do
  if ← check .leftBracket then checkNext .rightBracket else return false

def typeBehind (primitive : Primitive) (span : Span) : Walk Ty := do
  let _ ← advance
  if ← brackets then
    if primitive = .void then refuse (.grammar .voidList) span
    else
      let _ ← advance
      let _ ← advance
      return .listOf primitive
  else return .scalar primitive

/-- `int`, `string[]` and so on, and `void` where it is allowed. -/
def typeName (allowVoid : Bool) : Walk Ty := do
  let token ← peek
  match primitiveOf? token.kind with
  | some primitive => typeBehind primitive token.span
  | none =>
    if token.kind ≠ .voidType then refuse (.grammar (.expectedType token.lexeme)) token.span
    else if allowVoid then typeBehind .void token.span
    else refuse (.grammar .misplacedVoid) token.span

def endStatement : Walk Unit := do
  let _ ← expect .semicolon .semicolon

def endBlockStatement : Walk Unit := do
  let _ ← accept .semicolon

def expressionStatement : Walk Node := do
  let node ← Phrase.expression.walk
  endStatement
  return node

def initialValue (name : Token) (declared : Ty) : Walk (Option Node) := do
  if ← accept .equal then
    let value ← Phrase.expression.walk
    if declared.accepts value.ty then return some value
    else refuse (.typing (.initializer name.lexeme declared value.ty)) value.span
  else return none

def variableDeclaration : Walk Node := do
  let start ← peek
  let declared ← typeName false
  let name ← expect .identifier .variableName
  let value ← initialValue name declared
  ofContext (declareVariable name declared)
  let stop := (value.map (·.span)).getD name.span
  return .statement (.declare name.lexeme declared value) (start.span.through stop)

def loopInitializer : Walk Node := do
  if (primitiveOf? (← peek).kind).isSome then variableDeclaration else Phrase.expression.walk

def returnedValue (keyword : Token) : Walk (Option Node) := do
  let expected := (← get).results.head?
  if ← check .semicolon then
    match expected with
    | none => return none
    | some ty =>
      if ty.isVoid then return none
      else refuse (.typing (.missingResult ty)) keyword.span
  else
    let value ← Phrase.expression.walk
    match expected with
    | none => return some value
    | some ty =>
      if ty.isVoid then refuse (.typing .resultOfVoid) value.span
      else if ty.accepts value.ty then return some value
      else refuse (.typing (.result ty value.ty)) value.span

def returnStatement : Walk Node := do
  let keyword ← advance
  let value ← returnedValue keyword
  endStatement
  let stop := (value.map (·.span)).getD keyword.span
  return .statement (.returning value) (keyword.span.through stop)

def jumpStatement (form : Form) : Walk Node := do
  let keyword ← advance
  if 0 < (← get).loops then
    endStatement
    return .statement form (keyword.span.through keyword.span)
  else refuse (.grammar (.outsideLoop keyword.lexeme)) keyword.span

/-- Whether an `if` or `try` begins a statement. However the condition is read, it is taken
back. -/
def startsChain : Walk Bool := do
  if ← check .try then checkNext .leftBrace
  else
    let before ← checkpoint
    let _ ← advance
    let condition ← settle Phrase.expression.walk
    let braced ← check .leftBrace
    restore before
    match condition with
    | .ok _ => return braced
    | .error fault => throw fault

def chainMade (start : Span) (branches : List (Branch Form)) (otherwise : Option Node) :
    Walk Node := do
  endBlockStatement
  return .statement (.chain branches otherwise)
    (start.through (Grammar.chainEnd start branches otherwise))

/-- What is walked in a statement or a script, and what it gives. -/
inductive Clause : Type → Type where
  | statement : Clause Node
  /-- Statements up to a closing brace or the end. -/
  | statements : Clause (List Node)
  | block : Clause Node
  /-- A block in one loop more, which is left however the block ends. -/
  | loopBody : Clause Node
  | repeatStatement : Clause Node
  | whileStatement : Clause Node
  | loopStatement : Clause Node
  | parameters : Clause (List Parameter)
  /-- The parameters behind these, of which there is one at least. -/
  | furtherParameters (sofar : List Parameter) : Clause (List Parameter)
  /-- The statements of a function, which no loop around the function is around. -/
  | bodyStatements (returns : Ty) : Clause (List Node)
  | functionBody (returns : Ty) (formals : List Parameter) : Clause Node
  | functionDefinition : Clause Node
  | chainStatement : Clause Node
  | blockBranches (branches : List (Branch Form)) : Clause (List (Branch Form))
  /-- Goes on with a branch whose condition is read. -/
  | blockTest (keyword : Token) (test : Node) (branches : List (Branch Form)) :
    Clause (List (Branch Form))
  /-- What stands behind the branches of a chain. -/
  | chainEnd (start : Span) (branches : List (Branch Form)) : Clause Node
  /-- Statements up to the end; here a closing brace ends nothing. -/
  | topStatements : Clause (List Node)

def Clause.walk {α : Type} : Clause α → Walk α
  | statement => do
    let token ← peek
    match token.kind with
    | .repeat => repeatStatement |>.walk
    | .loop => loopStatement |>.walk
    | .while => whileStatement |>.walk
    | .func => functionDefinition |>.walk
    | .intType | .doubleType | .boolType | .stringType =>
      let node ← variableDeclaration
      endStatement
      return node
    | .voidType => refuse (.grammar .voidVariable) token.span
    | .return => returnStatement
    | .break => jumpStatement .breaking
    | .continue => jumpStatement .continuing
    | .if | .try => if ← startsChain then chainStatement |>.walk else expressionStatement
    | _ => expressionStatement
  | statements => do
    if (← check .rightBrace) || (← check .eof) then return []
    else
      let first ← statement |>.walk
      let rest ← statements |>.walk
      return first :: rest
  | block => do
    let opening ← expect .leftBrace .blockOpen
    changeContext Context.push
    let nodes ← statements |>.walk
    let close ← expect .rightBrace .blockClose
    changeContext Context.pop
    return .statement (.block nodes) (opening.span.through close.span)
  | loopBody => do
    modify fun cursor => { cursor with loops := cursor.loops + 1 }
    fun cursor => do
      let (body, after) ← block |>.walk cursor
      return (body, { after with loops := after.loops - 1 })
  | repeatStatement => do
    let keyword ← advance
    let count ← Phrase.expression.walk
    if count.ty = .int then
      let body ← loopBody |>.walk
      endBlockStatement
      return .statement (.repeating count body) (keyword.span.through body.span)
    else refuse (.typing (.repeatCount count.ty)) count.span
  | whileStatement => do
    let keyword ← advance
    let condition ← Phrase.expression.walk
    ofContext (requireBool condition "while")
    let body ← loopBody |>.walk
    endBlockStatement
    return .statement (.whileTrue condition body) (keyword.span.through body.span)
  | loopStatement => do
    let keyword ← advance
    let _ ← expect .leftParen .loopOpen
    changeContext Context.push
    let initializer ← loopInitializer
    let _ ← expect .comma .loopInitializerEnd
    let condition ← Phrase.expression.walk
    ofContext (requireBool condition "loop")
    let _ ← expect .comma .loopConditionEnd
    let step ← Phrase.expression.walk
    let _ ← expect .rightParen .loopStepEnd
    let body ← loopBody |>.walk
    changeContext Context.pop
    endBlockStatement
    return .statement (.loop initializer condition step body) (keyword.span.through body.span)
  | parameters => do
    if ← check .rightParen then return [] else furtherParameters [] |>.walk
  | furtherParameters sofar => do
    let ty ← typeName false
    let name ← expect .identifier .parameterName
    if sofar.any fun earlier => earlier.name = name.lexeme then
      refuse (.typing (.duplicateParameter name.lexeme)) name.span
    else if ← accept .comma then furtherParameters (sofar ++ [⟨name.lexeme, ty⟩]) |>.walk
    else return sofar ++ [⟨name.lexeme, ty⟩]
  | bodyStatements returns => do
    let outer := (← get).loops
    modify fun cursor => { cursor with loops := 0, results := returns :: cursor.results }
    fun cursor => do
      let (nodes, after) ← statements |>.walk cursor
      return (nodes, { after with loops := outer, results := after.results.tail })
  | functionBody returns formals => do
    let opening ← expect .leftBrace .bodyOpen
    changeContext Context.push
    changeContext (withParameters formals)
    let nodes ← bodyStatements returns |>.walk
    let close ← expect .rightBrace .bodyClose
    changeContext Context.pop
    return .statement (.block nodes) (opening.span.through close.span)
  | functionDefinition => do
    let keyword ← advance
    let returns ← typeName true
    let name ← expect .identifier .functionName
    let _ ← expect .leftParen .parametersOpen
    let formals ← parameters |>.walk
    let _ ← expect .rightParen .parametersClose
    ofContext (declareFunction name ⟨.exactly (formals.map (·.ty)), returns⟩)
    let body ← functionBody returns formals |>.walk
    endBlockStatement
    return .statement (.define ⟨name.lexeme, returns, formals, body⟩)
      (keyword.span.through body.span)
  | chainStatement => do
    let start ← peek
    let branches ← blockBranches [] |>.walk
    chainEnd start.span branches |>.walk
  | blockBranches branches => do
    match GuardKind.ofToken? (← peek).kind branches.isEmpty with
    | none => return branches
    | some .test =>
      let keyword ← advance
      let test ← Phrase.expression.walk
      blockTest keyword test branches |>.walk
    | some .attempt =>
      let keyword ← advance
      let body ← block |>.walk
      blockBranches (branches ++ [.attempt body (keyword.span.through body.span)]) |>.walk
  | blockTest keyword test branches => do
    ofContext (requireBool test keyword.lexeme)
    let body ← block |>.walk
    blockBranches (branches ++ [.test test body (keyword.span.through body.span)]) |>.walk
  | chainEnd start branches => do
    if ← accept .else then
      let otherwise ← block |>.walk
      chainMade start branches (some otherwise)
    else chainMade start branches none
  | topStatements => do
    if ← check .eof then return []
    else
      let first ← statement |>.walk
      let rest ← topStatements |>.walk
      return first :: rest
partial_fixpoint

def script : Walk Node := do
  let start ← peek
  let nodes ← Clause.topStatements.walk
  return .statement (.block nodes) (start.span.through (← peek).span)

end RobotScript.Grammar.Walk
