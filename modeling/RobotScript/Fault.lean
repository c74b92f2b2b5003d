import RobotScript.Decimal.Places
import RobotScript.Diagnostic
import RobotScript.Operator

/-! # Faults and their causes

A fault is a cause at a place. The causes are told apart by what refused the
script or stopped the run; how each is worded is said once, in `message` and
`help?`. Of the causes at run time the recoverable ones let a `try` branch move
on and the fatal ones end the run. -/
set_option autoImplicit false

namespace RobotScript

inductive LexicalCause where
  | illegalCharacter (character : Char)
  | unterminatedString
  | invalidDouble (lexeme : String)
  | intOutOfRange (lexeme : String)
deriving DecidableEq, Repr

/-- What the grammar asks for at a place where something else stands. -/
inductive Expected where
  | semicolon
  | blockOpen
  | blockClose
  | loopOpen
  | loopInitializerEnd
  | loopConditionEnd
  | loopStepEnd
  | variableName
  | functionName
  | parametersOpen
  | parameterName
  | parametersClose
  | bodyOpen
  | bodyClose
  | groupClose
  | elementsClose
  | argumentsClose
  | indexClose
deriving DecidableEq, Repr

inductive GrammarCause where
  | expected (what : Expected)
  | voidVariable
  | outsideLoop (keyword : String)
  | invalidInt (lexeme : String)
  | invalidDouble (lexeme : String)
  | unexpectedEnd
  | expectedExpression (found : String)
  | emptyList
  | missingElse
  | misplacedVoid
  | expectedType (found : String)
  | voidList
deriving DecidableEq, Repr

inductive TypingCause where
  | repeatCount (found : Ty)
  | condition (keyword : String) (found : Ty)
  | initializer (name : String) (declared found : Ty)
  | variableRedeclared (name : String)
  | duplicateParameter (name : String)
  | functionRedeclared (name : String)
  | nativeRedefined (name : String)
  | missingResult (returns : Ty)
  | resultOfVoid
  | result (returns found : Ty)
  | binary (operator : BinaryOp) (left right : Ty)
  | unary (operator : UnaryOp) (operand : Ty)
  | element (found : Ty)
  | elementsDiffer (first found : Ty)
  | branchWithoutValue
  | branchesDiffer (first found : Ty)
  | argumentWithoutValue (function : String)
  | argumentCount (function : String) (expected found : Nat)
  | argument (position : Nat) (function : String) (expected found : Ty)
  | notList (name : String) (found : Ty)
  | indexNotInt (found : Ty)
  | notCountable (operator : AssignOp) (found : Ty)
  | assignment (name : String) (declared found : Ty)
  | combination (operator : AssignOp) (name : String) (declared found : Ty)
deriving DecidableEq, Repr

inductive NamingCause where
  | unknownFunction (name : String)
  | unknownVariable (name : String)
deriving DecidableEq, Repr

/-- What stops a run unless a `try` branch takes it. -/
inductive RecoverableCause where
  | overflow (operator : BinaryOp)
  | negationOverflow
  | divisionByZero
  | negativeExponent
  | exponentTooLarge (exponent : Int64)
  | indexOutOfRange (position : Int64) (name : String) (length : Nat)
  | nativeFailed (name : String) (reason : String)
  | endedWithoutResult (name : String) (returns : Ty)
  | returnOutsideFunction
  | jumpOutsideLoop
deriving DecidableEq, Repr

/-- What ends a run for good. -/
inductive FatalCause where
  | stepLimit (limit : Nat)
  | interrupted
  | callDepthLimit (limit : Nat)
  | undefinedVariable (name : String)
  | undefinedFunction (name : String)
  | deadFunction (name : String)
  | notIndexable (name : String)
  | expectedBool (found : Ty)
  | binaryMismatch (operator : BinaryOp) (left right : Ty)
  | unaryMismatch (operator : UnaryOp) (operand : Ty)
  | repeatCountNotInt (found : Ty)
  | assignmentWithoutValue (operator : AssignOp) (name : String)
  | nativeResult (name : String) (found returns : Ty)
deriving DecidableEq, Repr

inductive Cause where
  | lexical (cause : LexicalCause)
  | grammar (cause : GrammarCause)
  | typing (cause : TypingCause)
  | naming (cause : NamingCause)
  | recoverable (cause : RecoverableCause)
  | fatal (cause : FatalCause)
deriving DecidableEq, Repr

structure Fault where
  cause : Cause
  span : Span
deriving DecidableEq, Repr

def LexicalCause.message : LexicalCause → String
  | .illegalCharacter character => s!"Illegal character \"{character}\""
  | .unterminatedString => "Unterminated string"
  | .invalidDouble lexeme => s!"Invalid double: {lexeme}"
  | .intOutOfRange lexeme => s!"Integer literal out of range: {lexeme}"

def LexicalCause.help? : LexicalCause → Option String
  | .unterminatedString => some "Close the string with a matching '\"'."
  | _ => none

namespace Expected

def message : Expected → String
  | semicolon => "Expected \";\""
  | blockOpen => "Expected \"\x7b\""
  | blockClose => "Expected \"\x7d\" after block"
  | loopOpen => "Expected \"(\" after 'loop'"
  | loopInitializerEnd => "Expected \",\" after loop initializer"
  | loopConditionEnd => "Expected \",\" after loop condition"
  | loopStepEnd => "Expected \")\" after loop step"
  | variableName => "Expected variable name"
  | functionName => "Expected function name"
  | parametersOpen => "Expected \"(\" after function name"
  | parameterName => "Expected parameter name"
  | parametersClose => "Expected \")\" after parameters"
  | bodyOpen => "Expected \"\x7b\" before function body"
  | bodyClose => "Expected \"\x7d\" after function body"
  | groupClose => "Expected \")\" after expression"
  | elementsClose => "Expected \"]\" after list elements"
  | argumentsClose => "Expected \")\" after arguments"
  | indexClose => "Expected \"]\" after index"

def help? : Expected → Option String
  | semicolon => some "Statements end with ';'."
  | blockOpen => some "Blocks are written as \x7b statements \x7d."
  | blockClose | bodyClose => some "Every '\x7b' needs a matching '\x7d'."
  | loopOpen => some "Loops are written as loop (int i = 0, i < 10, i ++) \x7b ... \x7d."
  | parametersOpen | bodyOpen =>
    some "Functions are written as func int name(int a, double b) \x7b ... \x7d."
  | groupClose => some "Every '(' needs a matching ')'."
  | elementsClose => some "List literals are written as [1, 2, 3]."
  | argumentsClose => some "Calls are written as name(arg1, arg2)."
  | _ => none

end Expected

def GrammarCause.message : GrammarCause → String
  | .expected what => what.message
  | .voidVariable => "Variables cannot be declared void"
  | .outsideLoop keyword => s!"'{keyword}' outside of a loop"
  | .invalidInt lexeme => s!"Invalid int: {lexeme}"
  | .invalidDouble lexeme => s!"Invalid double: {lexeme}"
  | .unexpectedEnd => "Unexpected end of input"
  | .expectedExpression found => s!"Expected expression, found \"{found}\""
  | .emptyList => "List literals need at least one element"
  | .missingElse => "Conditional expressions must have a catching else expression"
  | .misplacedVoid => "'void' is only allowed as a function return type"
  | .expectedType found => s!"Expected a type, found \"{found}\""
  | .voidList => "There are no void lists"

def GrammarCause.help? : GrammarCause → Option String
  | .expected what => what.help?
  | .voidVariable => some "'void' is only allowed as the return type of a function."
  | .unexpectedEnd =>
    some "Expected an expression here. Check for an unfinished statement."
  | .emptyList => some "Declare an empty list without an initializer: int[] xs;"
  | .missingElse => some "Add a final 'else' so the expression always has a value."
  | .expectedType _ =>
    some "Types are int, double, bool and string, optionally followed by [] for a list."
  | _ => none

def TypingCause.message : TypingCause → String
  | .repeatCount found => s!"Repeat count must be int, found {found.text}"
  | .condition keyword found => s!"Condition of '{keyword}' must be bool, found {found.text}"
  | .initializer name declared found =>
    s!"Cannot initialize '{name}' of type {declared.text} with {found.text}"
  | .variableRedeclared name => s!"Variable '{name}' is already declared in this scope"
  | .duplicateParameter name => s!"Duplicate parameter '{name}'"
  | .functionRedeclared name => s!"Function '{name}' is already declared in this scope"
  | .nativeRedefined name => s!"'{name}' is a native function and cannot be redefined"
  | .missingResult returns => s!"Function must return a {returns.text}"
  | .resultOfVoid => "Void functions cannot return a value"
  | .result returns found => s!"Expected return type {returns.text}, found {found.text}"
  | .binary operator left right =>
    s!"Operator \"{operator.symbol}\" cannot be applied to {left.text} and {right.text}"
  | .unary operator operand =>
    s!"Operator \"{operator.symbol}\" cannot be applied to {operand.text}"
  | .element found => s!"List elements cannot be {found.text}"
  | .elementsDiffer first found =>
    s!"List elements must share one type, found {first.text} and {found.text}"
  | .branchWithoutValue => "Branches of a conditional expression must produce a value"
  | .branchesDiffer first found =>
    s!"Branches of a conditional expression must share one type, found {first.text} and {found.text}"
  | .argumentWithoutValue function => s!"Argument to '{function}' has no value"
  | .argumentCount function expected found =>
    s!"Function '{function}' expects {expected} argument(s) but got {found}"
  | .argument position function expected found =>
    s!"Argument {position} of '{function}' must be {expected.text}, found {found.text}"
  | .notList name found => s!"'{name}' is a {found.text}, not a list"
  | .indexNotInt found => s!"List index must be int, found {found.text}"
  | .notCountable operator found =>
    s!"Operator \"{operator.symbol}\" needs an int or double, found {found.text}"
  | .assignment name declared found =>
    s!"Cannot assign {found.text} to '{name}' of type {declared.text}"
  | .combination operator name declared found =>
    s!"Operator \"{operator.symbol}\" cannot combine '{name}' of type {declared.text} with {found.text}"

def NamingCause.message : NamingCause → String
  | .unknownFunction name => s!"Function '{name}' does not exist"
  | .unknownVariable name => s!"Variable '{name}' does not exist"

def RecoverableCause.message : RecoverableCause → String
  | .overflow operator => s!"Integer overflow in \"{operator.symbol}\""
  | .negationOverflow => s!"Integer overflow in \"{UnaryOp.negate.symbol}\""
  | .divisionByZero => s!"Division by zero in \"{BinaryOp.divide.symbol}\""
  | .negativeExponent => s!"Negative exponent in \"{BinaryOp.power.symbol}\""
  | .exponentTooLarge exponent =>
    s!"Exponent {Decimal.intText exponent} is too large in \"{BinaryOp.power.symbol}\""
  | .indexOutOfRange position name length =>
    s!"Index {Decimal.intText position} is out of range for '{name}' of length {length}"
  | .nativeFailed name reason => s!"'{name}' failed: {reason}"
  | .endedWithoutResult name returns =>
    s!"Function '{name}' ended without returning a {returns.text}"
  | .returnOutsideFunction => "'return' outside of a function"
  | .jumpOutsideLoop => "Jump outside of a loop"

def FatalCause.message : FatalCause → String
  | .stepLimit limit => s!"Step limit of {limit} exceeded"
  | .interrupted => "Execution interrupted by host"
  | .callDepthLimit limit => s!"Call depth limit of {limit} exceeded"
  | .undefinedVariable name => s!"Variable '{name}' is not defined"
  | .undefinedFunction name => s!"Function '{name}' is not defined"
  | .deadFunction name => s!"Function '{name}' outlived the scope it was defined in"
  | .notIndexable name => s!"'{name}' cannot be indexed"
  | .expectedBool found => s!"Expected bool, found {found.text}"
  | .binaryMismatch operator left right =>
    s!"Operator \"{operator.symbol}\" cannot be applied to {left.text} and {right.text}"
  | .unaryMismatch operator operand =>
    s!"Operator \"{operator.symbol}\" cannot be applied to {operand.text}"
  | .repeatCountNotInt found => s!"Repeat count must be int, found {found.text}"
  | .assignmentWithoutValue operator name =>
    s!"Assignment \"{operator.symbol}\" to '{name}' has no value"
  | .nativeResult name found returns =>
    s!"Native function '{name}' returned {found.text} instead of {returns.text}"

namespace Cause

def kind : Cause → FaultKind
  | lexical _ => .lexical
  | grammar _ => .grammar
  | typing _ => .typing
  | naming _ => .naming
  | recoverable _ => .runtime
  | fatal _ => .runtime

def message : Cause → String
  | lexical cause => cause.message
  | grammar cause => cause.message
  | typing cause => cause.message
  | naming cause => cause.message
  | recoverable cause => cause.message
  | fatal cause => cause.message

def help? : Cause → Option String
  | lexical cause => cause.help?
  | grammar cause => cause.help?
  | _ => none

def isFatal : Cause → Bool
  | fatal _ => true
  | _ => false

end Cause

namespace Fault

def kind (fault : Fault) : FaultKind := fault.cause.kind

/-- Whether a `try` branch moves on after it. -/
def isRecoverable (fault : Fault) : Bool :=
  match fault.cause with
  | .recoverable _ => true
  | _ => false

def diagnostic (fault : Fault) : Diagnostic :=
  ⟨fault.kind, fault.span, fault.cause.message, fault.cause.help?, fault.cause.isFatal⟩

theorem diagnostic_isRecoverable (fault : Fault) :
    fault.diagnostic.isRecoverable = fault.isRecoverable := by
  obtain ⟨cause, span⟩ := fault
  cases cause <;> rfl

end Fault

end RobotScript
