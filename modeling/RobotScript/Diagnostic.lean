import RobotScript.Position

/-! # Diagnostics

What a script's author is shown when a script is refused or a run stops: which
kind of fault it is, where, and in which words. -/
set_option autoImplicit false

namespace RobotScript

inductive FaultKind where
  | lexical
  | grammar
  | typing
  | naming
  | runtime
deriving DecidableEq, Repr

def FaultKind.text : FaultKind → String
  | .lexical => "Lexical Error"
  | .grammar => "Syntax Error"
  | .typing => "Type Error"
  | .naming => "Identifier Error"
  | .runtime => "Runtime Error"

/-- Every kind but the last refuses a script before it runs. -/
def FaultKind.isStatic (kind : FaultKind) : Bool := kind ≠ .runtime

structure Diagnostic where
  kind : FaultKind
  span : Span
  message : String
  help : Option String
  /-- Set if no `try` branch may go on after it. -/
  fatal : Bool
deriving DecidableEq, Repr

namespace Diagnostic

/-- A diagnostic with neither help nor the mark of a fatal one. -/
def plain (kind : FaultKind) (span : Span) (message : String) : Diagnostic :=
  ⟨kind, span, message, none, false⟩

def fatalStop (span : Span) (message : String) : Diagnostic :=
  ⟨.runtime, span, message, none, true⟩

def withHelp (diagnostic : Diagnostic) (help : String) : Diagnostic :=
  { diagnostic with help := some help }

/-- Whether a `try` branch moves on after it. -/
def isRecoverable (diagnostic : Diagnostic) : Bool :=
  diagnostic.kind = .runtime && !diagnostic.fatal

def text (diagnostic : Diagnostic) : String :=
  s!"{diagnostic.kind.text}: {diagnostic.message} ({diagnostic.span.start.text} to {diagnostic.span.stop.text})."

end Diagnostic

end RobotScript
