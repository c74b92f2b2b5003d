import RobotScript.Grammar.Reader

/-! # Tokens by their number

A cursor stands at a token of a vector and knows what is declared, how many loops of the same
function are around it and what the functions around it return. A walk goes on from a cursor
and changes it, also when it fails. It comes to nothing if it asks for a token that is not
there, or if it goes on for ever: nothing counts its rounds or how deep it nests. -/
set_option autoImplicit false

namespace RobotScript.Grammar

structure Cursor where
  tokens : List Token
  current : Nat
  context : Context
  /-- The loops around it, up to the body of a function. -/
  loops : Nat
  /-- What the functions around it return, the innermost first. -/
  results : List Ty

abbrev Walk (α : Type) := ExceptT Fault (StateT Cursor Option) α

namespace Cursor

/-- The tokens with an end token as the last one. -/
def closed (tokens : List Token) : List Token :=
  match tokens.getLast? with
  | none => [⟨.eof, "", Span.point Position.start⟩]
  | some last =>
    if last.kind = .eof then tokens else tokens ++ [⟨.eof, "", Span.point last.span.stop⟩]

def start (tokens : List Token) (context : Context) : Cursor :=
  ⟨closed tokens, 0, context, 0, []⟩

def place (cursor : Cursor) : Place := ⟨decide (0 < cursor.loops), cursor.results.head?⟩

end Cursor

namespace Walk

variable {α : Type}

def stuck : Walk α := fun _ => none

def refuse (cause : Cause) (span : Span) : Walk α := throw ⟨cause, span⟩

def token (index : Nat) : Walk Token := do
  match (← get).tokens[index]? with
  | some token => return token
  | none => stuck

def peek : Walk Token := do token (← get).current

def check (kind : TokenKind) : Walk Bool := do return (← peek).kind = kind

def checkNext (kind : TokenKind) : Walk Bool := do
  let cursor ← get
  return cursor.tokens[cursor.current + 1]?.any fun token => token.kind = kind

/-- The next token; its number is passed unless it is an end token. -/
def advance : Walk Token := do
  let index := (← get).current
  if ← check .eof then token index
  else
    modify fun cursor => { cursor with current := cursor.current + 1 }
    token index

def accept (kind : TokenKind) : Walk Bool := do
  if ← check kind then
    let _ ← advance
    return true
  else return false

/-- Where a missing token is reported: at the token in its place, or just behind the token
before the end. -/
def missingSpan : Walk Span := do
  let index := (← get).current
  if (← check .eof) && 0 < index then return Span.point (← token (index - 1)).span.stop
  else return (← peek).span

def expect (kind : TokenKind) (what : Expected) : Walk Token := do
  if ← check kind then advance
  else refuse (.grammar (.expected what)) (← missingSpan)

/-- A step of reading that looks at what is declared and at no token. -/
def ofContext (step : Parse α) : Walk α := fun cursor =>
  match step (.ofTokens [] cursor.context) with
  | .ok (value, reader) => some (.ok value, { cursor with context := reader.context })
  | .error fault => some (.error fault, cursor)

def changeContext (change : Context → Context) : Walk Unit :=
  modify fun cursor => { cursor with context := change cursor.context }

def settle (body : Walk α) : Walk (Except Fault α) := fun cursor =>
  (body cursor).map fun ended => (.ok ended.1, ended.2)

/-- What is remembered where an alternative is tried. -/
structure Checkpoint where
  current : Nat
  depth : Nat

def checkpoint : Walk Checkpoint := do
  let cursor ← get
  return ⟨cursor.current, cursor.context.depth⟩

/-- Goes back to where an alternative was tried. Only the number of the token and the number
of scopes are as they were. -/
def restore (before : Checkpoint) : Walk Unit :=
  modify fun cursor =>
    { cursor with
      current := before.current
      context := cursor.context.truncate before.depth }

end Walk

end RobotScript.Grammar
