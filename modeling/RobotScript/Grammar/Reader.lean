import RobotScript.Fault
import RobotScript.Token
import RobotScript.Tree

/-! # Reading tokens

A reader holds the tokens ahead, the token that marks the end, the end of the
last token taken, and the declarations in view. The end is never passed: at the
end `advance` hands out the end token again and stays. A reader is a value, so
an alternative that does not fit is given up by going on from the reader before
it (`attempt`). -/
set_option autoImplicit false

namespace RobotScript.Grammar

structure Reader where
  ahead : List Token
  finish : Token
  last : Option Position
  context : Context

abbrev Parse (α : Type) := StateT Reader (Except Fault) α

namespace Reader

/-- The token that comes next; the end token if none is left. -/
def peek (reader : Reader) : Token := reader.ahead.headD reader.finish

def next (reader : Reader) : Reader :=
  match reader.ahead with
  | [] => reader
  | token :: rest => { reader with ahead := rest, last := some token.span.stop }

/-- Where a missing token is reported: at the token that stands in its place, or
at the end just behind the last token. -/
def missingSpan (reader : Reader) : Span :=
  match reader.ahead, reader.last with
  | [], some position => Span.point position
  | _, _ => reader.peek.span

/-- Everything from the first end token on is left out; if there is none, the
end is behind the last token. -/
def ofTokens (tokens : List Token) (context : Context) : Reader :=
  let ahead := tokens.takeWhile fun token => token.kind ≠ .eof
  let finish :=
    match tokens.dropWhile fun token => token.kind ≠ .eof with
    | token :: _ => token
    | [] =>
      let position := (tokens.getLast?.map (·.span.stop)).getD Position.start
      ⟨.eof, "", Span.point position⟩
  ⟨ahead, finish, none, context⟩

end Reader

def refuse {α : Type} (cause : Cause) (span : Span) : Parse α := throw ⟨cause, span⟩

def peek : Parse Token := do return (← get).peek

/-- The tokens that are left: no loop that takes a token in each round goes round
more often than there are tokens, so they count its rounds. -/
def remaining : Parse (List Token) := do return (← get).ahead

def advance : Parse Token := do
  let reader ← get
  set reader.next
  return reader.peek

def check (kind : TokenKind) : Parse Bool := do return (← peek).kind = kind

/-- Whether the token behind the next one is of a kind. -/
def checkNext (kind : TokenKind) : Parse Bool := do
  let reader ← get
  return reader.next.peek.kind = kind

def accept (kind : TokenKind) : Parse Bool := do
  if ← check kind then
    let _ ← advance
    return true
  else return false

def expect (kind : TokenKind) (what : Expected) : Parse Token := do
  if ← check kind then advance
  else refuse (.grammar (.expected what)) (← get).missingSpan

def changeContext (change : Context → Context) : Parse Unit :=
  modify fun reader => { reader with context := change reader.context }

/-- Tries an alternative; if its shape does not fit, nothing has happened. -/
def attempt {α : Type} (alternative : Parse (Option α)) : Parse (Option α) := do
  let before ← get
  match ← alternative with
  | some result => return some result
  | none =>
    set before
    return none

/-- Goes on with items as long as commas separate them. -/
def separated {α : Type} (item : α → Parse α) : List Token → α → Parse α
  | [], sofar => item sofar
  | _ :: rounds, sofar => do
    let sofar ← item sofar
    if ← accept .comma then separated item rounds sofar else return sofar

def commaSeparated {α : Type} (item : α → Parse α) (start : α) : Parse α := do
  separated item (← remaining) start

/-- What is read next: an expression, or a statement at its place. -/
structure Place where
  /-- Whether a loop of the same function is around it. -/
  inLoop : Bool
  /-- What the function around it returns; nothing at the top level. -/
  returns : Option Ty
deriving DecidableEq, Repr

inductive Goal where
  | expression
  | statement (place : Place)

end RobotScript.Grammar
