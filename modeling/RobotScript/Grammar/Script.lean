import RobotScript.Grammar.Statement
import RobotScript.Token.Scan

/-! # Scripts

`read` closes the grammar: reading something nested spends one unit of depth. An
expression takes a token before it reads another, so an expression never nests
deeper than the number of tokens ahead, and a statement is one level above it.
With no depth left there is no token left either, and what is missing is an
expression. -/
set_option autoImplicit false

namespace RobotScript.Grammar

def read : Nat → Goal → Parse Node
  | 0, _ => do refuse (.grammar .unexpectedEnd) (← peek).span
  | depth + 1, .expression => expression (read depth .expression)
  | depth + 1, .statement place => statement (read depth) place

/-- A depth that suffices for a number of tokens. -/
def enoughDepth (tokens : Nat) : Nat := tokens + 1

def topLevel : Place := ⟨false, none⟩

/-- Statements up to the end; here a closing brace ends nothing. -/
def topStatements (inner : Goal → Parse Node) : List Token → Parse (List Node)
  | [] => return []
  | _ :: rounds => do
    if ← check .eof then return []
    else
      let first ← inner (.statement topLevel)
      let rest ← topStatements inner rounds
      return first :: rest

def script : Parse Node := do
  let start := (← peek).span
  let tokens ← remaining
  let statements ← topStatements (read (enoughDepth tokens.length)) tokens
  return .statement (.block statements) (start.through (← peek).span)

end RobotScript.Grammar

namespace RobotScript

/-- Reads tokens in a context: the tree of the script, and the context with what
the script declares at its top level. -/
def parse (tokens : List Token) (context : Context) : Except Fault (Node × Context) :=
  match Grammar.script.run (Grammar.Reader.ofTokens tokens context) with
  | .ok (root, reader) => .ok (root, reader.context)
  | .error fault => .error fault

def parseText (source : String) (context : Context) : Except Fault (Node × Context) :=
  match scan source with
  | .ok tokens => parse tokens context
  | .error fault => .error fault

end RobotScript
