import RobotScript.Session
import RobotScript.Simulation
import RobotScript.Text.Blank

/-! # The dialogue

A session at a prompt: each line is an entry, without the blanks at its ends.
Empty lines are passed over, `exit` and `quit` end the dialogue, and so does the
end of the input. -/
set_option autoImplicit false

namespace RobotScript.CommandLine

def greeting : String :=
  "botlang v0.1.0\nType 'exit' or press Ctrl+D to quit\n\n"

def prompt : String := "> "

def endOfInput : String := "\n"

/-- What is written: for the user, and about what went wrong. -/
structure Written where
  out : String
  err : String

namespace Written

def nothing : Written := ⟨"", ""⟩

def append (first second : Written) : Written := ⟨first.out ++ second.out, first.err ++ second.err⟩

instance : Append Written := ⟨append⟩

def toOut (text : String) : Written := ⟨text, ""⟩

def toErr (text : String) : Written := ⟨"", text⟩

def lines (texts : List String) : Written := toOut (String.join (texts.map (· ++ "\n")))

def fault (fault : Fault) : Written :=
  let diagnostic := fault.diagnostic
  let help :=
    match diagnostic.help with
    | none => ""
    | some text => s!"help: {text}\n"
  toErr (diagnostic.text ++ "\n" ++ help)

end Written

/-- How the dialogue goes on behind a line. -/
inductive Reply where
  | goodbye
  | next (written : Written) (session : Session Simulation)

/-- The lines that an entry printed, then the value it shows or its fault. -/
def answerText (lines : List String) : Session.Answer → Written
  | .ok none => .lines lines
  | .ok (some value) => .lines (lines ++ [value.text])
  | .error fault => .lines lines ++ .fault fault

def reply (fuel : Nat) (session : Session Simulation) (line : String) : Option Reply :=
  let entry := String.ofList (Text.trimmed line.toList)
  if entry = "" then some (.next .nothing session)
  else if entry = "exit" || entry = "quit" then some .goodbye
  else
    match session.enter fuel entry with
    | none => none
    | some (answer, after) =>
      some (.next (answerText after.host.lines answer)
        { after with host := after.host.flushed })

def farewell : String := "Goodbye!\n"

/-- All that a dialogue writes behind its greeting. -/
def dialogue (fuel : Nat) : Session Simulation → List String → Option Written
  | _, [] => some (.toOut (prompt ++ endOfInput))
  | session, line :: rest =>
    match reply fuel session line with
    | none => none
    | some .goodbye => some (.toOut (prompt ++ farewell))
    | some (.next written after) =>
      (dialogue fuel after rest).map fun more => .toOut prompt ++ written ++ more

end RobotScript.CommandLine
