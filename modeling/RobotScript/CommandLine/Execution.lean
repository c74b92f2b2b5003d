import RobotScript.CommandLine.Dialogue
import RobotScript.CommandLine.Options

/-! # Carrying out a command line

With a file, the script in it is played for the turns asked for; without one, or
if asked to, a dialogue begins. The exit code is 0 if all went well, 1 if the
script did not, and 2 if the arguments were wrong. -/
set_option autoImplicit false

namespace RobotScript.CommandLine

inductive FileState where
  | missing
  | unreadable (reason : String)
  | readable (source : String)

structure Finished where
  exitCode : Nat
  written : Written

def setup (limits : Limits) : Setup Simulation := ⟨Simulation.natives, limits, none⟩

inductive Task where
  | play (file : String) (options : Options)
  | converse (options : Options)

def taskOf (options : Options) : Task :=
  match options.file with
  | some file => if options.interactive then .converse options else .play file options
  | none => .converse options

def halted : Halt → Finished
  | .help => ⟨0, .toOut usage⟩
  | halt => ⟨2, .toErr halt.message⟩

def missingFile (file : String) : Finished := ⟨1, .toErr s!"Error: File '{file}' not found\n"⟩

def unreadableFile (file reason : String) : Finished :=
  ⟨1, .toErr s!"Error reading file '{file}': {reason}\n"⟩

/-- What one turn wrote. -/
def turnText (lines : List String) : Except Fault Value → Written
  | .ok _ => .lines lines
  | .error fault => .lines lines ++ .fault fault

def exitCode (summary : TurnSummary) : Nat := if summary.clean then 0 else 1

/-- Plays turns and writes what each of them printed when it ends, so that the
next turn begins with a host that holds no lines. -/
def playWriting (options : Options) (fuel : Nat) (root : Node) :
    (left turn : Nat) → TurnSummary → Simulation → Option Finished
  | 0, _, summary, _ => some ⟨exitCode summary, .nothing⟩
  | left + 1, turn, summary, host =>
    match playTurn (setup options.limits) fuel root (fun host turn => host.enterTurn turn) turn
      host with
    | none => none
    | some (result, after) =>
      (playWriting options fuel root left (turn + 1) (summary.count result) after.flushed).map
        fun rest => ⟨rest.exitCode, turnText after.lines result ++ rest.written⟩

def playFile (fuel : Nat) (options : Options) (file : String) : FileState → Option Finished
  | .missing => some (missingFile file)
  | .unreadable reason => some (unreadableFile file reason)
  | .readable source =>
    match compile Simulation.natives source with
    | .error fault => some ⟨exitCode .uncompiled, .fault fault⟩
    | .ok root => playWriting options fuel root options.turnCount 1 .start .fresh

def newSession (options : Options) : Session Simulation :=
  Session.start (setup options.limits) .fresh

/-- Carries out a command line, given what stands at each path and the lines of
the input. -/
def execute (fuel : Nat) (arguments : List String) (fileAt : String → FileState)
    (input : List String) : Option Finished :=
  match optionsOf arguments with
  | .error halt => some (halted halt)
  | .ok options =>
    match taskOf options with
    | .play file options => playFile fuel options file (fileAt file)
    | .converse options =>
      (dialogue fuel (newSession options) input).map fun written =>
        ⟨0, .toOut greeting ++ written⟩

end RobotScript.CommandLine
