import RobotScript.CommandLine.Execution

/-! # The program

Reads files and lines and writes what the command line decides, a turn or an
entry at a time. -/
set_option autoImplicit false

namespace RobotScript.CommandLine

def writeOut (written : Written) : IO Unit := do
  IO.print written.out
  (← IO.getStdout).flush
  IO.eprint written.err

def finish (finished : Finished) : IO UInt32 := do
  writeOut finished.written
  return UInt32.ofNat finished.exitCode

def exhaustedFuel : IO UInt32 := do
  IO.eprintln "The run was given up."
  return 1

/-- A path that cannot be resolved leads nowhere. -/
def resolves (file : String) : IO Bool := do
  try
    let _ ← IO.FS.realPath file
    return true
  catch _ => return false

def readFile (file : String) : IO FileState := do
  if ← resolves file then
    try
      let bytes ← IO.FS.readBinFile file
      match String.fromUTF8? bytes with
      | some source => return .readable source
      | none => return .unreadable "stream did not contain valid UTF-8"
    catch failure =>
      match failure with
      | .inappropriateType _ code details => return .unreadable s!"{details} (os error {code})"
      | .permissionDenied _ code details => return .unreadable s!"{details} (os error {code})"
      | other => return .unreadable (toString other)
  else return .missing

partial def playTurns (options : Options) (root : Node) (turn : Nat) (summary : TurnSummary)
    (host : Simulation) : IO UInt32 := do
  if options.turnCount < turn then return UInt32.ofNat (exitCode summary)
  else
    match playTurn (setup options.limits) Evaluation.ampleFuel root
      (fun host turn => host.enterTurn turn) turn host with
    | none => exhaustedFuel
    | some (result, after) =>
      writeOut (turnText after.lines result)
      playTurns options root (turn + 1) (summary.count result) after.flushed

partial def converse (session : Session Simulation) : IO UInt32 := do
  writeOut (.toOut prompt)
  let line ← (← IO.getStdin).getLine
  if line.isEmpty then
    writeOut (.toOut endOfInput)
    return 0
  else
    match reply Evaluation.ampleFuel session line with
    | none => exhaustedFuel
    | some .goodbye =>
      writeOut (.toOut farewell)
      return 0
    | some (.next written after) =>
      writeOut written
      converse after

def play (file : String) (options : Options) : IO UInt32 := do
  match ← readFile file with
  | .missing => finish (missingFile file)
  | .unreadable reason => finish (unreadableFile file reason)
  | .readable source =>
    match compile Simulation.natives source with
    | .error fault => finish ⟨exitCode .uncompiled, .fault fault⟩
    | .ok root => playTurns options root 1 .start .fresh

end RobotScript.CommandLine

open RobotScript.CommandLine in
def main (arguments : List String) : IO UInt32 := do
  match optionsOf arguments with
  | .error halt => finish (halted halt)
  | .ok options =>
    match taskOf options with
    | .play file options => play file options
    | .converse options =>
      writeOut (.toOut greeting)
      converse (newSession options)
