import RobotScript.Decimal.Numeral
import RobotScript.Machine

/-! # Options of the command line

Arguments are read from left to right and the first one that is wrong, or asks
for help, decides. An option that takes a number may stand once; its value is
the rest of a short option's argument, what follows `=`, or the next argument
unless that looks like an option. Behind `--` there are no options. -/
set_option autoImplicit false

namespace RobotScript.CommandLine

inductive NumberOption where
  | turns
  | maxSteps
  | maxDepth
deriving DecidableEq, Repr

inductive FlagOption where
  | verbose
  | interactive
  | help
deriving DecidableEq, Repr

inductive Halt where
  | help
  | unexpectedArgument (argument : String)
  | repeatedArgument (argument : String)
  | missingValue (argument : String)
  | unexpectedValue (argument : String)
  | invalidValue (argument value : String)
deriving DecidableEq, Repr

structure Options where
  file : Option String
  turns : Option Nat
  maxSteps : Option Nat
  maxDepth : Option Nat
  verbosity : Nat
  interactive : Bool
deriving DecidableEq, Repr

namespace Options

def none : Options := ⟨.none, .none, .none, .none, 0, false⟩

def limits (options : Options) : Limits :=
  ⟨options.maxSteps, options.maxDepth.getD Limits.standard.maxDepth⟩

/-- A script is played for one turn unless told otherwise. -/
def turnCount (options : Options) : Nat := options.turns.getD 1

def number? (options : Options) : NumberOption → Option Nat
  | .turns => options.turns
  | .maxSteps => options.maxSteps
  | .maxDepth => options.maxDepth

def withNumber (options : Options) (option : NumberOption) (value : Nat) : Options :=
  match option with
  | .turns => { options with turns := some value }
  | .maxSteps => { options with maxSteps := some value }
  | .maxDepth => { options with maxDepth := some value }

def setNumber (options : Options) (option : NumberOption) (argument value : String) :
    Except Halt Options :=
  match Decimal.count? value with
  | .none => .error (.invalidValue argument value)
  | some number =>
    if (options.number? option).isSome then .error (.repeatedArgument argument)
    else .ok (options.withNumber option number)

def setFlag (options : Options) (option : FlagOption) (argument : String) : Except Halt Options :=
  match option with
  | .help => .error .help
  | .verbose => .ok { options with verbosity := options.verbosity + 1 }
  | .interactive =>
    if options.interactive then .error (.repeatedArgument argument)
    else .ok { options with interactive := true }

def setFile (options : Options) (file : String) : Except Halt Options :=
  match options.file with
  | .none => .ok { options with file := some file }
  | some _ => .error (.unexpectedArgument file)

/-- Behind `--` every argument is a file. -/
def readFiles (options : Options) : List String → Except Halt Options
  | [] => .ok options
  | file :: rest =>
    match options.setFile file with
    | .error halt => .error halt
    | .ok next => next.readFiles rest

end Options

def longNumber? : String → Option NumberOption
  | "turns" => some .turns
  | "max-steps" => some .maxSteps
  | "max-depth" => some .maxDepth
  | _ => none

def longFlag? : String → Option FlagOption
  | "verbose" => some .verbose
  | "interactive" => some .interactive
  | "help" => some .help
  | _ => none

def shortNumber? : Char → Option NumberOption
  | 't' => some .turns
  | _ => none

def shortFlag? : Char → Option FlagOption
  | 'v' => some .verbose
  | 'i' => some .interactive
  | 'h' => some .help
  | _ => none

/-- Whether an argument is read as an option; a lone minus is a file. -/
def looksLikeOption (argument : String) : Bool :=
  argument ≠ "-" && argument.toList.head? = some '-'

inductive Request where
  | file (name : String)
  | onlyFiles
  | flags (options : List FlagOption)
  /-- Flags, and an option whose value is in the same argument. -/
  | number (before : List FlagOption) (option : NumberOption) (value : String)
  /-- Flags, and an option whose value is the next argument. -/
  | numberNext (before : List FlagOption) (option : NumberOption)
  /-- Flags, and something that is no option or takes no value. -/
  | wrong (before : List FlagOption) (halt : Halt)

/-- Letters behind one minus: flags, and at most one option with a value, which
takes all letters behind it, without an equals sign in front. -/
def readShort (argument : String) (before : List FlagOption) : List Char → Request
  | [] => .flags before
  | letter :: rest =>
    match shortFlag? letter with
    | some flag => readShort argument (before ++ [flag]) rest
    | none =>
      match shortNumber? letter, rest with
      | none, _ => .wrong before (.unexpectedArgument argument)
      | some option, [] => .numberNext before option
      | some option, '=' :: value => .number before option (String.ofList value)
      | some option, value => .number before option (String.ofList value)

/-- A word behind two minuses, perhaps with a value behind an equals sign. -/
def readLong (argument : String) (word : List Char) : Request :=
  let name := String.ofList (word.takeWhile (· ≠ '='))
  let value := (word.dropWhile (· ≠ '=')).tail?.map String.ofList
  match longNumber? name, longFlag? name, value with
  | some option, _, some value => .number [] option value
  | some option, _, none => .numberNext [] option
  | none, some flag, none => .flags [flag]
  | none, some _, some _ => .wrong [] (.unexpectedValue argument)
  | none, none, _ => .wrong [] (.unexpectedArgument argument)

def Request.ofArgument (argument : String) : Request :=
  match argument.toList with
  | ['-'] => .file argument
  | ['-', '-'] => .onlyFiles
  | '-' :: '-' :: word => readLong argument word
  | '-' :: letters => readShort argument [] letters
  | _ => .file argument

namespace Options

def setFlags (options : Options) (argument : String) : List FlagOption → Except Halt Options
  | [] => .ok options
  | flag :: rest =>
    match options.setFlag flag argument with
    | .error halt => .error halt
    | .ok next => next.setFlags argument rest

/-- Reads the arguments from left to right. -/
def read (options : Options) : List String → Except Halt Options
  | [] => .ok options
  | argument :: rest =>
    match Request.ofArgument argument with
    | .onlyFiles => options.readFiles rest
    | .file name => do
      let next ← options.setFile name
      next.read rest
    | .flags flags => do
      let next ← options.setFlags argument flags
      next.read rest
    | .wrong before halt => do
      let _ ← options.setFlags argument before
      throw halt
    | .number before option value => do
      let flagged ← options.setFlags argument before
      let next ← flagged.setNumber option argument value
      next.read rest
    | .numberNext before option =>
      match rest with
      | [] => do
        let _ ← options.setFlags argument before
        throw (.missingValue argument)
      | value :: more => do
        let flagged ← options.setFlags argument before
        if looksLikeOption value then throw (.missingValue argument)
        else
          let next ← flagged.setNumber option argument value
          next.read more

end Options

def optionsOf (arguments : List String) : Except Halt Options := Options.none.read arguments

def usage : String :=
  String.join
    ["Compiles and runs robot control scripts\n",
     "\n",
     "Usage: botlang [OPTIONS] [FILE]\n",
     "\n",
     "Arguments:\n",
     "  [FILE]  The script file to execute\n",
     "\n",
     "Options:\n",
     "  -t, --turns <N>      Number of turns to run the script for [default: 1]\n",
     "      --max-steps <N>  Abort a turn after this many statements and loop iterations\n",
     "      --max-depth <N>  Maximum nesting of function calls\n",
     "  -v, --verbose...     Log more detail (-v for debug, -vv for trace)\n",
     "  -i, --interactive    Start in interactive REPL mode\n",
     "  -h, --help           Print help\n"]

def Halt.message : Halt → String
  | .help => usage
  | .unexpectedArgument argument => s!"error: unexpected argument '{argument}' found\n"
  | .repeatedArgument argument =>
    s!"error: the argument '{argument}' cannot be used multiple times\n"
  | .missingValue argument =>
    s!"error: a value is required for '{argument}' but none was supplied\n"
  | .unexpectedValue argument => s!"error: unexpected value for '{argument}' found\n"
  | .invalidValue argument value => s!"error: invalid value '{value}' for '{argument}'\n"

end RobotScript.CommandLine
