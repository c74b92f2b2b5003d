import RobotScript.Position
import RobotScript.Ty
import RobotScript.Operator
import RobotScript.Decimal.Numeral
import RobotScript.Decimal.Places
import RobotScript.Value
import RobotScript.Diagnostic
import RobotScript.Fault
import RobotScript.Text.Letter
import RobotScript.Text.Blank
import RobotScript.Token
import RobotScript.Token.Scan
import RobotScript.Bindings
import RobotScript.Context
import RobotScript.Tree
import RobotScript.Grammar.Script
import RobotScript.Native
import RobotScript.Simulation
import RobotScript.Workbench
import RobotScript.Arithmetic
import RobotScript.Scope
import RobotScript.Machine
import RobotScript.Evaluation
import RobotScript.Script
import RobotScript.Session
import RobotScript.CommandLine.Options
import RobotScript.CommandLine.Dialogue
import RobotScript.CommandLine.Execution
import RobotScript.Main
import RobotScript.Proofs.Reading.ExpressionSound
import RobotScript.Proofs.Reading.StatementSound
import RobotScript.Proofs.Reading.Soundness
import RobotScript.Proofs.Rendering.Tokens
import RobotScript.Proofs.Rendering.Ladder
import RobotScript.Proofs.Decimal.IntText
import RobotScript.Proofs.Rendering.ExpressionReads
import RobotScript.Proofs.Rendering.AtomReads
import RobotScript.Proofs.Rendering.ChainReads
import RobotScript.Proofs.Rendering.StatementReads
import RobotScript.Proofs.Rendering.RoundTrip
import RobotScript.Proofs.Typing.Operators
import RobotScript.Proofs.Scoping.Names
import RobotScript.Proofs.Scoping.Outlook
import RobotScript.Proofs.Scoping.Calm
import RobotScript.Proofs.Running.Chains
import RobotScript.Proofs.Tracing.Trace
import RobotScript.Proofs.Running.World
import RobotScript.Proofs.Running.Rules
import RobotScript.Proofs.Running.Changes
import RobotScript.Proofs.Running.Ready
import RobotScript.Proofs.Running.Expressions
import RobotScript.Proofs.Running.Uses
import RobotScript.Proofs.Running.Calls
import RobotScript.Proofs.Running.Sequences
import RobotScript.Proofs.Running.Frames
import RobotScript.Proofs.Running.Statements
import RobotScript.Proofs.Running.Soundness
import RobotScript.Proofs.Tracing.Bare
import RobotScript.Proofs.Tracing.Projection
import RobotScript.Proofs.Tracing.Erasure
import RobotScript.Proofs.Running.Scripts
import RobotScript.Proofs.Typing.Spans
import RobotScript.Proofs.Scoping.Spans
import RobotScript.Proofs.Soundness
import RobotScript.Proofs.Relating.Runs
import RobotScript.Proofs.Relating.Congruence
import RobotScript.Proofs.Relating.Course
import RobotScript.Proofs.Relating.Cut
import RobotScript.Proofs.Relating.Renaming
import RobotScript.Proofs.Relating.Mirror
import RobotScript.Proofs.Limiting.OnlyCuts
import RobotScript.Proofs.Halting.Height
import RobotScript.Proofs.Halting.Rules
import RobotScript.Proofs.Halting.Bound
import RobotScript.Proofs.Entering.Standing
import RobotScript.Proofs.Entering.Consistency
import RobotScript.Proofs.Joining.Readers
import RobotScript.Proofs.Joining.Expressions
import RobotScript.Proofs.Joining.Statements
import RobotScript.Proofs.Joining.Scripts
import RobotScript.Proofs.Joining.Texts
import RobotScript.Proofs.Joining.Entries
import RobotScript.Proofs.Tree.Within
import RobotScript.Proofs.Typing.Places
import RobotScript.Proofs.Relating.Causes
import RobotScript.Proofs.Watching.Visits
import RobotScript.Proofs.Scoping.Visible
import RobotScript.Proofs.Leaving.Leaves
import RobotScript.Proofs.Leaving.Confined
import RobotScript.Proofs.Leaving.Exits
import RobotScript.Proofs.Leaving.Jumps
import RobotScript.Proofs.Binding.Lookups
import RobotScript.Proofs.Binding.World
import RobotScript.Proofs.Binding.Runs
import RobotScript.Proofs.Binding.Situated
import RobotScript.Proofs.Binding.Ready
import RobotScript.Proofs.Binding.Steady
import RobotScript.Proofs.Binding.Calls
import RobotScript.Proofs.Binding.Soundness
import RobotScript.Proofs.Binding.Sessions
import RobotScript.Proofs.Leftovers.Covering
import RobotScript.Proofs.Leftovers.Shadows
import RobotScript.Proofs.Leftovers.Tidy
import RobotScript.Proofs.Leftovers.Answers
import RobotScript.Proofs.Placing.Texts
import RobotScript.Proofs.Placing.Faithful
import RobotScript.Proofs.Placing.Readers
import RobotScript.Proofs.Placing.Expressions
import RobotScript.Proofs.Placing.Statements
import RobotScript.Proofs.Placing.Scripts
import RobotScript.Proofs.Placing.Programs
import RobotScript.Proofs.Placing.Sessions
import RobotScript.Proofs.Locality.Regions
import RobotScript.Proofs.Relating.Lockstep
import RobotScript.Proofs.Locality.Sharing
import RobotScript.Proofs.Locality.Evaluation
import RobotScript.Proofs.Playing.Turns
import RobotScript.Proofs.Scanning.Pieces
import RobotScript.Proofs.Scanning.Tiling
import RobotScript.Proofs.Decimal.Shapes
import RobotScript.Proofs.Scanning.Numerals
import RobotScript.Proofs.Scanning.Rewriting
import RobotScript.Proofs.Refusing.Expressions
import RobotScript.Proofs.Refusing.Causes
import RobotScript.Proofs.Scanning.Rescanning
import RobotScript.Proofs.Computing.Ints
import RobotScript.Proofs.Typing.Agreement
import RobotScript.Proofs.Double.Nearest
import RobotScript.Proofs.Double.Rounding
import RobotScript.Proofs.Double.Packing
import RobotScript.Proofs.Double.Whole
import RobotScript.Proofs.Computing.Order
import RobotScript.Proofs.Relating.Partings
import RobotScript.Proofs.Relating.Pairing
import RobotScript.Proofs.Typing.Quiet
import RobotScript.Proofs.Locality.Keeping
import RobotScript.Proofs.Locality.Locals
import RobotScript.Proofs.Locality.Inserting
import RobotScript.Proofs.Locality.Headers
import RobotScript.Proofs.Calling.Journal
import RobotScript.Proofs.Calling.Depth
import RobotScript.Proofs.Rereading.Readings
import RobotScript.Proofs.Rereading.Expressions
import RobotScript.Proofs.Rereading.Denoting
import RobotScript.Proofs.Expanding.Operands
import RobotScript.Proofs.Expanding.Assignments
import RobotScript.Proofs.Expanding.Expansions
import RobotScript.Proofs.Expanding.Evaluation
import RobotScript.Proofs.Expanding.Statements
import RobotScript.Proofs.Halting.Finishing
import RobotScript.Proofs.Halting.Nesting
import RobotScript.Proofs.Walking.Cursor
import RobotScript.Proofs.Walking.Ahead
import RobotScript.Proofs.Walking.Steps
import RobotScript.Proofs.Walking.Mirroring
import RobotScript.Proofs.Walking.Expressions
import RobotScript.Proofs.Walking.Names
import RobotScript.Proofs.Walking.ExpressionMirrors
import RobotScript.Proofs.Walking.Statements
import RobotScript.Proofs.Walking.StatementMirrors
import RobotScript.Proofs.Walking.ScriptMirrors
import RobotScript.Proofs.Walking.Progress
import RobotScript.Proofs.Walking.Balance
import RobotScript.Proofs.Walking.Speculation
import RobotScript.Proofs.Scanning.Composing
import RobotScript.Proofs.Locality.Slots
import RobotScript.Proofs.Scoping.Histories
import RobotScript.Proofs.Spelling.Scanning
import RobotScript.Proofs.Spelling.Ints
