import RobotScript.Proofs.Scoping.Outlook
import RobotScript.Script

/-! # Runs that keep a ledger

A traced run is a run whose host carries a ledger beside it. The ledger holds the
place of the declaration that made each binding, and each use of a name with what
the use reached along the chain of scopes. Everything else is left to the
evaluator itself, which neither reads the ledger nor writes it. -/
set_option autoImplicit false

namespace RobotScript

structure Ledger where
  /-- The place of the declaration that made a binding of a scope. -/
  sites : ScopeId → Name → Option Span
  /-- The uses of names so far, the earliest first. -/
  uses : List Use

namespace Ledger

def blank : Ledger := ⟨fun _ _ => none, []⟩

def noted (ledger : Ledger) (use : Use) : Ledger :=
  { ledger with uses := ledger.uses ++ [use] }

def placed (ledger : Ledger) (scope : ScopeId) (name : Name) (site : Span) : Ledger :=
  { ledger with
    sites := fun id other =>
      if id = scope ∧ other = name then some site else ledger.sites id other }

def prepared (ledger : Ledger) (scope : ScopeId) (names : List Name) (site : Span) : Ledger :=
  { ledger with
    sites := fun id other =>
      if id = scope then (if other ∈ names then some site else none) else ledger.sites id other }

end Ledger

/-! ## Hosts with something beside them -/

variable {Host Extra : Type}

/-- A native beside which something is kept that it does not see. -/
def Native.beside (note : Native Host → List Value → Extra → Extra) (native : Native Host) :
    Native (Host × Extra) :=
  ⟨native.signature, fun arguments host =>
    let (result, after) := native.run arguments host.1
    (result, (after, note native arguments host.2))⟩

def watchBeside (watch : Nat → Host → Bool × Host) (steps : Nat) (host : Host × Extra) :
    Bool × (Host × Extra) :=
  let (goesOn, after) := watch steps host.1
  (goesOn, (after, host.2))

def Setup.beside (note : Native Host → List Value → Extra → Extra) (setup : Setup Host) :
    Setup (Host × Extra) :=
  ⟨setup.natives.map (Native.beside note), setup.limits, setup.watch.map watchBeside⟩

/-- One call of a native, with the arguments that it got. -/
structure Invocation where
  signature : Signature
  arguments : List Value

/-- The setup whose natives keep a list of their invocations, the earliest first. -/
def Setup.recording (setup : Setup Host) : Setup (Host × List Invocation) :=
  setup.beside fun native arguments invocations =>
    invocations ++ [⟨native.signature, arguments⟩]

/-! ## Traced runs -/

/-- A host with a ledger beside it. -/
abbrev Traced (Host : Type) := Host × Ledger

namespace Machine

def ledger (machine : Machine (Traced Host)) : Ledger := machine.host.2

def withLedger (machine : Machine (Traced Host)) (ledger : Ledger) : Machine (Traced Host) :=
  { machine with host := (machine.host.1, ledger) }

/-- What a scope itself binds a name to, and where. A variable has the type of
the value that is stored in it. -/
def entryIn? (machine : Machine (Traced Host)) (name : Name) (id : ScopeId) : Option Entry :=
  match name with
  | .var label =>
    (machine.store.variableIn? label id).map fun value =>
      ⟨.var value.ty, machine.ledger.sites id name⟩
  | .func label =>
    (machine.store.functionIn? label id).map fun closure =>
      ⟨.func closure.function.signature, machine.ledger.sites id name⟩

def reach (machine : Machine (Traced Host)) (scope : ScopeId) (name : Name) : Option Entry :=
  (machine.store.chain scope).findSome? (machine.entryIn? name)

end Machine

namespace Tracing

def native (native : Native Host) : Native (Traced Host) := native.beside fun _ _ ledger => ledger

def setup (setup : Setup Host) : Setup (Traced Host) := setup.beside fun _ _ ledger => ledger

def record (change : Machine (Traced Host) → Ledger) : Run (Traced Host) Unit := fun machine =>
  some (.ok (), machine.withLedger (change machine))

def note (node : Node) (scope : ScopeId) (name : Name) : Run (Traced Host) Unit :=
  record fun machine => machine.ledger.noted ⟨node, machine.reach scope name⟩

def place (scope : ScopeId) (name : Name) (site : Span) : Run (Traced Host) Unit :=
  record fun machine => machine.ledger.placed scope name site

def prepare (names : List Name) (site : Span) : Run (Traced Host) Unit :=
  record fun machine => machine.ledger.prepared machine.store.size names site

/-- Notes what a call reaches, unless it is a native, and prepares the ledger for
the parameters of the function. -/
def announce (setup : Setup Host) (node : Node) (scope : ScopeId) (name : String) :
    Run (Traced Host) Unit := do
  match setup.natives.find? name with
  | some _ => return ()
  | none =>
    note node scope (.func name)
    match (← Run.store).function? scope name with
    | none => return ()
    | some closure =>
      prepare (Parameter.names closure.function.parameters) closure.function.body.span

section

variable (plain : Setup Host) (inner : Node → ScopeId → Run (Traced Host) Value)

/-- Notes what a node reaches by a name, once the value it waits for is there. -/
def noting (node : Node) (scope : ScopeId) (name : Name) (child : Node) (at_ : ScopeId) :
    Run (Traced Host) Value := do
  let value ← inner child at_
  note node scope name
  return value

/-- The evaluator, with the ledger kept around it. -/
def form (fuel : Nat) (node : Node) (scope : ScopeId) : Run (Traced Host) Value :=
  let untold := Evaluation.form (setup plain) inner fuel node scope
  match node.form with
  | .variable name => do
    note node scope (.var name)
    untold
  | .index name _ | .assign name _ (some _) =>
    Evaluation.form (setup plain) (noting inner node scope (.var name)) fuel node scope
  | .assign name _ none => do
    note node scope (.var name)
    untold
  | .call name arguments => do
    let arguments ← Evaluation.values inner scope arguments
    announce plain node scope name
    Evaluation.invoke (setup plain) inner name arguments node.span scope
  | .declare name _ _ => do
    let value ← untold
    place scope (.var name) node.span
    return value
  | .define function => do
    let value ← untold
    place scope (.func function.name) node.span
    return value
  | .block _ | .loop _ _ _ _ => do
    prepare [] node.span
    untold
  | _ => untold

end

def evaluate (plain : Setup Host) : Nat → Node → ScopeId → Run (Traced Host) Value
  | 0, _, _ => Run.exhausted
  | fuel + 1, node, scope => form plain (evaluate plain fuel) fuel node scope

def runFresh (plain : Setup Host) (fuel : Nat) (root : Node) (host : Host) :
    Evaluation.Ending (Traced Host) :=
  Evaluation.topStatements (setup plain) (evaluate plain fuel) 0 .void root.statements
    (Machine.ready Store.withRoot (host, .blank))

end Tracing

end RobotScript
