import RobotScript.Arithmetic
import RobotScript.Machine

/-! # Evaluation

`evaluate` gives a node its value in a scope. Everything that may go on for long
takes a step first: each statement of a block and each round of a loop. Fuel
bounds how deep evaluations nest and how often a `while` or `loop` goes round;
more fuel never changes how a run ends. The parts take the evaluator of nested
nodes as an argument, `inner`. -/
set_option autoImplicit false

namespace RobotScript.Evaluation

variable {Host : Type}

/-- Takes a step: past the limit, or if the host says so, the run ends. -/
def tick (setup : Setup Host) (span : Span) : Run Host Unit := do
  let steps ← Run.countStep
  match setup.limits.maxSteps with
  | some limit =>
    if limit < steps then Run.fail (.fatal (.stepLimit limit)) span else consult steps
  | none => consult steps
where
  consult (steps : Nat) : Run Host Unit := do
    match setup.watch with
    | none => return ()
    | some watch =>
      if ← Run.onHost (watch steps) then return ()
      else Run.fail (.fatal .interrupted) span

/-- The value of a variable as seen from a scope. -/
def variableValue (scope : ScopeId) (name : String) (span : Span) : Run Host Value := do
  match (← Run.store).get? scope name with
  | some value => return value
  | none => Run.fail (.fatal (.undefinedVariable name)) span

/-- The item of a list at a position that counts from zero. -/
def itemAt (name : String) (list position : Value) : Except Cause Value :=
  match list, position.asInt? with
  | .list _ items, some number =>
    if number < 0 then recoverable (.indexOutOfRange number name items.length)
    else
      match items[number.toInt.toNat]? with
      | some item => .ok item
      | none => recoverable (.indexOutOfRange number name items.length)
  | _, _ => fatal (.notIndexable name)

/-- What an assignment stores, from the value before and the one at its right. -/
def updated (name : String) (operator : AssignOp) (current : Value) (right : Option Value) :
    Except Cause Value :=
  match operator, right with
  | .set, some value => .ok value
  | .compound binary, some value => binary.apply current value
  | .increment, _ => BinaryOp.add.apply current (.int 1)
  | .decrement, _ => BinaryOp.subtract.apply current (.int 1)
  | operator, none => fatal (.assignmentWithoutValue operator name)

/-- The arguments as a native gets them: widened to the types that it names. -/
def prepared (parameters : Parameters) (arguments : List Value) : List Value :=
  match parameters with
  | .anyNumber => arguments
  | .exactly types => List.zipWith Value.widenTo types arguments

/-- A native has to give what its signature says. -/
def callNative (native : Native Host) (name : String) (arguments : List Value) (span : Span) :
    Run Host Value := do
  match ← Run.onHost (native.run (prepared native.signature.parameters arguments)) with
  | .error reason => Run.fail (.recoverable (.nativeFailed name reason)) span
  | .ok result =>
    let result := result.widenTo native.signature.returns
    if result.ty = native.signature.returns then return result
    else
      Run.fail (.fatal (.nativeResult name result.ty native.signature.returns)) span

def boundParameters (parameters : List Parameter) (arguments : List Value) : Bindings Value :=
  .ofList (List.zipWith
    (fun parameter argument => (parameter.name, argument.widenTo parameter.ty))
    parameters arguments)

/-- What a call gives when the function body has ended. -/
def callResult (name : String) (returns : Ty) (span : Span) : Except Exit Value → Run Host Value
  | .error (.fault fault) => Run.stop (.fault fault)
  | .error (.jump (.toCaller value)) => return value.widenTo returns
  | _ =>
    if returns.isVoid then return .void
    else Run.fail (.recoverable (.endedWithoutResult name returns)) span

/-- What a new variable holds. -/
def initialValue (declared : Ty) : Option Value → Value
  | some value => value.widenTo declared
  | none => Value.default declared

/-- Whether a loop goes on after its body has ended so. -/
def goesOn : Except Exit Value → Run Host Bool
  | .ok _ => return true
  | .error (.jump .nextRound) => return true
  | .error (.jump .behindLoop) => return false
  | .error exit => Run.stop exit

section

variable (setup : Setup Host) (inner : Node → ScopeId → Run Host Value)

def values (scope : ScopeId) : List Node → Run Host (List Value)
  | [] => return []
  | node :: rest => do
    let first ← inner node scope
    let others ← values scope rest
    return first :: others

def optionalValue (scope : ScopeId) : Option Node → Run Host (Option Value)
  | none => return none
  | some node => do return some (← inner node scope)

/-- A value that decides. -/
def condition (node : Node) (scope : ScopeId) : Run Host Bool := do
  Run.lift node.span (truth (← inner node scope))

/-- The right side is looked at only if the left one does not decide. -/
def decided (operator : BinaryOp) (left right : Node) (scope : ScopeId) : Run Host Value := do
  let first ← condition inner left scope
  if first = (operator = .or) then return .bool first
  else return .bool (← condition inner right scope)

def statements (scope : ScopeId) : List Node → Run Host Value
  | [] => return .void
  | node :: rest => do
    tick setup node.span
    let _ ← inner node scope
    statements scope rest

def callFunction (closure : Closure) (name : String) (arguments : List Value) (span : Span) :
    Run Host Value := do
  let function := closure.function
  if setup.limits.maxDepth ≤ (← Run.depth) then
    Run.fail (.fatal (.callDepthLimit setup.limits.maxDepth)) span
  else
    let body := Run.inScope closure.home (boundParameters function.parameters arguments)
      fun frame => statements setup inner frame function.body.statements
    callResult name function.returns span (← (Run.deeper body).settle)

/-- What a call does with the values of its arguments. Natives come first; a
function of the script has to be alive. -/
def invoke (name : String) (arguments : List Value) (span : Span) (scope : ScopeId) :
    Run Host Value := do
  match setup.natives.find? name with
  | some native => callNative native name arguments span
  | none =>
    let store ← Run.store
    match store.function? scope name with
    | none => Run.fail (.fatal (.undefinedFunction name)) span
    | some closure =>
      if store.isAlive closure.home then callFunction setup inner closure name arguments span
      else Run.fail (.fatal (.deadFunction name)) span

def call (name : String) (arguments : List Node) (span : Span) (scope : ScopeId) :
    Run Host Value := do
  invoke setup inner name (← values inner scope arguments) span scope

def assign (name : String) (operator : AssignOp) (right : Option Node) (span : Span)
    (scope : ScopeId) : Run Host Value := do
  let right ← optionalValue inner scope right
  let current ← variableValue scope name span
  let result ← Run.lift span (updated name operator current right)
  let stored := result.widenTo current.ty
  match (← Run.store).assign? scope name stored with
  | some store =>
    Run.changeStore fun _ => store
    return stored
  | none => Run.fail (.fatal (.undefinedVariable name)) span

def declare (name : String) (declared : Ty) (initializer : Option Node) (scope : ScopeId) :
    Run Host Value := do
  let value ← optionalValue inner scope initializer
  Run.changeStore fun store => store.define scope name (initialValue declared value)
  return .void

/-- The branches in order; the first one that is taken gives the value. -/
def chain (otherwise : Option Node) (scope : ScopeId) : List (Branch Form) → Run Host Value
  | [] =>
    match otherwise with
    | none => return .void
    | some node => inner node scope
  | .test guard body _ :: rest => do
    if ← condition inner guard scope then inner body scope else chain otherwise scope rest
  | .attempt body _ :: rest => do
    match ← (inner body scope).settle with
    | .ok value => return value
    | .error (.fault fault) =>
      if fault.isRecoverable then chain otherwise scope rest else Run.stop (.fault fault)
    | .error (.jump jump) => Run.stop (.jump jump)

/-- Rounds of a loop: a step, the test, the body, and what comes after it. -/
def rounds (span : Span) (test body : Node) (after : Run Host Unit) (scope : ScopeId) :
    Nat → Run Host Value
  | 0 => Run.exhausted
  | fuel + 1 => do
    tick setup span
    if ← condition inner test scope then
      if ← goesOn (← (inner body scope).settle) then
        after
        rounds span test body after scope fuel
      else return .void
    else return .void

/-- A number of rounds that is known when the first begins. -/
def repeated (span : Span) (body : Node) (scope : ScopeId) : Nat → Run Host Value
  | 0 => return .void
  | times + 1 => do
    tick setup span
    if ← goesOn (← (inner body scope).settle) then repeated span body scope times
    else return .void

/-- A negative count is no round at all. -/
def repetitions (count : Value) : Except Cause Nat :=
  match count.asInt? with
  | some number => .ok number.toInt.toNat
  | none => fatal (.repeatCountNotInt count.ty)

def form (fuel : Nat) (node : Node) (scope : ScopeId) : Run Host Value :=
  match node.form with
  | .literal value => return value
  | .variable name => variableValue scope name node.span
  | .unary operator operand => do
    let value ← inner operand scope
    Run.lift node.span (operator.apply value)
  | .binary left operator right =>
    if operator = .and || operator = .or then decided inner operator left right scope
    else do
      let first ← inner left scope
      let second ← inner right scope
      Run.lift node.span (operator.apply first second)
  | .block nodes =>
    Run.inScope scope .empty fun block => statements setup inner block nodes
  | .returning value => do
    let value ← optionalValue inner scope value
    Run.stop (.jump (.toCaller (value.getD .void)))
  | .breaking => Run.stop (.jump .behindLoop)
  | .continuing => Run.stop (.jump .nextRound)
  | .declare name declared initializer => declare inner name declared initializer scope
  | .assign name operator value => assign inner name operator value node.span scope
  | .define function => do
    Run.changeStore fun store => store.defineFunction scope ⟨function, scope⟩
    return .void
  | .call name arguments => call setup inner name arguments node.span scope
  | .index name position => do
    let position ← inner position scope
    let list ← variableValue scope name node.span
    Run.lift node.span (itemAt name list position)
  | .list elements => do
    let items ← values inner scope elements
    return .list node.ty.primitive (items.map (Value.widenTo node.ty.element))
  | .loop initializer test step body =>
    Run.inScope scope .empty fun header => do
      let _ ← inner initializer header
      let after : Run Host Unit := do
        let _ ← inner step header
      rounds setup inner node.span test body after header fuel
  | .repeating count body => do
    let number ← inner count scope
    let times ← Run.lift count.span (repetitions number)
    repeated setup inner node.span body scope times
  | .whileTrue test body =>
    rounds setup inner node.span test body (return ()) scope fuel
  | .chain branches otherwise => chain inner otherwise scope branches

end

def evaluate (setup : Setup Host) : Nat → Node → ScopeId → Run Host Value
  | 0, _, _ => Run.exhausted
  | fuel + 1, node, scope => form setup (evaluate setup fuel) fuel node scope

/-- One statement of a script: a step and its value. -/
def topStatement (setup : Setup Host) (inner : Node → ScopeId → Run Host Value) (scope : ScopeId)
    (node : Node) : Run Host Value := do
  tick setup node.span
  inner node scope

/-- Why a statement of a script ends the script; outside functions and loops a
jump has no target. -/
def topFault (span : Span) : Exit → Fault
  | .fault fault => fault
  | .jump (.toCaller _) => ⟨.recoverable .returnOutsideFunction, span⟩
  | .jump _ => ⟨.recoverable .jumpOutsideLoop, span⟩

/-- How a script ended, if it had fuel enough: the value of its last statement
or the fault that ended it. -/
abbrev Ending (Host : Type) := Option (Except Fault Value × Machine Host)

def topStatements (setup : Setup Host) (inner : Node → ScopeId → Run Host Value)
    (scope : ScopeId) : Value → List Node → Machine Host → Ending Host
  | last, [], machine => some (.ok last, machine)
  | _, node :: rest, machine =>
    match topStatement setup inner scope node machine with
    | none => none
    | some (.ok value, after) => topStatements setup inner scope value rest after
    | some (.error exit, after) => some (.error (topFault node.span exit), after)

/-- Runs the statements of a script in a scope. -/
def runIn (setup : Setup Host) (fuel : Nat) (root : Node) (scope : ScopeId)
    (machine : Machine Host) : Ending Host :=
  topStatements setup (evaluate setup fuel) scope .void root.statements machine

/-- Fuel beyond what any run that ends will use. -/
def ampleFuel : Nat := 4611686018427387904

end RobotScript.Evaluation
