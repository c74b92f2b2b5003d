import RobotScript.Proofs.Relating.Causes
import RobotScript.Proofs.Relating.Runs

/-! # Where runs may part

Which exits a script brings about by itself, and the few places where an evaluator asks its
setup or its store. Two runs that agree on these go the same way. -/
set_option autoImplicit false

namespace RobotScript

open Evaluation

variable {Host : Type}

/-! ## Exits of a script's own making -/

/-- The causes that do not lie in the script: the limits and the watch. -/
def FatalCause.isImposed : FatalCause → Bool
  | .stepLimit _ | .interrupted | .callDepthLimit _ => true
  | _ => false

/-- The script itself brought this about. -/
def Cause.IsOwn : Cause → Prop
  | .fatal cause => cause.isImposed = false
  | _ => True

def Exit.IsOwn : Exit → Prop
  | .fault reason => reason.cause.IsOwn
  | .jump _ => True

theorem Cause.IsOwn.recoverable (cause : RecoverableCause) : (Cause.recoverable cause).IsOwn :=
  trivial

theorem Cause.IsOwn.fatal {cause : FatalCause} (own : cause.isImposed = false) :
    (Cause.fatal cause).IsOwn := own

theorem Exit.IsOwn.fault {cause : Cause} (own : cause.IsOwn) (span : Span) :
    (Exit.fault ⟨cause, span⟩).IsOwn := own

/-- A result that the script may go on from. -/
def Caught {α : Type} : Except Exit α → Prop
  | .ok _ => True
  | .error (.fault fault) => fault.isRecoverable = true
  | .error (.jump _) => True

/-- A step that hands on every fault that no `try` branch takes. -/
def HandsOn {α β : Type} (next : Except Exit α → Run Host β) : Prop :=
  ∀ fault : Fault, fault.isRecoverable = false →
    next (.error (.fault fault)) = Run.stop (.fault fault)

theorem Fault.isOwn_of_isRecoverable {fault : Fault} (recovers : fault.isRecoverable = true) :
    fault.cause.IsOwn := by
  obtain ⟨cause, span⟩ := fault
  cases cause with
  | fatal cause => cases recovers
  | _ => trivial

theorem Caught.isOwn {α : Type} {exit : Exit} (caught : Caught (.error exit : Except Exit α)) :
    exit.IsOwn := by
  cases exit with
  | fault fault => exact Fault.isOwn_of_isRecoverable caught
  | jump target => trivial

theorem caught_or_fatal {α : Type} (result : Except Exit α) :
    Caught result ∨ ∃ fault : Fault, result = .error (.fault fault) ∧ fault.isRecoverable = false := by
  rcases result with (fault | target) | value
  · by_cases recovers : fault.isRecoverable = true
    · exact .inl recovers
    · exact .inr ⟨fault, rfl, Bool.eq_false_iff.mpr recovers⟩
  · exact .inl trivial
  · exact .inl trivial

theorem Exit.fatal_of_not_isOwn {exit : Exit} (imposed : ¬ exit.IsOwn) :
    ∃ fault, exit = .fault fault ∧ fault.isRecoverable = false := by
  cases exit with
  | jump target => exact absurd trivial imposed
  | fault reason =>
    refine ⟨reason, rfl, Bool.eq_false_iff.mpr ?_⟩
    exact fun recovers => imposed (Fault.isOwn_of_isRecoverable recovers)

def FailsOwn {α : Type} (outcome : Except Cause α) : Prop :=
  ∀ cause, outcome = .error cause → cause.IsOwn

theorem OnValues.failsOwn {α : Type} {outcome : Except Cause α} (onValues : OnValues outcome) :
    FailsOwn outcome := by
  intro cause failed
  have ofValues := onValues cause failed
  cases cause with
  | fatal cause => cases cause <;> first | rfl | cases ofValues
  | _ => trivial

/-! ## The places where runs are told apart -/

namespace Evaluation

def admitted (setup : Setup Host) (span : Span) (next : Run Host Value) : Run Host Value := do
  if setup.limits.maxDepth ≤ (← Run.depth) then
    Run.fail (.fatal (.callDepthLimit setup.limits.maxDepth)) span
  else next

theorem tick_past {setup : Setup Host} {limit : Nat}
    (limited : setup.limits.maxSteps = some limit) (span : Span) {machine : Machine Host}
    (past : limit < machine.steps + 1) :
    tick setup span machine =
      some (.error (.fault ⟨.fatal (.stepLimit limit), span⟩), machine.counted) := by
  simp only [tick, limited, Bind.bind, Run.bind, Run.countStep, past, if_true]
  rfl

theorem tick_within {setup : Setup Host} (span : Span) {machine : Machine Host}
    (within : ∀ limit, setup.limits.maxSteps = some limit → machine.steps + 1 ≤ limit) :
    tick setup span machine = tick.consult setup span (machine.steps + 1) machine.counted := by
  cases limited : setup.limits.maxSteps with
  | none => simp only [tick, limited, Bind.bind, Run.bind, Run.countStep, Machine.counted]
  | some limit =>
    have left := Nat.not_lt.mpr (within limit limited)
    simp only [tick, limited, Bind.bind, Run.bind, Run.countStep, Machine.counted, left, if_false]

theorem tick_ended {setup : Setup Host} {span : Span} {machine after : Machine Host}
    {result : Except Exit Unit} (ran : tick setup span machine = some (result, after)) :
    (∃ limit, setup.limits.maxSteps = some limit ∧
        result = .error (.fault ⟨.fatal (.stepLimit limit), span⟩) ∧ after = machine.counted) ∨
      tick.consult setup span (machine.steps + 1) machine.counted = some (result, after) := by
  have asked (within : ∀ limit, setup.limits.maxSteps = some limit → machine.steps + 1 ≤ limit) :
      tick.consult setup span (machine.steps + 1) machine.counted = some (result, after) :=
    (tick_within span within).symm.trans ran
  cases limited : setup.limits.maxSteps with
  | none =>
    refine .inr (asked fun limit isLimit => ?_)
    rw [limited] at isLimit
    cases isLimit
  | some limit =>
    by_cases past : limit < machine.steps + 1
    · rw [tick_past limited span past] at ran
      cases ran
      exact .inl ⟨limit, rfl, rfl, rfl⟩
    · refine .inr (asked fun other isLimit => ?_)
      rw [limited] at isLimit
      exact Option.some.inj isLimit ▸ Nat.le_of_not_lt past

theorem consult_ended {setup : Setup Host} {span : Span} {number : Nat} {machine after : Machine Host}
    {result : Except Exit Unit}
    (ran : tick.consult setup span number machine = some (result, after)) :
    after.steps = machine.steps ∧
      ∀ exit, result = .error exit → exit = .fault ⟨.fatal .interrupted, span⟩ := by
  unfold tick.consult at ran
  cases isWatch : setup.watch with
  | none =>
    rw [isWatch] at ran
    cases ran
    refine ⟨rfl, ?_⟩
    rintro _ ⟨⟩
  | some watch =>
    rw [isWatch] at ran
    rcases Run.bind_ended ran with ⟨exit, -, ⟨⟩⟩ | ⟨goesOn, between, ⟨⟩, further⟩
    cases isGoing : (watch number machine.host).1 with
    | true =>
      rw [isGoing] at further
      cases further
      refine ⟨rfl, ?_⟩
      rintro _ ⟨⟩
    | false =>
      rw [isGoing] at further
      cases further
      refine ⟨rfl, ?_⟩
      rintro _ ⟨⟩
      rfl

theorem admitted_apply (setup : Setup Host) (span : Span) (next : Run Host Value)
    (machine : Machine Host) :
    admitted setup span next machine =
      if setup.limits.maxDepth ≤ machine.depth then
        some (.error (.fault ⟨.fatal (.callDepthLimit setup.limits.maxDepth), span⟩), machine)
      else next machine := by
  simp only [admitted, Bind.bind, Run.bind, Run.depth]
  split <;> rfl

def resolved (name : String) (span : Span) (scope : ScopeId) (next : Closure → Run Host Value) :
    Run Host Value := do
  let store ← Run.store
  match store.function? scope name with
  | none => Run.fail (.fatal (.undefinedFunction name)) span
  | some closure =>
    if store.isAlive closure.home then next closure
    else Run.fail (.fatal (.deadFunction name)) span

def overwritten (name : String) (span : Span) (scope : ScopeId) (stored : Value) :
    Run Host Value := do
  match (← Run.store).assign? scope name stored with
  | some store =>
    Run.changeStore fun _ => store
    return stored
  | none => Run.fail (.fatal (.undefinedVariable name)) span

def reported (span : Span) : Except Exit Value → Run Host Value
  | .ok value => return value
  | .error exit => Run.stop (.fault (topFault span exit))

def script (setup : Setup Host) (inner : Node → ScopeId → Run Host Value) (scope : ScopeId) :
    Value → List Node → Run Host Value
  | last, [] => return last
  | _, node :: rest => do
    let value ← reported node.span (← (topStatement setup inner scope node).settle)
    script setup inner scope value rest

theorem topStatements_eq (setup : Setup Host) (inner : Node → ScopeId → Run Host Value)
    (scope : ScopeId) (last : Value) (nodes : List Node) (machine : Machine Host) :
    topStatements setup inner scope last nodes machine =
      (script setup inner scope last nodes machine).map fun ended =>
        (ended.1.mapError (topFault default), ended.2) := by
  induction nodes generalizing last machine with
  | nil => rfl
  | cons node rest ih =>
    simp only [topStatements, script, Bind.bind, Run.bind, Run.settle]
    rcases topStatement setup inner scope node machine with _ | ⟨exit | value, after⟩
    · rfl
    · rfl
    · exact ih value after

theorem runIn_eq (setup : Setup Host) (fuel : Nat) (root : Node) (scope : ScopeId)
    (machine : Machine Host) :
    runIn setup fuel root scope machine =
      (script setup (evaluate setup fuel) scope .void root.statements machine).map fun ended =>
        (ended.1.mapError (topFault default), ended.2) :=
  topStatements_eq setup (evaluate setup fuel) scope .void root.statements machine

theorem mapError_topFault {result : Except Exit Value} {cause : FatalCause} {place span : Span}
    (isFault : result.mapError (topFault place) = .error ⟨.fatal cause, span⟩) :
    result = .error (.fault ⟨.fatal cause, span⟩) := by
  rcases result with (fault | (value | _ | _)) | value
  · cases isFault
    rfl
  · cases isFault
  · cases isFault
  · cases isFault
  · cases isFault

end Evaluation

end RobotScript
