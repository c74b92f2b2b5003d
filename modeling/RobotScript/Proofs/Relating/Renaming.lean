import RobotScript.Proofs.Relating.Congruence

/-! # Runs that differ in the names of their cuts

The second of two runs changes the machine as the first does and ends as it does,
except that the exits that do not lie in the script go by other names. With no name
changed this says that more fuel never changes how a run ends. -/
set_option autoImplicit false

namespace RobotScript

open Evaluation

variable {Host : Type} {rename : Exit → Exit} {α β : Type}

theorem mapError_error {one two : Type} (change : one → two) (error : one) :
    (Except.error error : Except one α).mapError change = .error (change error) := rfl

/-- Whenever the first run ends, the second ends so with its exit renamed. -/
def Renames (rename : Exit → Exit) : Relation Host Host := fun _ run other =>
  ∀ machine result after, run machine = some (result, after) →
    other machine = some (result.mapError rename, after)

structure Renaming (setup other : Setup Host) (rename : Exit → Exit) : Prop where
  natives : setup.natives = other.natives
  depth : setup.limits.maxDepth = other.limits.maxDepth
  own : ∀ exit, exit.IsOwn → rename exit = exit
  depthLimit : ∀ limit span, rename (.fault ⟨.fatal (.callDepthLimit limit), span⟩) =
    .fault ⟨.fatal (.callDepthLimit limit), span⟩
  fatal : ∀ fault : Fault, fault.isRecoverable = false →
    ∃ other : Fault, rename (.fault fault) = .fault other ∧ other.isRecoverable = false
  tick : ∀ span, Renames rename Unit (tick setup span) (tick other span)

namespace Renames

theorem pure (value : α) :
    Renames rename α (Pure.pure value : Run Host α) (Pure.pure value) := by
  rintro machine _ _ ⟨⟩
  rfl

theorem stop {exit : Exit} (same : rename exit = exit) :
    Renames rename α (Run.stop exit : Run Host α) (Run.stop exit) := by
  rintro machine _ _ ⟨⟩
  exact congrArg (fun exit => some (Except.error exit, machine)) same.symm

theorem bind {first second : Run Host α} {next last : α → Run Host β}
    (one : Renames rename α first second)
    (two : ∀ value, Renames rename β (next value) (last value)) :
    Renames rename β (first >>= next) (second >>= last) := by
  intro machine result after ran
  rcases Run.bind_ended ran with ⟨exit, rfl, ended⟩ | ⟨value, between, ended, further⟩
  · exact Run.bind_of_error (one machine _ _ ended)
  · rw [Run.bind_of_ok (one machine _ _ ended)]
    exact two value between result after further

theorem onHost (action : Host → α × Host) :
    Renames rename α (Run.onHost action) (Run.onHost action) := by
  rintro machine _ _ ⟨⟩
  rfl

theorem depth : Renames rename Nat (Run.depth : Run Host Nat) Run.depth := by
  rintro machine _ _ ⟨⟩
  rfl

theorem changeStore (change : Store → Store) :
    Renames rename Unit (Run.changeStore change : Run Host Unit) (Run.changeStore change) := by
  rintro machine _ _ ⟨⟩
  rfl

theorem allows {fuel most : Nat} (enough : fuel ≤ most) :
    (Renames rename : Relation Host Host).Allows fuel most := by
  refine .inr ⟨enough, ?_⟩
  rintro α first second _ machine result after ⟨⟩

theorem reading {next last : Store → Run Host α}
    (runs : ∀ store, Renames rename α (next store) (last store)) :
    Renames rename α (Run.store >>= next) (Run.store >>= last) :=
  fun machine result after ran => runs machine.store machine result after ran

end Renames

namespace Renaming

variable {setup other : Setup Host}

theorem fail (alike : Renaming setup other rename) {cause : Cause} (own : cause.IsOwn)
    (span : Span) : Renames rename α (Run.fail cause span : Run Host α) (Run.fail cause span) :=
  .stop (alike.own (.fault ⟨cause, span⟩) own)

theorem callNative (alike : Renaming setup other rename) (native : Native Host)
    (name : String) (arguments : List Value) (span : Span) :
    Renames rename Value (callNative native name arguments span)
      (callNative native name arguments span) := by
  refine .bind (.onHost _) fun given => ?_
  cases given with
  | error reason => exact alike.fail (.recoverable _) span
  | ok result =>
    dsimp only
    split
    · exact .pure _
    · exact alike.fail (.fatal rfl) span

theorem mapError_caught (alike : Renaming setup other rename) {result : Except Exit α}
    (caught : Caught result) : result.mapError rename = result := by
  cases result with
  | error exit => rw [mapError_error, alike.own exit caught.isOwn]
  | ok value => rfl

theorem congruence (alike : Renaming setup other rename) :
    Congruence setup other (Renames rename) (fun _ _ => True) (fun _ => True)
      (fun _ => True) where
  parts := fun _ _ _ _ _ => trivial
  fresh := fun _ _ _ => trivial
  near := fun _ _ _ => trivial
  exhausted := by
    rintro α machine result after ⟨⟩
  pure := .pure
  stop := fun exit own => .stop (alike.own exit own)
  bind := .bind
  recover := by
    intro α β body shown next last runs handsOn handsOnToo handles machine result after ran
    obtain ⟨inside, between, ended, ran⟩ := Run.settle_bind_ended ran
    rw [Run.settle_bind (runs machine _ _ ended)]
    -- What may be recovered from keeps its name; what is renamed is handed on by both.
    rcases caught_or_fatal inside with caught | ⟨reason, rfl, fatal⟩
    · rw [alike.mapError_caught caught]
      exact handles inside caught between result after ran
    · obtain ⟨renamed, isRenamed, stillFatal⟩ := alike.fatal reason fatal
      rw [handsOn reason fatal] at ran
      cases ran
      rw [mapError_error, isRenamed, handsOnToo renamed stillFatal, mapError_error, isRenamed]
      rfl
  inScope := by
    intro parent vars body shown _ bodies machine result after ran
    obtain ⟨inside, ended, rfl⟩ := Run.inScope_ended ran
    rw [Run.inScope_eq, bodies _ trivial _ _ _ ended]
    rfl
  deeper := by
    intro body shown runs machine result after ran
    obtain ⟨inside, ended, rfl⟩ := Run.deeper_ended ran
    rw [Run.deeper_eq, runs _ _ _ ended]
    rfl
  tick := alike.tick
  admitted := by
    intro span next last runs
    unfold Evaluation.admitted
    rw [alike.depth]
    refine .bind .depth fun depth => ?_
    split
    · exact .stop (alike.depthLimit _ _)
    · exact runs
  natives := by
    intro name
    rw [alike.natives]
    cases other.natives.find? name with
    | none => exact .none
    | some native => exact .some fun arguments span => alike.callNative native name arguments span
  resolved := by
    intro name span scope next last _ runs
    refine .reading fun store => ?_
    split
    · exact alike.fail (.fatal rfl) span
    · split
      · exact runs _ trivial
      · exact alike.fail (.fatal rfl) span
  variableValue := by
    intro scope name span _
    refine .reading fun store => ?_
    split
    · exact .pure _
    · exact alike.fail (.fatal rfl) span
  overwritten := by
    intro name span scope stored _
    refine .reading fun store => ?_
    split
    · exact .bind (.changeStore _) fun _ => .pure _
    · exact alike.fail (.fatal rfl) span
  define := fun _ _ _ _ _ _ _ _ => .changeStore _
  defineFunction := fun _ _ _ _ _ => .changeStore _

end Renaming

/-! ## Other causes -/

def Cause.mapFatal (change : FatalCause → FatalCause) : Cause → Cause
  | .fatal cause => .fatal (change cause)
  | cause => cause

/-- The same fault for another reason, if it is fatal. -/
def Fault.mapFatal (change : FatalCause → FatalCause) (fault : Fault) : Fault :=
  { fault with cause := fault.cause.mapFatal change }

def Exit.mapFatal (change : FatalCause → FatalCause) : Exit → Exit
  | .fault reason => .fault (reason.mapFatal change)
  | .jump target => .jump target

/-- What is asked of a change of causes, besides what it does at a step. -/
structure KeepsOwn (change : FatalCause → FatalCause) : Prop where
  own : ∀ cause, cause.isImposed = false → change cause = cause
  depthLimit : ∀ limit, change (.callDepthLimit limit) = .callDepthLimit limit

theorem topFault_mapFatal {change : FatalCause → FatalCause} (place : Span) (exit : Exit) :
    topFault place (exit.mapFatal change) = (topFault place exit).mapFatal change := by
  rcases exit with reason | (value | _ | _) <;> rfl

theorem Renaming.ofCauses {setup other : Setup Host} {change : FatalCause → FatalCause}
    (natives : setup.natives = other.natives)
    (depth : setup.limits.maxDepth = other.limits.maxDepth) (keeps : KeepsOwn change)
    (ticks : ∀ span, Renames (Exit.mapFatal change) Unit (Evaluation.tick setup span)
      (Evaluation.tick other span)) :
    Renaming setup other (Exit.mapFatal change) where
  natives := natives
  depth := depth
  own := by
    rintro (⟨cause, span⟩ | target) own
    · cases cause with
      | fatal cause =>
        rw [Exit.mapFatal, Fault.mapFatal, Cause.mapFatal, keeps.own cause own]
      | _ => rfl
    · rfl
  depthLimit := by
    intro limit span
    rw [Exit.mapFatal, Fault.mapFatal, Cause.mapFatal, keeps.depthLimit]
  fatal := by
    rintro ⟨cause, span⟩ fatal
    refine ⟨Fault.mapFatal change ⟨cause, span⟩, rfl, ?_⟩
    cases cause with
    | recoverable cause => cases fatal
    | _ => rfl
  tick := ticks

theorem Renaming.runIn {setup other : Setup Host} {change : FatalCause → FatalCause}
    (alike : Renaming setup other (Exit.mapFatal change)) {fuel most : Nat}
    (enough : fuel ≤ most) {root : Node} {scope : ScopeId} {machine after : Machine Host}
    {result : Except Fault Value}
    (run : Evaluation.runIn setup fuel root scope machine = some (result, after)) :
    Evaluation.runIn other most root scope machine =
      some (result.mapError (Fault.mapFatal change), after) := by
  rw [runIn_eq] at run ⊢
  obtain ⟨⟨ended, behind⟩, ran, same⟩ := Option.map_eq_some_iff.mp run
  obtain ⟨rfl, rfl⟩ := Prod.mk.inj same
  have more := alike.congruence.script (Renames.allows enough) (fun _ _ => trivial) .void
    machine ended behind ran
  rw [more]
  cases ended with
  | ok value => rfl
  | error exit =>
    exact congrArg (fun fault => some (Except.error fault, behind))
      (topFault_mapFatal default exit)

/-! ## More fuel -/

theorem Exit.mapFatal_id (exit : Exit) : exit.mapFatal id = exit := by
  rcases exit with ⟨cause, span⟩ | target
  · cases cause <;> rfl
  · rfl

theorem mapError_mapFatal_id (result : Except Exit α) :
    result.mapError (Exit.mapFatal id) = result := by
  cases result with
  | ok value => rfl
  | error exit => exact congrArg Except.error exit.mapFatal_id

theorem Renaming.identity (setup : Setup Host) : Renaming setup setup (Exit.mapFatal id) :=
  .ofCauses rfl rfl ⟨fun _ _ => rfl, fun _ => rfl⟩ fun span machine result after ran => by
    rw [mapError_mapFatal_id]
    exact ran

namespace Evaluation

variable {setup : Setup Host} {fuel most : Nat} {scope : ScopeId} {machine after : Machine Host}

/-- More fuel never changes how the evaluation of a node ends. -/
theorem evaluate_of_le (enough : fuel ≤ most) {node : Node} {result : Except Exit Value}
    (run : evaluate setup fuel node scope machine = some (result, after)) :
    evaluate setup most node scope machine = some (result, after) := by
  have more := (Renaming.identity setup).congruence.evaluate (Renames.allows enough) node scope trivial machine
    result after run
  rwa [mapError_mapFatal_id] at more

/-- More fuel never changes how a script ends. -/
theorem runIn_of_le (enough : fuel ≤ most) {root : Node} {result : Except Fault Value}
    (run : runIn setup fuel root scope machine = some (result, after)) :
    runIn setup most root scope machine = some (result, after) := by
  have more := (Renaming.identity setup).runIn enough run
  rcases result with ⟨cause, span⟩ | value
  · cases cause <;> exact more
  · exact more

end Evaluation

end RobotScript
