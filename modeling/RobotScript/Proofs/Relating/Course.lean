import RobotScript.Proofs.Relating.Congruence

/-! # What every run goes along

A course is a relation from the machine before a run to the machine behind it. If
each single change of a machine goes along it, so does every run, however it ends. An
advance leaves open what calls do. -/
set_option autoImplicit false

namespace RobotScript

open Evaluation

variable {Host : Type}

/-- A run that, if it ends, ends on a machine that `along` leads to. -/
def Moves (along : Machine Host → Machine Host → Prop) : Relation Host Host :=
  fun _ run _ => ∀ machine result after, run machine = some (result, after) → along machine after

structure Advance (setup : Setup Host) (along : Machine Host → Machine Host → Prop)
    (Apt : ScopeId → Node → Prop) (Fresh : ScopeId → Prop) : Prop where
  parts : ∀ scope node, Apt scope node → ∀ part ∈ node.parts, Apt scope part
  fresh : ∀ scope node, Fresh scope → Apt scope node
  refl : ∀ machine, along machine machine
  trans : ∀ first second third, along first second → along second third → along first third
  counted : ∀ machine, along machine { machine with steps := machine.steps + 1 }
  watched : ∀ watch, setup.watch = some watch → ∀ machine steps,
    along machine { machine with host := (watch steps machine.host).2 }
  inScope : ∀ machine parent vars after,
    (Fresh machine.store.size → along (machine.entered parent vars) after) →
    along machine after.left
  assigned : ∀ machine scope name value store,
    machine.store.assign? scope name value = some store →
    along machine { machine with store := store }
  defined : ∀ machine scope name declared initializer span ty value,
    Apt scope ⟨.declare name declared initializer, ty, span⟩ →
    along machine { machine with store := machine.store.define scope name value }
  functionDefined : ∀ machine scope function span ty, Apt scope ⟨.define function, ty, span⟩ →
    along machine { machine with store := machine.store.defineFunction scope ⟨function, scope⟩ }

/-- Every change that an evaluator makes goes along the relation. -/
structure Course (setup : Setup Host) (along : Machine Host → Machine Host → Prop)
    (Apt : ScopeId → Node → Prop) (Fresh : ScopeId → Prop) : Prop extends
    Advance setup along Apt Fresh where
  called : ∀ name native, setup.natives.find? name = some native → ∀ machine arguments,
    along machine { machine with host := (native.run arguments machine.host).2 }
  deeper : ∀ machine after, along machine.deeper after → along machine after.shallower

namespace Moves

variable {along : Machine Host → Machine Host → Prop} {α β : Type}
variable {run other : Run Host α}

theorem pure (refl : ∀ machine, along machine machine) (value : α) :
    Moves along α (Pure.pure value) (Pure.pure value) := by
  rintro machine _ _ ⟨⟩
  exact refl machine

theorem stop (refl : ∀ machine, along machine machine) (exit : Exit) :
    Moves along α (Run.stop exit) (Run.stop exit) := by
  rintro machine _ _ ⟨⟩
  exact refl machine

theorem bind (trans : ∀ first second third, along first second → along second third →
    along first third) {next last : α → Run Host β} (first : Moves along α run other)
    (second : ∀ value, Moves along β (next value) (last value)) :
    Moves along β (run >>= next) (other >>= last) := by
  intro machine result after ran
  rcases Run.bind_ended ran with ⟨exit, rfl, ended⟩ | ⟨value, between, ended, further⟩
  · exact first machine _ _ ended
  · exact trans _ _ _ (first machine _ _ ended) (second value between result after further)

theorem settle (runs : Moves along α run other) :
    Moves along (Except Exit α) run.settle other.settle := by
  intro machine result after ran
  unfold Run.settle at ran
  rcases ended : run machine with _ | ⟨inside, between⟩
  · rw [ended] at ran
    cases ran
  · rw [ended] at ran
    cases ran
    exact runs machine _ _ ended

end Moves

variable {setup : Setup Host} {along : Machine Host → Machine Host → Prop}
variable {Apt : ScopeId → Node → Prop} {Fresh : ScopeId → Prop}

namespace Advance

theorem consult (advance : Advance setup along Apt Fresh) (span : Span) (steps : Nat) :
    Moves along Unit (tick.consult setup span steps) (tick.consult setup span steps) := by
  unfold Evaluation.tick.consult
  cases isWatch : setup.watch with
  | none => exact .pure advance.refl ()
  | some watch =>
    have asked : Moves along Bool (Run.onHost (watch steps)) (Run.onHost (watch steps)) := by
      rintro machine _ _ ⟨⟩
      exact advance.watched watch isWatch machine steps
    refine Moves.bind advance.trans asked fun goesOn => ?_
    cases goesOn with
    | true => exact .pure advance.refl ()
    | false => exact .stop advance.refl _

theorem tick (advance : Advance setup along Apt Fresh) (span : Span) :
    Moves along Unit (tick setup span) (tick setup span) := by
  have counts : Moves along Nat Run.countStep Run.countStep := by
    rintro machine _ _ ⟨⟩
    exact advance.counted machine
  refine Moves.bind advance.trans counts fun steps => ?_
  split
  · split
    · exact .stop advance.refl _
    · exact advance.consult span steps
  · exact advance.consult span steps

theorem callNative (advance : Advance setup along Apt Fresh) {native : Native Host}
    (called : ∀ machine arguments,
      along machine { machine with host := (native.run arguments machine.host).2 })
    (name : String) (arguments : List Value) (span : Span) :
    Moves along Value (callNative native name arguments span)
      (callNative native name arguments span) := by
  have asked : Moves along (Except String Value)
      (Run.onHost (native.run (prepared native.signature.parameters arguments)))
      (Run.onHost (native.run (prepared native.signature.parameters arguments))) := by
    rintro machine _ _ ⟨⟩
    exact called machine _
  refine Moves.bind advance.trans asked fun given => ?_
  cases given with
  | error reason => exact .stop advance.refl _
  | ok result =>
    dsimp only
    split
    · exact .pure advance.refl _
    · exact .stop advance.refl _

theorem reading {α : Type} {next : Store → Run Host α}
    (moves : ∀ machine : Machine Host, ∀ result after,
      next machine.store machine = some (result, after) → along machine after) :
    Moves along α (Run.store >>= next) (Run.store >>= next) :=
  fun machine result after ran => moves machine result after ran

theorem stepwise (advance : Advance setup along Apt Fresh) :
    Stepwise setup setup (Moves along) (fun scope twin node => scope = twin ∧ Apt scope node)
      (fun scope twin => scope = twin ∧ Fresh scope) (fun scope twin => scope = twin) where
  parts := by
    rintro scope _ node ⟨rfl, apt⟩ part member
    exact ⟨rfl, advance.parts scope node apt part member⟩
  fresh := by
    rintro scope _ node ⟨rfl, isFresh⟩
    exact ⟨rfl, advance.fresh scope node isFresh⟩
  near := by
    rintro scope _ node ⟨rfl, -⟩
    rfl
  exhausted := by
    rintro α machine result after ⟨⟩
  pure := .pure advance.refl
  stop := fun exit _ => .stop advance.refl exit
  bind := fun first second => .bind advance.trans first second
  recover := by
    intro α β body shown next last runs handsOn _ handles
    have handled : ∀ result, Moves along β (next result) (last result) := by
      intro result
      rcases caught_or_fatal result with caught | ⟨fault, rfl, fatal⟩
      · exact handles result caught
      · rintro machine result after ran
        rw [handsOn fault fatal] at ran
        cases ran
        exact advance.refl machine
    exact Moves.bind advance.trans runs.settle handled
  inScope := by
    rintro parent _ vars body shown rfl bodies machine result after ran
    obtain ⟨inside, ended, rfl⟩ := Run.inScope_ended ran
    exact advance.inScope machine parent vars inside fun isFresh =>
      bodies machine.store.size _ ⟨rfl, isFresh⟩ _ _ _ ended
  tick := advance.tick
  variableValue := by
    rintro scope _ name span rfl
    refine reading fun machine result after ran => ?_
    cases found : machine.store.get? scope name with
    | none =>
      rw [found] at ran
      cases ran
      exact advance.refl machine
    | some value =>
      rw [found] at ran
      cases ran
      exact advance.refl machine
  overwritten := by
    rintro name span scope _ stored rfl
    refine reading fun machine result after ran => ?_
    cases found : machine.store.assign? scope name stored with
    | none =>
      rw [found] at ran
      cases ran
      exact advance.refl machine
    | some store =>
      rw [found] at ran
      cases ran
      exact advance.assigned machine scope name stored store found
  define := by
    rintro scope _ name declared initializer span ty value ⟨rfl, apt⟩ machine _ _ ⟨⟩
    exact advance.defined machine scope name declared initializer span ty value apt
  defineFunction := by
    rintro scope _ function span ty ⟨rfl, apt⟩ machine _ _ ⟨⟩
    exact advance.functionDefined machine scope function span ty apt

theorem resolved (advance : Advance setup along Apt Fresh) (name : String) (span : Span)
    (scope : ScopeId) {next last : Closure → Run Host Value}
    (runs : ∀ closure, Moves along Value (next closure) (last closure)) :
    Moves along Value (resolved name span scope next) (resolved name span scope last) := by
  refine reading fun machine result after ran => ?_
  cases found : machine.store.function? scope name with
  | none =>
    rw [found] at ran
    cases ran
    exact advance.refl machine
  | some closure =>
    simp only [found] at ran
    split at ran
    · exact runs closure machine result after ran
    · cases ran
      exact advance.refl machine

end Advance

namespace Course

theorem congruence (course : Course setup along Apt Fresh) :
    Congruence setup setup (Moves along) Apt Fresh (fun _ => True) where
  parts := course.parts
  fresh := course.fresh
  near := fun _ _ _ => trivial
  exhausted := course.stepwise.exhausted
  pure := course.stepwise.pure
  stop := course.stepwise.stop
  bind := course.stepwise.bind
  recover := course.stepwise.recover
  inScope := by
    intro parent vars body shown _ bodies
    refine course.stepwise.inScope parent parent vars rfl ?_
    rintro id _ ⟨rfl, isFresh⟩
    exact bodies id isFresh
  deeper := by
    intro body shown runs machine result after ran
    obtain ⟨inside, ended, rfl⟩ := Run.deeper_ended ran
    exact course.deeper machine inside (runs _ _ _ ended)
  tick := course.tick
  admitted := by
    intro span next last runs
    have reads : Moves along Nat (Run.depth : Run Host Nat) Run.depth := by
      rintro machine _ _ ⟨⟩
      exact course.refl machine
    refine Moves.bind course.trans reads fun depth => ?_
    split
    · exact .stop course.refl _
    · exact runs
  natives := by
    intro name
    cases found : setup.natives.find? name with
    | none => exact .none
    | some native => exact .some (course.callNative (course.called name native found) name)
  resolved := fun name span scope _ _ _ runs =>
    course.toAdvance.resolved name span scope fun closure => runs closure trivial
  variableValue := fun scope name span _ => course.stepwise.variableValue scope scope name span rfl
  overwritten := fun name span scope stored _ =>
    course.stepwise.overwritten name span scope scope stored rfl
  define := fun scope name declared initializer span ty value apt =>
    course.stepwise.define scope scope name declared initializer span ty value ⟨rfl, apt⟩
  defineFunction := fun scope function span ty apt =>
    course.stepwise.defineFunction scope scope function span ty ⟨rfl, apt⟩

/-- What every change of a machine goes along, the evaluation of a node goes along. -/
theorem evaluate (course : Course setup along Apt Fresh) {fuel : Nat} {node : Node}
    {scope : ScopeId} (apt : Apt scope node) {machine after : Machine Host}
    {result : Except Exit Value}
    (run : Evaluation.evaluate setup fuel node scope machine = some (result, after)) :
    along machine after :=
  course.congruence.evaluate (.inl rfl) node scope apt machine result after run

end Course

end RobotScript
