import RobotScript.Evaluation

/-! # How runs are put together

What the run of a sequence, of a recovery, in a new scope or in a function body comes
to, from what its parts come to; and how the statements of a script end, from how the first of
them does. -/
set_option autoImplicit false

namespace RobotScript

variable {Host α β : Type}

namespace Machine

def outside (machine : Machine Host) : Nat × Host := (machine.steps, machine.host)

def entered (machine : Machine Host) (parent : ScopeId) (vars : Bindings Value) : Machine Host :=
  { machine with store := machine.store.opened (some parent) vars }

def left (machine : Machine Host) : Machine Host :=
  { machine with store := machine.store.closed }

def counted (machine : Machine Host) : Machine Host :=
  { machine with steps := machine.steps + 1 }

def deeper (machine : Machine Host) : Machine Host :=
  { machine with depth := machine.depth + 1 }

def shallower (machine : Machine Host) : Machine Host :=
  { machine with depth := machine.depth - 1 }

end Machine

namespace Run

section

variable {first : Run Host α} {next : α → Run Host β} {machine between after : Machine Host}

theorem bind_of_none (ran : first machine = none) : (first >>= next) machine = none := by
  change Run.bind first next machine = none
  unfold Run.bind
  rw [ran]

theorem bind_of_ok {value : α} (ran : first machine = some (.ok value, between)) :
    (first >>= next) machine = next value between := by
  change Run.bind first next machine = next value between
  unfold Run.bind
  rw [ran]

theorem bind_of_error {exit : Exit} (ran : first machine = some (.error exit, between)) :
    (first >>= next) machine = some (.error exit, between) := by
  change Run.bind first next machine = some (.error exit, between)
  unfold Run.bind
  rw [ran]

theorem bind_of_eq {other : Run Host α} (same : first machine = other between) :
    (first >>= next) machine = (other >>= next) between := by
  change Run.bind first next machine = Run.bind other next between
  unfold Run.bind
  rw [same]

/-- A sequence ends with its first part or with its second. -/
theorem bind_ended {result : Except Exit β} (ran : (first >>= next) machine = some (result, after)) :
    (∃ exit, result = .error exit ∧ first machine = some (.error exit, after)) ∨
      ∃ value between, first machine = some (.ok value, between) ∧
        next value between = some (result, after) := by
  rcases ended : first machine with _ | ⟨exit | value, between⟩
  · rw [bind_of_none ended] at ran
    cases ran
  · rw [bind_of_error ended] at ran
    cases ran
    exact .inl ⟨exit, rfl, rfl⟩
  · rw [bind_of_ok ended] at ran
    exact .inr ⟨value, between, rfl, ran⟩

end

section

variable {body : Run Host α} {next : Except Exit α → Run Host β}
variable {machine between after : Machine Host}

theorem settle_bind_of_none (ran : body machine = none) : (body.settle >>= next) machine = none := by
  change Run.bind body.settle next machine = none
  unfold Run.bind Run.settle
  rw [ran]

theorem settle_bind {result : Except Exit α} (ran : body machine = some (result, between)) :
    (body.settle >>= next) machine = next result between := by
  change Run.bind body.settle next machine = next result between
  unfold Run.bind Run.settle
  rw [ran]

theorem settle_bind_ended {result : Except Exit β}
    (ran : (body.settle >>= next) machine = some (result, after)) :
    ∃ inside between, body machine = some (inside, between) ∧
      next inside between = some (result, after) := by
  rcases ended : body machine with _ | ⟨inside, between⟩
  · rw [settle_bind_of_none ended] at ran
    cases ran
  · rw [settle_bind ended] at ran
    exact ⟨inside, between, rfl, ran⟩

end

theorem inScope_eq (parent : ScopeId) (vars : Bindings Value) (body : ScopeId → Run Host α)
    (machine : Machine Host) :
    Run.inScope parent vars body machine =
      (body machine.store.size (machine.entered parent vars)).map fun ended =>
        (ended.1, ended.2.left) := by
  unfold Run.inScope Machine.entered
  dsimp only
  rcases body machine.store.size _ with _ | ⟨result, after⟩ <;> rfl

theorem inScope_ended {parent : ScopeId} {vars : Bindings Value} {body : ScopeId → Run Host α}
    {machine after : Machine Host} {result : Except Exit α}
    (ran : Run.inScope parent vars body machine = some (result, after)) :
    ∃ inside, body machine.store.size (machine.entered parent vars) = some (result, inside) ∧
      after = inside.left := by
  rw [inScope_eq] at ran
  obtain ⟨⟨inside, behind⟩, ended, same⟩ := Option.map_eq_some_iff.mp ran
  cases same
  exact ⟨behind, ended, rfl⟩

theorem deeper_eq (body : Run Host α) (machine : Machine Host) :
    Run.deeper body machine = (body machine.deeper).map fun ended =>
      (ended.1, ended.2.shallower) := by
  unfold Run.deeper Machine.deeper
  rcases body _ with _ | ⟨result, after⟩ <;> rfl

theorem deeper_ended {body : Run Host α} {machine after : Machine Host} {result : Except Exit α}
    (ran : Run.deeper body machine = some (result, after)) :
    ∃ inside, body machine.deeper = some (result, inside) ∧ after = inside.shallower := by
  rw [deeper_eq] at ran
  obtain ⟨⟨inside, behind⟩, ended, same⟩ := Option.map_eq_some_iff.mp ran
  cases same
  exact ⟨behind, ended, rfl⟩

end Run

/-- Statements of a script end with a fault of the first one, or as those behind it do. -/
theorem Evaluation.topStatements_ended {setup : Setup Host}
    {inner : Node → ScopeId → Run Host Value} {scope : ScopeId} {last : Value} {node : Node}
    {rest : List Node} {machine after : Machine Host} {result : Except Fault Value}
    (ran : topStatements setup inner scope last (node :: rest) machine = some (result, after)) :
    (∃ exit, result = .error (topFault node.span exit) ∧
      topStatement setup inner scope node machine = some (.error exit, after)) ∨
      ∃ value between, topStatement setup inner scope node machine = some (.ok value, between) ∧
        topStatements setup inner scope value rest between = some (result, after) := by
  rw [topStatements] at ran
  rcases ended : topStatement setup inner scope node machine with _ | ⟨exit | value, between⟩
  · rw [ended] at ran
    cases ran
  · rw [ended] at ran
    cases ran
    exact .inl ⟨exit, rfl, rfl⟩
  · rw [ended] at ran
    exact .inr ⟨value, between, rfl, ran⟩

end RobotScript
