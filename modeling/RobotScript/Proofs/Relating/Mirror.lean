import RobotScript.Proofs.Relating.Lockstep

/-! # Runs that mirror each other

Two machines are alike if their stores and depths are the same and their steps and
hosts stand in a relation. If every change keeps the relation, runs that begin alike
end with the same result, and alike. -/
set_option autoImplicit false

namespace RobotScript

open Evaluation

variable {Host Shown α β : Type}

abbrev Likeness (Host Shown : Type) : Type := Nat × Host → Nat × Shown → Prop

structure Machine.Alike (like : Likeness Host Shown) (machine : Machine Host)
    (other : Machine Shown) : Prop where
  store : machine.store = other.store
  depth : machine.depth = other.depth
  outside : like machine.outside other.outside

namespace Machine.Alike

variable {like : Likeness Host Shown} {machine : Machine Host} {other : Machine Shown}

theorem entered (alike : machine.Alike like other) (parent : ScopeId) (vars : Bindings Value) :
    (machine.entered parent vars).Alike like (other.entered parent vars) :=
  ⟨congrArg (Store.opened · (some parent) vars) alike.store, alike.depth, alike.outside⟩

theorem left (alike : machine.Alike like other) : machine.left.Alike like other.left :=
  ⟨congrArg Store.closed alike.store, alike.depth, alike.outside⟩

theorem deeper (alike : machine.Alike like other) : machine.deeper.Alike like other.deeper :=
  ⟨alike.store, congrArg (· + 1) alike.depth, alike.outside⟩

theorem shallower (alike : machine.Alike like other) :
    machine.shallower.Alike like other.shallower :=
  ⟨alike.store, congrArg (· - 1) alike.depth, alike.outside⟩

end Machine.Alike

/-- Runs that begin alike do not end or end alike, with the same result. -/
def Mirrors (like : Likeness Host Shown) : Relation Host Shown := fun _ run other =>
  ∀ machine twin, Machine.Alike like machine twin →
    run machine = none ∧ other twin = none ∨
      ∃ result after last, run machine = some (result, after) ∧
        other twin = some (result, last) ∧ after.Alike like last

structure Native.Mirrors (like : Likeness Host Shown) (native : Native Host)
    (other : Native Shown) : Prop where
  signature : native.signature = other.signature
  run : ∀ arguments steps host number shown, like (steps, host) (number, shown) →
    (native.run arguments host).1 = (other.run arguments shown).1 ∧
      like (steps, (native.run arguments host).2) (number, (other.run arguments shown).2)

structure Mirroring (like : Likeness Host Shown) (setup : Setup Host) (other : Setup Shown) :
    Prop where
  depth : setup.limits.maxDepth = other.limits.maxDepth
  natives : ∀ name, Option.Rel (Native.Mirrors like) (setup.natives.find? name)
    (other.natives.find? name)
  tick : ∀ span, Mirrors like Unit (tick setup span) (tick other span)

namespace Mirrors

variable {like : Likeness Host Shown}

theorem pure (value : α) : Mirrors like α (Pure.pure value) (Pure.pure value) :=
  Lockstep.pure value

theorem stop (exit : Exit) : Mirrors like α (Run.stop exit) (Run.stop exit) :=
  Lockstep.stop exit

theorem bind {first : Run Host α} {second : Run Shown α} {next : α → Run Host β}
    {last : α → Run Shown β} (one : Mirrors like α first second)
    (two : ∀ value, Mirrors like β (next value) (last value)) :
    Mirrors like β (first >>= next) (second >>= last) :=
  Lockstep.bind one two

theorem inScope (parent : ScopeId) (vars : Bindings Value) {body : ScopeId → Run Host Value}
    {shown : ScopeId → Run Shown Value}
    (bodies : ∀ id, Mirrors like Value (body id) (shown id)) :
    Mirrors like Value (Run.inScope parent vars body) (Run.inScope parent vars shown) := by
  intro machine twin alike
  refine Lockstep.wrapped (bodies machine.store.size) (fun _ _ both => both.entered parent vars)
    (fun _ _ both => both.left) alike ?_ ?_
  · rw [Run.inScope_eq]
  · rw [Run.inScope_eq, alike.store]

theorem deeper {body : Run Host Value} {shown : Run Shown Value}
    (runs : Mirrors like Value body shown) :
    Mirrors like Value (Run.deeper body) (Run.deeper shown) :=
  Lockstep.deeper runs (fun _ _ alike => alike.deeper) fun _ _ alike => alike.shallower

theorem changeStore (change : Store → Store) :
    Mirrors like Unit (Run.changeStore change) (Run.changeStore change) :=
  Lockstep.changeStore fun _ _ alike => ⟨congrArg change alike.store, alike.depth, alike.outside⟩

theorem reading {next : Store → Run Host α} {last : Store → Run Shown α}
    (runs : ∀ store, Mirrors like α (next store) (last store)) :
    Mirrors like α (Run.store >>= next) (Run.store >>= last) :=
  Lockstep.reading fun machine _ alike => alike.store ▸ runs machine.store

theorem depth : Mirrors like Nat Run.depth Run.depth :=
  Lockstep.depth fun _ _ alike => alike.depth.symm

theorem onHost {one : Host → α × Host} {two : Shown → α × Shown}
    (same : ∀ steps host number shown, like (steps, host) (number, shown) →
      (one host).1 = (two shown).1 ∧ like (steps, (one host).2) (number, (two shown).2)) :
    Mirrors like α (Run.onHost one) (Run.onHost two) := by
  intro machine twin alike
  obtain ⟨result, still⟩ := same _ _ _ _ alike.outside
  refine .inr ⟨.ok (one machine.host).1, { machine with host := (one machine.host).2 },
    { twin with host := (two twin.host).2 }, rfl, ?_, alike.store, alike.depth, still⟩
  rw [result]
  rfl

theorem tick {setup : Setup Host} {other : Setup Shown}
    (steps : ∀ one two, like one two → one.1 = two.1)
    (counted : ∀ one two, like one two → like (one.1 + 1, one.2) (two.1 + 1, two.2))
    (limit : setup.limits.maxSteps = other.limits.maxSteps) (span : Span)
    (consults : ∀ number, Mirrors like Unit (tick.consult setup span number)
      (tick.consult other span number)) :
    Mirrors like Unit (Evaluation.tick setup span) (Evaluation.tick other span) := by
  have counts : Mirrors like Nat (Run.countStep : Run Host Nat) Run.countStep := by
    intro machine twin alike
    have same : machine.steps = twin.steps := steps _ _ alike.outside
    refine .inr ⟨.ok (machine.steps + 1), machine.counted, twin.counted, rfl, ?_, alike.store,
      alike.depth, counted _ _ alike.outside⟩
    rw [same]
    rfl
  refine bind counts fun number => ?_
  rw [limit]
  split
  · split
    · exact stop _
    · exact consults number
  · exact consults number

theorem callNative {native : Native Host} {other : Native Shown}
    (mirrors : native.Mirrors like other) (name : String) (arguments : List Value) (span : Span) :
    Mirrors like Value (callNative native name arguments span)
      (callNative other name arguments span) := by
  unfold Evaluation.callNative
  rw [← mirrors.signature]
  refine bind (onHost (mirrors.run _)) fun given => ?_
  cases given with
  | error reason => exact stop _
  | ok result =>
    dsimp only
    split
    · exact pure _
    · exact stop _

end Mirrors

theorem Mirroring.congruence {like : Likeness Host Shown} {setup : Setup Host}
    {other : Setup Shown} (mirroring : Mirroring like setup other) :
    Congruence setup other (Mirrors like) (fun _ _ => True) (fun _ => True)
      (fun _ => True) where
  parts := fun _ _ _ _ _ => trivial
  fresh := fun _ _ _ => trivial
  near := fun _ _ _ => trivial
  exhausted := fun _ _ _ => .inl ⟨rfl, rfl⟩
  pure := .pure
  stop := fun exit _ => .stop exit
  bind := .bind
  recover := fun runs => Lockstep.recover runs
  inScope := fun parent vars _ _ _ bodies => .inScope parent vars fun id => bodies id trivial
  deeper := .deeper
  tick := mirroring.tick
  admitted := by
    intro span next last runs
    unfold Evaluation.admitted
    rw [mirroring.depth]
    refine .bind .depth fun depth => ?_
    split
    · exact .stop _
    · exact runs
  natives := by
    intro name
    have related := mirroring.natives name
    generalize setup.natives.find? name = found at related ⊢
    generalize other.natives.find? name = shown at related ⊢
    cases related with
    | none => exact .none
    | some mirrors => exact .some fun arguments span => .callNative mirrors name arguments span
  resolved := by
    intro name span scope next last _ runs
    refine .reading fun store => ?_
    split
    · exact .stop _
    · split
      · exact runs _ trivial
      · exact .stop _
  variableValue := by
    intro scope name span _
    refine .reading fun store => ?_
    split
    · exact .pure _
    · exact .stop _
  overwritten := by
    intro name span scope stored _
    refine .reading fun store => ?_
    split
    · exact .bind (.changeStore _) fun _ => .pure _
    · exact .stop _
  define := fun _ _ _ _ _ _ _ _ => .changeStore _
  defineFunction := fun _ _ _ _ _ => .changeStore _

theorem Mirroring.ending {like : Likeness Host Shown} {setup : Setup Host} {other : Setup Shown}
    (mirroring : Mirroring like setup other) (fuel : Nat) (root : Node) (scope : ScopeId)
    {machine : Machine Host} {twin : Machine Shown} (alike : machine.Alike like twin) :
    Evaluation.runIn setup fuel root scope machine = none ∧
        Evaluation.runIn other fuel root scope twin = none ∨
      ∃ result after last, Evaluation.runIn setup fuel root scope machine = some (result, after) ∧
        Evaluation.runIn other fuel root scope twin = some (result, last) ∧ after.Alike like last := by
  have related : Mirrors like Value
      (script setup (evaluate setup fuel) scope .void root.statements)
      (script other (evaluate other fuel) scope .void root.statements) :=
    mirroring.congruence.script (.refl _ fuel) (fun _ _ => trivial) .void
  rw [runIn_eq, runIn_eq]
  rcases related machine twin alike with ⟨ran, shown⟩ | ⟨result, after, last, ran, shown, still⟩
  · rw [ran, shown]
    exact .inl ⟨rfl, rfl⟩
  · rw [ran, shown]
    exact .inr ⟨_, after, last, rfl, rfl, still⟩

end RobotScript
