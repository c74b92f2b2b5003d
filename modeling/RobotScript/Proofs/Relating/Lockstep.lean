import RobotScript.Proofs.Relating.Congruence

/-! # Runs in lockstep

Two runs go in lockstep under a relation between machines if, begun on related machines,
neither has fuel left or both end with the same result, and on related machines. Each
way in which runs are put together keeps step; where a run looks at its machine, the
relation has to say that the other one sees the same. -/
set_option autoImplicit false

namespace RobotScript

open Evaluation

variable {Host Other α β : Type}

/-- From related machines both runs end in the same way, on related machines. -/
def Lockstep (like : Machine Host → Machine Other → Prop) : Relation Host Other :=
  fun _ run other => ∀ machine twin, like machine twin →
    run machine = none ∧ other twin = none ∨
      ∃ result after last, run machine = some (result, after) ∧
        other twin = some (result, last) ∧ like after last

namespace Lockstep

variable {like : Machine Host → Machine Other → Prop}

theorem exhausted : Lockstep like α Run.exhausted Run.exhausted :=
  fun _ _ _ => .inl ⟨rfl, rfl⟩

theorem pure (value : α) : Lockstep like α (Pure.pure value) (Pure.pure value) :=
  fun machine twin alike => .inr ⟨.ok value, machine, twin, rfl, rfl, alike⟩

theorem stop (exit : Exit) : Lockstep like α (Run.stop exit) (Run.stop exit) :=
  fun machine twin alike => .inr ⟨.error exit, machine, twin, rfl, rfl, alike⟩

theorem bind {first : Run Host α} {second : Run Other α} {next : α → Run Host β}
    {last : α → Run Other β} (one : Lockstep like α first second)
    (two : ∀ value, Lockstep like β (next value) (last value)) :
    Lockstep like β (first >>= next) (second >>= last) := by
  intro machine twin alike
  rcases one machine twin alike with ⟨ran, shown⟩ | ⟨exit | value, after, behind, ran, shown, still⟩
  · exact .inl ⟨Run.bind_of_none ran, Run.bind_of_none shown⟩
  · exact .inr ⟨_, after, behind, Run.bind_of_error ran, Run.bind_of_error shown, still⟩
  · rw [Run.bind_of_ok ran, Run.bind_of_ok shown]
    exact two value after behind still

theorem recover {body : Run Host α} {shown : Run Other α} {next : Except Exit α → Run Host β}
    {last : Except Exit α → Run Other β} (runs : Lockstep like α body shown)
    (handsOn : HandsOn next) (handsOnToo : HandsOn last)
    (handles : ∀ result, Caught result → Lockstep like β (next result) (last result)) :
    Lockstep like β (body.settle >>= next) (shown.settle >>= last) := by
  have handled (result : Except Exit α) : Lockstep like β (next result) (last result) := by
    rcases caught_or_fatal result with caught | ⟨fault, rfl, fatal⟩
    · exact handles result caught
    · rw [handsOn fault fatal, handsOnToo fault fatal]
      exact stop _
  intro machine twin alike
  rcases runs machine twin alike with ⟨ran, shown⟩ | ⟨result, after, behind, ran, shown, still⟩
  · exact .inl ⟨Run.settle_bind_of_none ran, Run.settle_bind_of_none shown⟩
  · rw [Run.settle_bind ran, Run.settle_bind shown]
    exact handled result after behind still

theorem wrapped {inside : Machine Host → Machine Other → Prop} {body around : Run Host α}
    {shown aroundToo : Run Other α} {enter leave : Machine Host → Machine Host}
    {enterToo leaveToo : Machine Other → Machine Other} (runs : Lockstep inside α body shown)
    (enters : ∀ machine twin, like machine twin → inside (enter machine) (enterToo twin))
    (leaves : ∀ machine twin, inside machine twin → like (leave machine) (leaveToo twin))
    {machine : Machine Host} {twin : Machine Other} (alike : like machine twin)
    (first : around machine = (body (enter machine)).map fun ended => (ended.1, leave ended.2))
    (second : aroundToo twin =
      (shown (enterToo twin)).map fun ended => (ended.1, leaveToo ended.2)) :
    around machine = none ∧ aroundToo twin = none ∨
      ∃ result after last, around machine = some (result, after) ∧
        aroundToo twin = some (result, last) ∧ like after last := by
  rw [first, second]
  rcases runs _ _ (enters machine twin alike) with ⟨ran, shown⟩ |
    ⟨result, after, behind, ran, shown, still⟩
  · rw [ran, shown]
    exact .inl ⟨rfl, rfl⟩
  · rw [ran, shown]
    exact .inr ⟨result, leave after, leaveToo behind, rfl, rfl, leaves after behind still⟩

theorem deeper {body : Run Host α} {shown : Run Other α} (runs : Lockstep like α body shown)
    (deepens : ∀ machine twin, like machine twin → like machine.deeper twin.deeper)
    (rises : ∀ machine twin, like machine twin → like machine.shallower twin.shallower) :
    Lockstep like α (Run.deeper body) (Run.deeper shown) :=
  fun machine twin alike => runs.wrapped deepens rises alike (Run.deeper_eq body machine)
    (Run.deeper_eq shown twin)

/-! ## What is read from a machine, and changed in it -/

theorem reading {next : Store → Run Host α} {last : Store → Run Other α}
    (runs : ∀ machine twin, like machine twin →
      Lockstep like α (next machine.store) (last twin.store)) :
    Lockstep like α (Run.store >>= next) (Run.store >>= last) :=
  fun machine twin alike => runs machine twin alike machine twin alike

theorem changeStore {change other : Store → Store}
    (keeps : ∀ machine twin, like machine twin →
      like { machine with store := change machine.store }
        { twin with store := other twin.store }) :
    Lockstep like Unit (Run.changeStore change) (Run.changeStore other) :=
  fun machine twin alike => .inr ⟨.ok (), _, _, rfl, rfl, keeps machine twin alike⟩

theorem depth (same : ∀ machine twin, like machine twin → twin.depth = machine.depth) :
    Lockstep like Nat Run.depth Run.depth := by
  intro machine twin alike
  refine .inr ⟨.ok machine.depth, machine, twin, rfl, ?_, alike⟩
  rw [← same machine twin alike]
  rfl

end Lockstep

/-! ## Machines with the same steps and host -/

/-- Related machines have the same steps and the same host, and stay related whatever
these become. -/
structure SharesOutside (like : Machine Host → Machine Host → Prop) : Prop where
  same : ∀ machine twin, like machine twin → twin.outside = machine.outside
  keeps : ∀ machine twin, like machine twin → ∀ steps host,
    like { machine with steps := steps, host := host } { twin with steps := steps, host := host }

namespace SharesOutside

variable {like : Machine Host → Machine Host → Prop}

theorem onHost (shares : SharesOutside like) (action : Host → α × Host) :
    Lockstep like α (Run.onHost action) (Run.onHost action) := by
  intro machine twin alike
  have steps : twin.steps = machine.steps := congrArg Prod.fst (shares.same machine twin alike)
  have host : twin.host = machine.host := congrArg Prod.snd (shares.same machine twin alike)
  refine .inr ⟨.ok (action machine.host).1, { machine with host := (action machine.host).2 },
    { twin with host := (action machine.host).2 }, rfl, ?_, ?_⟩
  · rw [← host]
    rfl
  · have still := shares.keeps machine twin alike machine.steps (action machine.host).2
    rw [← steps] at still ⊢
    exact still

theorem countStep (shares : SharesOutside like) :
    Lockstep like Nat (Run.countStep : Run Host Nat) Run.countStep := by
  intro machine twin alike
  have steps : twin.steps = machine.steps := congrArg Prod.fst (shares.same machine twin alike)
  have host : twin.host = machine.host := congrArg Prod.snd (shares.same machine twin alike)
  refine .inr ⟨.ok (machine.steps + 1), machine.counted, twin.counted, rfl, ?_, ?_⟩
  · rw [← steps]
    rfl
  · have still := shares.keeps machine twin alike (machine.steps + 1) machine.host
    rw [Machine.counted, Machine.counted, steps]
    rw [← host] at still ⊢
    exact still

theorem tick (shares : SharesOutside like) (setup : Setup Host) (span : Span) :
    Lockstep like Unit (tick setup span) (tick setup span) := by
  have consults (number : Nat) : Lockstep like Unit (tick.consult setup span number)
      (tick.consult setup span number) := by
    unfold tick.consult
    cases setup.watch with
    | none => exact .pure ()
    | some watch =>
      refine .bind (shares.onHost (watch number)) fun goesOn => ?_
      cases goesOn with
      | true => exact .pure ()
      | false => exact .stop _
  refine .bind shares.countStep fun number => ?_
  cases setup.limits.maxSteps with
  | none => exact consults number
  | some limit =>
    dsimp only
    split
    · exact .stop _
    · exact consults number

theorem callNative (shares : SharesOutside like) (native : Native Host) (name : String)
    (arguments : List Value) (span : Span) :
    Lockstep like Value (callNative native name arguments span)
      (callNative native name arguments span) := by
  refine .bind (shares.onHost _) fun given => ?_
  cases given with
  | error reason => exact .stop _
  | ok result =>
    dsimp only
    split
    · exact .pure _
    · exact .stop _

end SharesOutside

end RobotScript
