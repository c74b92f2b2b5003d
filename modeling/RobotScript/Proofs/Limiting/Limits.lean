import RobotScript.Proofs.Relating.Cut
import RobotScript.Proofs.Relating.Renaming

/-! # Limits as cuts

A lower limit of steps, or of depth, cuts a run short and does nothing else. -/
set_option autoImplicit false

namespace RobotScript

open Evaluation

variable {Host : Type}

namespace Setup

def withSteps (setup : Setup Host) (steps : Option Nat) : Setup Host :=
  { setup with limits := { setup.limits with maxSteps := steps } }

def withDepth (setup : Setup Host) (depth : Nat) : Setup Host :=
  { setup with limits := { setup.limits with maxDepth := depth } }

def withWatch (setup : Setup Host) (watch : Option (Nat → Host → Bool × Host)) : Setup Host :=
  { setup with watch := watch }

end Setup

variable {setup : Setup Host} {leads : Nat × Host → Nat × Host → Prop}

/-- A cut leads from a shorter run to every longer one, whatever their fuel. -/
theorem Cutting.Sound.runIn_ahead {cutting : Cutting Host} {setup other : Setup Host}
    (sound : cutting.Sound setup other) (machine : Machine Host) {after later : Machine Host}
    (keeps : cutting.keeps machine.steps machine.host) {fuel most : Nat} {root : Node}
    {scope : ScopeId} {span : Span} {result : Except Fault Value}
    (short : runIn setup fuel root scope machine =
      some (.error ⟨.fatal cutting.cause, span⟩, after))
    (long : runIn other most root scope machine = some (result, later)) :
    cutting.along after later := by
  have shortToo := runIn_of_le (Nat.le_max_left fuel most) short
  have longToo := runIn_of_le (Nat.le_max_right fuel most) long
  exact (sound.runIn_cut machine keeps shortToo).2 result later longToo

theorem Leading.steps (setup : Setup Host) : Leading (fun before after => before.1 ≤ after.1) setup where
  refl := fun outside => Nat.le_refl outside.1
  trans := fun _ _ _ => Nat.le_trans
  counted := fun steps _ => Nat.le_succ steps
  calls := fun _ _ _ _ steps _ => Nat.le_refl steps
  watches := fun _ _ _ steps _ => Nat.le_refl steps

namespace Cutting

theorem Ends.within {cutting : Cutting Host} {run : Run Host Unit} {machine : Machine Host}
    (stays : ∀ result after, run machine = some (result, after) →
      cutting.keeps after.steps after.host ∧
        ∀ exit, result = .error exit → ¬ cutting.cuts exit) :
    cutting.Ends run machine (run machine) := by
  rcases ran : run machine with _ | ⟨result, after⟩
  · exact ran
  · obtain ⟨keeps, uncut⟩ := stays result after ran
    exact .inl ⟨keeps, uncut, ran⟩

theorem Ends.admitted {cutting : Cutting Host} {setup other : Setup Host}
    (same : setup.limits.maxDepth = other.limits.maxDepth)
    (deepIsNoCut : ∀ limit, cutting.cause ≠ .callDepthLimit limit) {span : Span}
    {next last : Run Host Value} (runs : cutting.Extends Value next last)
    {machine : Machine Host} (keeps : cutting.keeps machine.steps machine.host) :
    cutting.Ends (admitted other span last) machine (admitted setup span next machine) := by
  have shown := admitted_apply other span last machine
  rw [← same] at shown
  rw [admitted_apply]
  split at shown
  next deep =>
    rw [if_pos deep]
    refine .inl ⟨keeps, ?_, shown⟩
    rintro _ ⟨⟩ ⟨place, isCut⟩
    simp only [Exit.fault.injEq, Fault.mk.injEq, Cause.fatal.injEq] at isCut
    exact deepIsNoCut _ isCut.1.symm
  next shallow =>
    rw [if_neg shallow]
    exact Ends.of_eq shown (runs.ends machine keeps)

/-! ## Steps -/

/-- The step behind the limit is the last one. -/
def bySteps (limit : Nat) (leads : Nat × Host → Nat × Host → Prop) : Cutting Host where
  cause := .stepLimit limit
  keeps steps _ := steps ≤ limit
  final steps _ := steps = limit + 1
  leads := leads

theorem bySteps_sound {limit : Nat} {longer : Option Nat}
    (leading : Leading leads (setup.withSteps longer))
    (more : ∀ most, longer = some most → limit ≤ most) :
    (bySteps limit leads).Sound (setup.withSteps (some limit)) (setup.withSteps longer) where
  leading := leading
  imposed := rfl
  natives := rfl
  keeps := fun _ _ _ _ _ _ keeps => keeps
  tick := by
    intro span machine keeps
    by_cases past : limit < machine.steps + 1
    · have isLimit : (setup.withSteps (some limit)).limits.maxSteps = some limit := rfl
      rw [tick_past isLimit span past]
      have last : machine.steps + 1 = limit + 1 :=
        congrArg (· + 1) (Nat.le_antisymm keeps (Nat.le_of_lt_succ past))
      refine .inr ⟨⟨_, rfl, span, rfl⟩, last, fun result later ran => ?_⟩
      -- The longer run may be cut here as well, or may take this step.
      rcases tick_ended ran with ⟨_, _, _, rfl⟩ | asked
      · exact leading.refl _
      · exact leading.course.consult span (machine.steps + 1) machine.counted result later asked
    · have left := Nat.le_of_not_lt past
      have within : ∀ most, (setup.withSteps (some limit)).limits.maxSteps = some most →
          machine.steps + 1 ≤ most := by
        rintro _ ⟨⟩
        exact left
      have withinToo : ∀ most, longer = some most → machine.steps + 1 ≤ most :=
        fun most isLimit => Nat.le_trans left (more most isLimit)
      rw [tick_within span within]
      refine Ends.of_eq (tick_within span withinToo) (Ends.within fun result after ran => ?_)
      obtain ⟨same, interrupts⟩ := consult_ended ran
      refine ⟨same ▸ left, fun exit failed isCut => ?_⟩
      obtain ⟨place, rfl⟩ := isCut
      cases (interrupts _ failed)
  admitted := by
    intro span next last runs machine keeps
    refine Ends.admitted rfl ?_ runs keeps
    rintro _ ⟨⟩

/-! ## Depth -/

def byDepth (limit : Nat) (leads : Nat × Host → Nat × Host → Prop) : Cutting Host where
  cause := .callDepthLimit limit
  keeps _ _ := True
  final _ _ := True
  leads := leads

theorem byDepth_sound {limit deeper : Nat} (leading : Leading leads (setup.withDepth deeper))
    (more : limit ≤ deeper) :
    (byDepth limit leads).Sound (setup.withDepth limit) (setup.withDepth deeper) where
  leading := leading
  imposed := rfl
  natives := rfl
  keeps := fun _ _ _ _ _ _ keeps => keeps
  tick := by
    intro span machine keeps
    refine Ends.within fun result after ran => ⟨trivial, ?_⟩
    rintro exit rfl ⟨place, rfl⟩
    rcases tick_ended ran with ⟨limit, _, ⟨⟩, _⟩ | asked
    cases (consult_ended asked).2 _ rfl
  admitted := by
    intro span next last runs machine keeps
    have shown := admitted_apply (setup.withDepth deeper) span last machine
    change _ = if deeper ≤ machine.depth then _ else _ at shown
    rw [admitted_apply]
    change Ends _ _ _ (if limit ≤ machine.depth then _ else _)
    by_cases deep : limit ≤ machine.depth
    · rw [if_pos deep]
      refine .inr ⟨⟨_, rfl, span, rfl⟩, trivial, ?_⟩
      exact leading.course.congruence.admitted span runs.moves machine
    · rw [if_neg deep]
      rw [if_neg fun deepToo => deep (Nat.le_trans more deepToo)] at shown
      exact Ends.of_eq shown (runs.ends machine keeps)

end Cutting

end RobotScript
