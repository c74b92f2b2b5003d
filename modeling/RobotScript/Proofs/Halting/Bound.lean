import RobotScript.Proofs.Halting.Finishing
import RobotScript.Proofs.Halting.Rules
import RobotScript.Proofs.Limiting.Limits

/-! # A limit of steps ends every run

Between two steps a run only goes down: from a node to the nodes in it, whose height
is less. Every round of a loop takes a step first, and so does every statement of a
function body, before the run comes to nodes as high as any. So fuel that is enough
for one way down after each step that may be taken is enough for the whole run. -/
set_option autoImplicit false

namespace RobotScript

open Evaluation

variable {Host : Type} {setup : Setup Host} {bounds : Bounds} {steps : Nat}
variable {inner : Node → ScopeId → Run Host Value} {scope : ScopeId}

/-- The fuel is enough for a node of this height after so many steps. -/
def Bounds.Suffices (bounds : Bounds) (fuel height steps : Nat) : Prop :=
  height + (bounds.steps + 1 - steps) * (bounds.height + 1) ≤ fuel

namespace Bounds.Suffices

variable {fuel height : Nat}

theorem below (enough : bounds.Suffices (fuel + 1) height steps) {lower : Nat}
    (less : lower < height) : bounds.Suffices fuel lower steps := by
  unfold Bounds.Suffices at enough ⊢
  omega

theorem later (enough : bounds.Suffices (fuel + 1) height steps) (positive : 0 < height)
    (left : steps ≤ bounds.steps) : bounds.Suffices fuel bounds.height (steps + 1) := by
  unfold Bounds.Suffices at enough ⊢
  have one : bounds.steps + 1 - steps = bounds.steps + 1 - (steps + 1) + 1 := by omega
  rw [one, Nat.add_one_mul] at enough
  omega

theorem mono (enough : bounds.Suffices fuel height steps) {lower : Nat} (less : lower ≤ height) :
    bounds.Suffices fuel lower steps :=
  Nat.le_trans (Nat.add_le_add_right less _) enough

theorem rounds (enough : bounds.Suffices (fuel + 1) height steps) (positive : 0 < height) :
    bounds.steps + 1 - steps ≤ fuel := by
  unfold Bounds.Suffices at enough
  have one := Nat.le_mul_of_pos_right (bounds.steps + 1 - steps)
    (Nat.zero_lt_of_ne_zero (Nat.add_one_ne_zero bounds.height))
  omega

end Bounds.Suffices

namespace Halts

theorem finishing (bounds : Bounds) (steps : Nat) :
    Finishing (Store.Low bounds.height) fun α (run : Run Host α) => Halts bounds steps run where
  pure := pure
  stop := stop
  bind := bind
  recover := recover
  onHost := onHost
  reading := reading
  changeStore := changeStore
  define := Store.Low.define

variable (limited : setup.limits.maxSteps = some bounds.steps)
include limited

/-- Each statement takes a step first, so it is one step later that it runs. -/
theorem statements {nodes : List Node}
    (each : ∀ node ∈ nodes, Halts bounds (steps + 1) (inner node scope)) :
    Halts bounds steps (Evaluation.statements setup inner scope nodes) := by
  induction nodes generalizing steps with
  | nil => exact pure Value.void
  | cons node rest ih =>
    refine tick limited node.span ?_
    refine bind (each node List.mem_cons_self) fun _ => ?_
    exact ih fun other member =>
      (each other (List.mem_cons_of_mem node member)).mono (Nat.le_succ _)

theorem callFunction {closure : Closure} (name : String) (arguments : List Value) (span : Span)
    (each : ∀ node scope, nodeHeight node ≤ definitionHeight closure.function →
      Halts bounds (steps + 1) (inner node scope)) :
    Halts bounds steps (Evaluation.callFunction setup inner closure name arguments span) := by
  refine bind depth fun reached => ?_
  dsimp only
  split
  · exact stop _
  · refine recover (deeper (inScope _ _ fun frame => statements limited ?_)) ?_ ?_
    · intro node member
      refine each node frame ?_
      rw [definitionHeight_eq]
      exact Nat.le_trans (nodeHeight_le_nodesHeight member) (statements_height_le _)
    · exact fun _ _ => rfl
    · exact (finishing bounds steps).callResult name closure.function.returns span

theorem invoke (name : String) (arguments : List Value) (span : Span)
    (each : ∀ node scope, nodeHeight node ≤ bounds.height →
      Halts bounds (steps + 1) (inner node scope)) :
    Halts bounds steps (Evaluation.invoke setup inner name arguments span scope) := by
  refine (finishing bounds steps).invoke name arguments span fun store closure low found => ?_
  exact callFunction limited name arguments span fun node scope less =>
    each node scope (Nat.le_trans less (low.function? found))

theorem rounds (span : Span) {test body : Node} {next : Run Host Unit}
    (testHalts : Halts bounds steps (inner test scope))
    (bodyHalts : Halts bounds steps (inner body scope)) (nextHalts : Halts bounds steps next)
    {fuel : Nat} (enough : bounds.steps + 1 - steps ≤ fuel) :
    Halts bounds steps (Evaluation.rounds setup inner span test body next scope fuel) := by
  induction fuel generalizing steps with
  | zero =>
    refine within fun left => ?_
    omega
  | succ fuel ih =>
    have less := Nat.le_succ steps
    refine tick limited span ?_
    refine bind ((finishing _ _).condition (testHalts.mono less)) fun taken => ?_
    cases taken with
    | false => exact pure Value.void
    | true =>
      refine (finishing _ _).round (bodyHalts.mono less) (bind (nextHalts.mono less) fun _ => ?_)
      exact ih (testHalts.mono less) (bodyHalts.mono less) (nextHalts.mono less) (by omega)

theorem repeated (span : Span) {body : Node} (halts : Halts bounds steps (inner body scope))
    (times : Nat) :
    Halts bounds steps (Evaluation.repeated setup inner span body scope times) := by
  induction times with
  | zero => exact pure Value.void
  | succ times ih =>
    have less := Nat.le_succ steps
    exact tick limited span ((finishing _ _).round (halts.mono less) (ih.mono less))

/-- A node halts if the nodes in it do, and the nodes of function bodies do one step
later. -/
theorem form {fuel : Nat} {node : Node} (low : nodeHeight node ≤ bounds.height)
    (inside : ∀ part scope, nodeHeight part < nodeHeight node →
      Halts bounds steps (inner part scope))
    (later : ∀ part scope, nodeHeight part ≤ bounds.height →
      Halts bounds (steps + 1) (inner part scope))
    (enough : bounds.steps + 1 - steps ≤ fuel) :
    Halts bounds steps (Evaluation.form setup inner fuel node scope) := by
  obtain ⟨form, ty, span⟩ := node
  have below {part : Node} {scope : ScopeId} (less : nodeHeight part ≤ form.height) :
      Halts bounds steps (inner part scope) := inside part scope (Nat.lt_succ_of_le less)
  have parts {nodes : List Node} (less : nodesHeight nodes ≤ form.height) :
      ∀ node ∈ nodes, ∀ scope, Halts bounds steps (inner node scope) :=
    fun node member scope => below (Nat.le_trans (nodeHeight_le_nodesHeight member) less)
  cases form with
  | block nodes =>
    -- Each statement is asked to halt a step later; lying lower, it does without that step.
    have each : ∀ block, Halts bounds steps (Evaluation.statements setup inner block nodes) :=
      fun block => statements limited fun node member =>
        (parts (Nat.le_refl _) node member block).mono (Nat.le_succ steps)
    exact inScope scope .empty each
  | define function =>
    refine bind (changeStore fun store isLow => isLow.defineFunction ?_ scope)
      fun _ => pure Value.void
    exact Nat.le_trans (Nat.le_succ _) low
  | call name arguments =>
    refine bind ((finishing _ _).values fun node member =>
      parts (Nat.le_refl _) node member scope) ?_
    exact fun results => invoke limited name results span later
  | loop initializer test step body =>
    have first := Nat.le_max_left (max (nodeHeight initializer) (nodeHeight test))
      (max (nodeHeight step) (nodeHeight body))
    have second := Nat.le_max_right (max (nodeHeight initializer) (nodeHeight test))
      (max (nodeHeight step) (nodeHeight body))
    have each : ∀ header, Halts bounds steps (inner initializer header >>= fun _ =>
        Evaluation.rounds setup inner span test body
          (inner step header >>= fun _ => Pure.pure ()) header fuel) := by
      intro header
      refine bind (below (Nat.le_trans (Nat.le_max_left _ _) first)) fun _ => ?_
      refine rounds limited span (below (Nat.le_trans (Nat.le_max_right _ _) first))
        (below (Nat.le_trans (Nat.le_max_right _ _) second)) ?_ enough
      exact bind (below (Nat.le_trans (Nat.le_max_left _ _) second)) fun _ => pure ()
    exact inScope scope .empty each
  | repeating count body =>
    refine bind (below (Nat.le_max_left _ _)) fun number => ?_
    refine bind (lift count.span (repetitions number)) fun times => ?_
    exact repeated limited span (below (Nat.le_max_right _ _)) times
  | whileTrue test body =>
    exact rounds limited span (below (Nat.le_max_left _ _)) (below (Nat.le_max_right _ _))
      (pure ()) enough
  | _ =>
    refine (finishing bounds steps).plain setup fuel rfl fun part member => ?_
    exact inside part scope (nodeHeight_lt_of_mem_parts member)

theorem evaluate {fuel : Nat} {node : Node} (low : nodeHeight node ≤ bounds.height)
    (enough : bounds.Suffices fuel (nodeHeight node) steps) :
    Halts bounds steps (Evaluation.evaluate setup fuel node scope) := by
  induction fuel generalizing node steps scope with
  | zero =>
    have none := Nat.le_trans (Nat.le_add_right _ _) enough
    exact absurd (nodeHeight_pos node) (Nat.not_lt.mpr none)
  | succ fuel ih =>
    have positive := nodeHeight_pos node
    -- Inside the node the height shrinks; in a body it may grow again, but a step is gone.
    refine within fun left => form limited low ?_ ?_ (enough.rounds positive)
    · exact fun part scope less => ih (Nat.le_trans (Nat.le_of_lt less) low) (enough.below less)
    · exact fun part scope less => ih less ((enough.later positive left).mono less)

theorem script {fuel : Nat} {nodes : List Node} (low : nodesHeight nodes ≤ bounds.height)
    (enough : bounds.Suffices fuel bounds.height 0) (last : Value) :
    Halts bounds 0 (Evaluation.script setup (Evaluation.evaluate setup fuel) scope last nodes) := by
  induction nodes generalizing last with
  | nil => exact pure last
  | cons node rest ih =>
    have here := Nat.le_trans (Nat.le_max_left (nodeHeight node) (nodesHeight rest)) low
    have behind := Nat.le_trans (Nat.le_max_right (nodeHeight node) (nodesHeight rest)) low
    refine recover ?_ (fun _ _ => rfl) fun result => ?_
    · have halts : Halts bounds 0 (Evaluation.evaluate setup fuel node scope) :=
        evaluate limited here (enough.mono here)
      exact tick limited node.span (halts.mono (Nat.zero_le _))
    · cases result with
      | error exit => exact bind (stop _) fun value => ih behind value
      | ok value => exact bind (pure value) fun value => ih behind value

end Halts

/-! ## The bound -/

namespace Evaluation

/-- Fuel that is enough for a script of which each step leads down at most once from
its highest node or that of the functions in the store. -/
def enoughFuel (limit : Nat) (root : Node) (store : Store) : Nat :=
  (limit + 2) * (max (nodeHeight root) store.height + 1)

def boundsOf (limit : Nat) (root : Node) (store : Store) : Bounds :=
  ⟨limit, max (nodeHeight root) store.height⟩

theorem suffices_enoughFuel (limit : Nat) (root : Node) (store : Store) :
    (boundsOf limit root store).Suffices (enoughFuel limit root store)
      (max (nodeHeight root) store.height) 0 := by
  unfold Bounds.Suffices enoughFuel boundsOf
  dsimp only
  rw [Nat.sub_zero, Nat.add_mul (limit + 1) 1, Nat.one_mul]
  omega

end Evaluation

/-- From a machine that is ready a run that halts takes at most one step more than
it may. -/
theorem Halts.ready {α : Type} {limit : Nat} {root : Node} {store : Store} {run : Run Host α}
    (halts : Halts (boundsOf limit root store) 0 run) (host : Host) :
    ∃ result after, run (Machine.ready store host) = some (result, after) ∧
      after.steps ≤ limit + 1 := by
  have low : store.Low (boundsOf limit root store).height :=
    store.low_height.mono (Nat.le_max_right _ _)
  obtain ⟨result, after, ran, halted⟩ :=
    halts (Machine.ready store host) (Nat.le_refl 0) (Nat.zero_le limit) low
  refine ⟨result, after, ran, ?_⟩
  rcases halted.ends with left | ⟨behind, _⟩
  · exact Nat.le_succ_of_le left
  · exact Nat.le_of_eq behind

namespace Evaluation

theorem limited_runIn_ends (setup : Setup Host) (limit : Nat) (root : Node) (scope : ScopeId)
    (store : Store) (host : Host) :
    ∃ result after, after.steps ≤ limit + 1 ∧ ∀ fuel, enoughFuel limit root store ≤ fuel →
      runIn (setup.withSteps (some limit)) fuel root scope (.ready store host) =
        some (result, after) := by
  have low : nodesHeight root.statements ≤ (boundsOf limit root store).height :=
    Nat.le_trans (statements_height_le root) (Nat.le_max_left _ _)
  have limited : (setup.withSteps (some limit)).limits.maxSteps =
      some (boundsOf limit root store).steps := rfl
  have halts : Halts (boundsOf limit root store) 0 (script (setup.withSteps (some limit))
      (evaluate (setup.withSteps (some limit)) (enoughFuel limit root store)) scope .void
      root.statements) :=
    Halts.script limited low (suffices_enoughFuel limit root store) .void
  obtain ⟨result, after, ran, few⟩ := halts.ready host
  refine ⟨result.mapError (topFault default), after, few, fun fuel most => ?_⟩
  apply runIn_of_le most
  rw [runIn_eq, ran]
  rfl

/-- Without a limit a script that ends needs no more fuel than it would need with the
steps that it takes as its limit. -/
theorem runIn_of_enoughFuel {setup : Setup Host} {root : Node} {scope : ScopeId} {store : Store}
    {host : Host} {fuel : Nat} {result : Except Fault Value} {after : Machine Host}
    (run : runIn (setup.withSteps none) fuel root scope (.ready store host) =
      some (result, after)) {most : Nat} (enough : enoughFuel after.steps root store ≤ most) :
    runIn (setup.withSteps none) most root scope (.ready store host) = some (result, after) := by
  obtain ⟨ended, last, few, limited⟩ :=
    limited_runIn_ends setup after.steps root scope store host
  have sound : (Cutting.bySteps after.steps _).Sound (setup.withSteps (some after.steps))
      (setup.withSteps none) := Cutting.bySteps_sound (.steps _) (by rintro _ ⟨⟩)
  by_cases isCut : CutFor (.stepLimit after.steps)
      (runIn (setup.withSteps (some after.steps)) most root scope (.ready store host))
  · -- The run without a limit takes the step at which it would have been cut.
    obtain ⟨span, behind, cut⟩ := isCut
    have final := (sound.runIn_cut (.ready store host) (Nat.zero_le _) cut).1
    have ahead := sound.runIn_ahead (.ready store host) (Nat.zero_le _) cut run
    exact absurd (Nat.le_trans (Nat.le_of_eq final.symm) ahead) (Nat.not_succ_le_self _)
  · have same := sound.runIn_same (.ready store host) (Nat.zero_le _) isCut
    rw [limited most enough] at same
    have one := runIn_of_le (Nat.le_max_left fuel most) run
    have two := runIn_of_le (Nat.le_max_right fuel most) same
    rw [same, ← two, one]

/-- With a limit of steps every script ends, whatever it is and whatever it runs on,
and so does every node: there is a fuel, computed from the limit, the tree and the
functions of the store, with which they do, as they do with any more of it, and after
at most one step more than the limit. Nor does a script need more fuel than this for
the steps that it takes if there is no limit: no loop and no recursion goes round
without a step. -/
theorem ends_of_limit (setup : Setup Host) (limit : Nat) (root : Node) (scope : ScopeId)
    (store : Store) (host : Host) :
    (∃ result after, after.steps ≤ limit + 1 ∧ ∀ fuel, enoughFuel limit root store ≤ fuel →
      runIn (setup.withSteps (some limit)) fuel root scope (.ready store host) =
        some (result, after)) ∧
    (∃ result after, after.steps ≤ limit + 1 ∧ ∀ fuel, enoughFuel limit root store ≤ fuel →
      evaluate (setup.withSteps (some limit)) fuel root scope (.ready store host) =
        some (result, after)) ∧
    ∀ fuel result after,
      runIn (setup.withSteps none) fuel root scope (.ready store host) = some (result, after) →
      ∀ most, enoughFuel after.steps root store ≤ most →
        runIn (setup.withSteps none) most root scope (.ready store host) =
          some (result, after) := by
  refine ⟨limited_runIn_ends setup limit root scope store host, ?_, ?_⟩
  · have low : nodeHeight root ≤ (boundsOf limit root store).height := Nat.le_max_left _ _
    have limited : (setup.withSteps (some limit)).limits.maxSteps =
        some (boundsOf limit root store).steps := rfl
    have halts : Halts (boundsOf limit root store) 0 (evaluate (setup.withSteps (some limit))
        (enoughFuel limit root store) root scope) :=
      Halts.evaluate limited low ((suffices_enoughFuel limit root store).mono low)
    obtain ⟨result, after, ran, few⟩ := halts.ready host
    exact ⟨result, after, few, fun fuel most => evaluate_of_le most ran⟩
  · exact fun fuel result after run most enough => runIn_of_enoughFuel run enough

def twice : Node :=
  .statement (.repeating ⟨.literal (.int 2), .int, default⟩ (.statement (.block []) default))
    default

def alone : Setup Unit := ⟨.empty, .standard, none⟩

theorem twice_ends :
    (∃ result after, after.steps ≤ 1 + 1 ∧
      runIn (alone.withSteps (some 1)) 100 twice 0 (.ready .withRoot ()) = some (result, after)) ∧
    ∃ result after, enoughFuel after.steps twice .withRoot ≤ 100 ∧
      runIn (alone.withSteps none) 3 twice 0 (.ready .withRoot ()) = some (result, after) ∧
      runIn (alone.withSteps none) 100 twice 0 (.ready .withRoot ()) = some (result, after) := by
  have ends := ends_of_limit alone 1 twice 0 .withRoot ()
  have checked : (match runIn (alone.withSteps none) 3 twice 0 (.ready .withRoot ()) with
      | some (_, after) => decide (enoughFuel after.steps twice .withRoot ≤ 100)
      | none => false) = true := by decide +kernel
  constructor
  · obtain ⟨result, after, few, limited⟩ := ends.1
    exact ⟨result, after, few, limited 100 (by decide +kernel)⟩
  · cases run : runIn (alone.withSteps none) 3 twice 0 (.ready .withRoot ()) with
    | none =>
      rw [run] at checked
      cases checked
    | some ended =>
      obtain ⟨result, after⟩ := ended
      rw [run] at checked
      have enough : enoughFuel after.steps twice .withRoot ≤ 100 := of_decide_eq_true checked
      exact ⟨result, after, enough, rfl, ends.2.2 3 result after run 100 enough⟩

end Evaluation

end RobotScript
