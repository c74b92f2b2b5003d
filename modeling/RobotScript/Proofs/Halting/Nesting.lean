import RobotScript.Proofs.Halting.Finishing
import RobotScript.Proofs.Reading.Outcomes
import RobotScript.Proofs.Relating.Renaming

/-! # Without free loops every run ends

A script that goes round only where the number of rounds is known before the first, and that
may not call for ever deeper, ends without any limit of steps. What bounds the way down is
how many more bodies may be entered, and for each of them the height of the highest one. -/
set_option autoImplicit false

namespace RobotScript

open Evaluation

variable {Host α β : Type}

/-- A loop that goes on until something in it says otherwise. -/
def Form.loopsFreely : Form → Bool
  | .loop _ _ _ _ | .whileTrue _ _ => true
  | _ => false

/-- No node of the tree, those of its functions among them, is a free loop. -/
def LoopsCounted (root : Node) : Prop :=
  Throughout (fun node => node.form.loopsFreely = false) root

namespace LoopsCounted

variable {node : Node}

theorem around {inside : Node} (here : node.form.loopsFreely = false)
    (only : node.children = [inside]) (counted : LoopsCounted inside) : LoopsCounted node := by
  refine Throughout.of_children here fun part member => ?_
  rw [only] at member
  exact List.mem_singleton.mp member ▸ counted

theorem part (counted : LoopsCounted node) {part : Node} (member : part ∈ node.parts) :
    LoopsCounted part := by
  obtain ⟨form, ty, span⟩ := node
  cases form with
  | repeating count body =>
    rcases List.mem_cons.mp member with rfl | member
    · exact Throughout.component counted List.mem_cons_self
    · obtain rfl := List.mem_singleton.mp member
      exact Throughout.round counted rfl
  | whileTrue => cases counted.here
  | literal | «variable» | block | breaking | continuing | define | loop => cases member
  | _ => exact Throughout.component counted member

theorem statement (counted : LoopsCounted node) {part : Node} (member : part ∈ node.statements) :
    LoopsCounted part := by
  rcases Typed.mem_statements member with rfl | member
  · exact counted
  · exact Throughout.component counted member

end LoopsCounted

/-! ## Runs that come back -/

/-- A body that is no higher than this and has no free loop. -/
structure Closure.Bounded (height : Nat) (closure : Closure) : Prop where
  low : nodeHeight closure.function.body ≤ height
  counted : LoopsCounted closure.function.body

/-- From so deep in function bodies the run ends, and as deep. -/
def ComesBack (height depth : Nat) (run : Run Host α) : Prop :=
  ∀ machine : Machine Host, machine.depth = depth →
    machine.store.Stores (Closure.Bounded height) →
    ∃ result after, run machine = some (result, after) ∧ after.depth = depth ∧
      after.store.Stores (Closure.Bounded height)

namespace ComesBack

variable {height depth : Nat}

theorem pure (value : α) : ComesBack height depth (Pure.pure value : Run Host α) :=
  fun machine isDeep bounded => ⟨.ok value, machine, rfl, isDeep, bounded⟩

theorem stop (exit : Exit) : ComesBack height depth (Run.stop exit : Run Host α) :=
  fun machine isDeep bounded => ⟨.error exit, machine, rfl, isDeep, bounded⟩

theorem bind {first : Run Host α} {next : α → Run Host β} (one : ComesBack height depth first)
    (two : ∀ value, ComesBack height depth (next value)) :
    ComesBack height depth (first >>= next) := by
  intro machine isDeep bounded
  obtain ⟨exit | value, between, ran, stillDeep, stillBounded⟩ := one machine isDeep bounded
  · exact ⟨.error exit, between, Run.bind_of_error ran, stillDeep, stillBounded⟩
  · rw [Run.bind_of_ok ran]
    exact two value between stillDeep stillBounded

theorem recover {body : Run Host α} {next : Except Exit α → Run Host β}
    (one : ComesBack height depth body) (two : ∀ result, ComesBack height depth (next result)) :
    ComesBack height depth (body.settle >>= next) := by
  intro machine isDeep bounded
  obtain ⟨result, between, ran, stillDeep, stillBounded⟩ := one machine isDeep bounded
  rw [Run.settle_bind ran]
  exact two result between stillDeep stillBounded

theorem changeStore {change : Store → Store}
    (keeps : ∀ store : Store, store.Stores (Closure.Bounded height) →
      (change store).Stores (Closure.Bounded height)) :
    ComesBack height depth (Run.changeStore change : Run Host Unit) :=
  fun machine isDeep bounded =>
    ⟨.ok (), { machine with store := change machine.store }, rfl, isDeep, keeps _ bounded⟩

theorem finishing (height depth : Nat) :
    Finishing (Store.Stores (Closure.Bounded height))
      fun α (run : Run Host α) => ComesBack height depth run where
  pure := pure
  stop := stop
  bind := bind
  recover one _ two := recover one two
  onHost action machine isDeep bounded :=
    ⟨.ok (action machine.host).1, { machine with host := (action machine.host).2 }, rfl, isDeep,
      bounded⟩
  reading comes machine isDeep bounded := comes machine.store bounded machine isDeep bounded
  changeStore := changeStore
  define bounded := bounded.define

theorem inScope (parent : ScopeId) (vars : Bindings Value) {body : ScopeId → Run Host α}
    (comes : ∀ id, ComesBack height depth (body id)) :
    ComesBack height depth (Run.inScope parent vars body) := by
  intro machine isDeep bounded
  obtain ⟨result, after, ran, stillDeep, stillBounded⟩ :=
    comes machine.store.size (machine.entered parent vars) isDeep
      (bounded.opened (some parent) vars)
  refine ⟨result, after.left, ?_, stillDeep, stillBounded.closed⟩
  rw [Run.inScope_eq, ran]
  rfl

theorem deeper {body : Run Host α} (comes : ComesBack height (depth + 1) body) :
    ComesBack height depth (Run.deeper body) := by
  intro machine isDeep bounded
  obtain ⟨result, after, ran, stillDeep, stillBounded⟩ :=
    comes machine.deeper (congrArg (· + 1) isDeep) bounded
  refine ⟨result, after.shallower, ?_, congrArg (· - 1) stillDeep, stillBounded⟩
  rw [Run.deeper_eq, ran]
  rfl

theorem tick (setup : Setup Host) (span : Span) :
    ComesBack height depth (tick setup span) := by
  intro machine isDeep bounded
  have asked := (finishing height depth).consult setup span (machine.steps + 1) machine.counted
    isDeep bounded
  cases limited : setup.limits.maxSteps with
  | none =>
    rwa [tick_within span]
    rintro limit isLimit
    rw [limited] at isLimit
    cases isLimit
  | some limit =>
    by_cases past : limit < machine.steps + 1
    · exact ⟨_, _, tick_past limited span past, isDeep, bounded⟩
    · rwa [tick_within span]
      rintro other isLimit
      rw [limited] at isLimit
      exact Option.some.inj isLimit ▸ Nat.le_of_not_lt past

section

variable {setup : Setup Host} {inner : Node → ScopeId → Run Host Value} {scope : ScopeId}

theorem statements {nodes : List Node}
    (each : ∀ node ∈ nodes, ComesBack height depth (inner node scope)) :
    ComesBack height depth (Evaluation.statements setup inner scope nodes) := by
  induction nodes with
  | nil => exact pure Value.void
  | cons node rest ih =>
    refine bind (tick setup node.span) fun _ => bind (each node List.mem_cons_self) fun _ => ?_
    exact ih fun other member => each other (List.mem_cons_of_mem node member)

/-- The count is there before the first round, so each round leaves fewer. -/
theorem repeated (span : Span) {body : Node} (comes : ComesBack height depth (inner body scope))
    (times : Nat) :
    ComesBack height depth (Evaluation.repeated setup inner span body scope times) := by
  induction times with
  | zero => exact pure Value.void
  | succ times ih => exact bind (tick setup span) fun _ => (finishing _ _).round comes ih

theorem callFunction {closure : Closure} (name : String) (arguments : List Value) (span : Span)
    (each : depth < setup.limits.maxDepth → ∀ node ∈ closure.function.body.statements, ∀ scope,
      ComesBack height (depth + 1) (inner node scope)) :
    ComesBack height depth (Evaluation.callFunction setup inner closure name arguments span) := by
  intro machine isDeep bounded
  subst isDeep
  change ∃ result after, admitted setup span _ machine = some (result, after) ∧ _
  rw [admitted_apply]
  split
  · exact ⟨_, machine, rfl, rfl, bounded⟩
  next room =>
    have body : ComesBack height (machine.depth + 1)
        (Run.inScope closure.home (boundParameters closure.function.parameters arguments)
          fun frame => Evaluation.statements setup inner frame closure.function.body.statements) :=
      inScope _ _ fun frame => statements fun node member =>
        each (Nat.lt_of_not_le room) node member frame
    exact recover (deeper body)
      ((finishing _ _).callResult name closure.function.returns span) machine rfl bounded

theorem form {fuel : Nat} {node : Node} (low : nodeHeight node ≤ height)
    (counted : LoopsCounted node)
    (inside : ∀ part scope, nodeHeight part < nodeHeight node → LoopsCounted part →
      ComesBack height depth (inner part scope))
    (further : depth < setup.limits.maxDepth → ∀ part scope, nodeHeight part ≤ height →
      LoopsCounted part → ComesBack height (depth + 1) (inner part scope)) :
    ComesBack height depth (Evaluation.form setup inner fuel node scope) := by
  have parts : ∀ part ∈ node.parts, ComesBack height depth (inner part scope) :=
    fun part member =>
      inside part scope (nodeHeight_lt_of_mem_parts member) (counted.part member)
  obtain ⟨form, ty, span⟩ := node
  cases form with
  | block nodes =>
    have each : ∀ block,
        ComesBack height depth (Evaluation.statements setup inner block nodes) := by
      refine fun block => statements fun node member => ?_
      refine inside node block ?_ (Throughout.component counted member)
      exact Nat.lt_succ_of_le (nodeHeight_le_nodesHeight member)
    exact inScope scope .empty each
  | define function =>
    refine bind (changeStore fun store bounded => bounded.defineFunction ?_ scope)
      fun _ => pure Value.void
    refine ⟨?_, Throughout.body counted rfl⟩
    exact definitionHeight_eq function ▸ Nat.le_trans (Nat.le_succ _) low
  | call name arguments =>
    refine bind ((finishing _ _).values parts) fun results => ?_
    refine (finishing _ _).invoke name results span fun store closure bounded found => ?_
    obtain ⟨id, -, stored⟩ := List.exists_of_findSome?_eq_some found
    obtain ⟨bodyLow, bodyCounted⟩ := bounded name id closure stored
    -- The body is any of those in the store, so only the room that is left counts.
    refine callFunction name results span fun room part member scope => ?_
    refine further room part scope ?_ (bodyCounted.statement member)
    exact Nat.le_trans (nodeHeight_le_nodesHeight member)
      (Nat.le_trans (statements_height_le _) bodyLow)
  | repeating count body =>
    refine bind (parts count List.mem_cons_self) fun number => ?_
    refine bind ((finishing _ _).lift count.span (repetitions number)) fun times => ?_
    exact repeated span (parts body (List.mem_cons_of_mem _ List.mem_cons_self)) times
  | loop | whileTrue => cases counted.here
  | _ => exact (finishing _ _).plain setup fuel rfl parts

/-- Fuel for a node of this height and for the bodies that may still be entered. -/
def Enough (limit height : Nat) (fuel here depth : Nat) : Prop :=
  here + (limit - depth) * (height + 1) ≤ fuel

theorem Enough.below {limit fuel here depth lower : Nat}
    (enough : Enough limit height (fuel + 1) here depth) (less : lower < here) :
    Enough limit height fuel lower depth := by
  unfold Enough at enough ⊢
  omega

theorem Enough.deeper {limit fuel here depth lower : Nat}
    (enough : Enough limit height (fuel + 1) here depth) (positive : 0 < here)
    (room : depth < limit) (low : lower ≤ height) :
    Enough limit height fuel lower (depth + 1) := by
  unfold Enough at enough ⊢
  have one : limit - depth = limit - (depth + 1) + 1 := by omega
  rw [one, Nat.add_one_mul] at enough
  omega

theorem evaluate {fuel : Nat} {node : Node} (low : nodeHeight node ≤ height)
    (counted : LoopsCounted node)
    (enough : Enough setup.limits.maxDepth height fuel (nodeHeight node) depth) :
    ComesBack height depth (Evaluation.evaluate setup fuel node scope) := by
  induction fuel generalizing node depth scope with
  | zero =>
    have none := Nat.le_trans (Nat.le_add_right _ _) enough
    exact absurd (nodeHeight_pos node) (Nat.not_lt.mpr none)
  | succ fuel ih =>
    -- Inside the node the height shrinks; in a body it begins anew, with fewer bodies to come.
    refine form low counted (fun part scope less partCounted => ?_)
      fun room part scope partLow partCounted => ?_
    · exact ih (Nat.le_trans (Nat.le_of_lt less) low) partCounted (enough.below less)
    · exact ih partLow partCounted (enough.deeper (nodeHeight_pos node) room partLow)

theorem script {nodes : List Node}
    (each : ∀ node ∈ nodes, ComesBack height depth (inner node scope)) (last : Value) :
    ComesBack height depth (Evaluation.script setup inner scope last nodes) := by
  induction nodes generalizing last with
  | nil => exact pure last
  | cons node rest ih =>
    have others := ih fun other member => each other (List.mem_cons_of_mem node member)
    have first : ComesBack height depth (topStatement setup inner scope node) :=
      bind (tick setup node.span) fun _ => each node List.mem_cons_self
    refine recover first fun result => ?_
    cases result with
    | error exit => exact bind (stop _) others
    | ok value => exact bind (pure value) others

end

end ComesBack

/-! ## The bound -/

/-- Fuel that is enough for a script whose functions may be entered within one another so
many times. -/
def nestingFuel (limit : Nat) (root : Node) : Nat := (limit + 1) * (nodeHeight root + 1)

/-- A script of which no node is a free loop ends when it is run in a fresh root, whatever
numbers its loops count to, however its functions call one another and whatever is recovered
from: there is a fuel, computed from the limit of the depth and from the tree alone, with which
it does, as it does with any more of it. No limit of steps is needed. -/
theorem runFresh_ends_of_loopsCounted (setup : Setup Host) (root : Node)
    (counted : LoopsCounted root) (host : Host) :
    ∃ result after, ∀ fuel, nestingFuel setup.limits.maxDepth root ≤ fuel →
      runFresh setup fuel root host = some (result, after) := by
  have enough : ComesBack.Enough setup.limits.maxDepth (nodeHeight root)
      (nestingFuel setup.limits.maxDepth root) (nodeHeight root) 0 := by
    unfold ComesBack.Enough nestingFuel
    rw [Nat.sub_zero, Nat.add_one_mul]
    omega
  have each : ∀ node ∈ root.statements, ComesBack (nodeHeight root) 0
      (evaluate setup (nestingFuel setup.limits.maxDepth root) node 0) := by
    intro node member
    have low := Nat.le_trans (nodeHeight_le_nodesHeight member) (statements_height_le root)
    refine ComesBack.evaluate low (counted.statement member) ?_
    exact Nat.le_trans (Nat.add_le_add_right low _) enough
  have comes : ComesBack (nodeHeight root) 0 (Evaluation.script setup
      (evaluate setup (nestingFuel setup.limits.maxDepth root)) 0 .void root.statements) :=
    ComesBack.script each .void
  obtain ⟨result, after, ran, -⟩ :=
    comes (Machine.ready .withRoot host) rfl (Store.Stores.withRoot _)
  refine ⟨result.mapError (topFault default), after, fun fuel most => ?_⟩
  refine runIn_of_le most ?_
  rw [runIn_eq, ran]
  rfl

namespace Countless

def rounds (body : Node) : Node :=
  .statement (.repeating ⟨.literal (.int 9223372036854775807), .int, default⟩ body) default

def quotient : Node :=
  ⟨.binary ⟨.literal (.int 1), .int, default⟩ .divide ⟨.literal (.int 0), .int, default⟩, .double,
    default⟩

def call (name : String) : Node := ⟨.call name [], .void, default⟩

def attempt : Node := .statement (.chain [.attempt (call "fail") default] none) default

def function (name : String) (body : Node) : Node :=
  .statement (.define ⟨name, .void, [], body⟩) default

/-- In every round of every round a call fails and is recovered from. -/
def script : Node :=
  .statement (.block [function "fail" quotient, function "recover" (rounds attempt),
    rounds (call "recover")]) default

theorem rounds_counted {body : Node} (counted : LoopsCounted body) :
    LoopsCounted (rounds body) := by
  refine Throughout.of_children rfl fun part member => ?_
  rcases List.mem_cons.mp member with rfl | member
  · exact Throughout.of_children rfl (by rintro _ ⟨⟩)
  · exact List.mem_singleton.mp member ▸ counted

theorem call_counted (name : String) : LoopsCounted (call name) :=
  Throughout.of_children rfl (by rintro _ ⟨⟩)

theorem quotient_counted : LoopsCounted quotient := by
  refine Throughout.of_children rfl fun part member => ?_
  rcases List.mem_cons.mp member with rfl | member
  · exact Throughout.of_children rfl (by rintro _ ⟨⟩)
  · obtain rfl := List.mem_singleton.mp member
    exact Throughout.of_children rfl (by rintro _ ⟨⟩)

theorem function_counted (name : String) {body : Node} (counted : LoopsCounted body) :
    LoopsCounted (function name body) := .around rfl rfl counted

end Countless

theorem countless_ends :
    LoopsCounted Countless.script ∧ ∃ result after, ∀ fuel, 1206 ≤ fuel →
      runFresh (⟨.empty, .standard, none⟩ : Setup Unit) fuel Countless.script () =
        some (result, after) := by
  have counted : LoopsCounted Countless.script := by
    refine Throughout.of_children rfl fun part member => ?_
    rcases List.mem_cons.mp member with rfl | member
    · exact Countless.function_counted "fail" Countless.quotient_counted
    rcases List.mem_cons.mp member with rfl | member
    · have attempt : LoopsCounted Countless.attempt :=
        LoopsCounted.around rfl rfl (Countless.call_counted "fail")
      exact Countless.function_counted "recover" (Countless.rounds_counted attempt)
    · obtain rfl := List.mem_singleton.mp member
      exact Countless.rounds_counted (Countless.call_counted "recover")
  exact ⟨counted,
    runFresh_ends_of_loopsCounted ⟨.empty, .standard, none⟩ Countless.script counted ()⟩

end RobotScript
