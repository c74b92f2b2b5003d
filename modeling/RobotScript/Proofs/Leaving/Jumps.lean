import RobotScript.Proofs.Entering.Consistency
import RobotScript.Proofs.Leaving.Exits
import RobotScript.Proofs.Soundness

/-! # Jumps are confined

What follows from the exits of arbitrary trees for well-typed ones: no operand jumps, no
function body ends with `break` or `continue`, and a script reports a jump without a
target only for a `return` that lies outside all its functions and was visited. -/
set_option autoImplicit false

namespace RobotScript

open Evaluation Typing

variable {Host : Type}

/-- Every fault of a script lies at a known place, and if the script did not fail inside
a statement then a jump left the statement. -/
def StemsFrom (known : Span → Prop) (nodes : List Node) (depth : Nat) (visits : List Visit)
    (fault : Fault) : Prop :=
  known fault.span ∧ (fault.cause.Internal ∨
    ∃ node ∈ nodes, ∃ jump, ∃ visit ∈ visits, visit.depth = depth ∧
      Leaves jump visit.node node ∧ fault = topFault node.span (.jump jump))

theorem topStatements_stemsFrom {known : Span → Prop} (plain : Setup Host) (fuel : Nat)
    {scope : ScopeId} {nodes : List Node} (here : ∀ node ∈ nodes, Known known node)
    {last : Value} {machine after : Machine (Watched Host)} {result : Except Fault Value}
    (knows : machine.store.Knows known)
    (ran : topStatements (Watching.setup plain) (Watching.evaluate plain fuel) scope last nodes
      machine = some (result, after)) :
    after.store.Knows known ∧
      ∀ fault, result = .error fault → StemsFrom known nodes machine.depth after.visits fault := by
  induction nodes generalizing last machine with
  | nil =>
    cases ran
    exact ⟨knows, by rintro _ ⟨⟩⟩
  | cons node rest ih =>
    have nodeHere := here node List.mem_cons_self
    have confined : Confined known (fun jump source => Leaves jump source node)
        (topStatement (Watching.setup plain) (Watching.evaluate plain fuel) scope node) :=
      .bind (.tick plain nodeHere.span) fun _ => .evaluate known plain fuel node scope nodeHere
    rcases topStatements_ended ran with ⟨exit, rfl, failed⟩ | ⟨value, between, ended, further⟩
    · obtain ⟨onward, exits⟩ := confined machine _ _ knows failed
      refine ⟨onward.knows, ?_⟩
      rintro _ ⟨⟩
      have stems := exits exit rfl
      cases exit with
      | fault reason => exact ⟨stems.1, .inl stems.2⟩
      | jump jump =>
        obtain ⟨visit, member, depth, leaves⟩ := stems
        refine ⟨?_, .inr ⟨node, List.mem_cons_self, jump, visit, member, depth, leaves, rfl⟩⟩
        cases jump <;> exact nodeHere.span
    · obtain ⟨onward, -⟩ := confined machine _ _ knows ended
      obtain ⟨stored, stems⟩ :=
        ih (fun other member => here other (List.mem_cons_of_mem node member)) onward.knows further
      refine ⟨stored, fun fault isFault => ?_⟩
      obtain ⟨place, internal | ⟨other, member, jump, found⟩⟩ := stems fault isFault
      · exact ⟨place, .inl internal⟩
      · rw [onward.depth] at found
        exact ⟨place, .inr ⟨other, List.mem_cons_of_mem node member, jump, found⟩⟩

theorem Store.knows_withRoot (known : Span → Prop) : Store.withRoot.Knows known :=
  Stores.withRoot _

theorem StemsFrom.runtime {known : Span → Prop} {nodes : List Node} {depth : Nat}
    {visits : List Visit} {fault : Fault} (stems : StemsFrom known nodes depth visits fault) :
    fault.kind = .runtime := by
  obtain ⟨-, internal | ⟨node, -, jump, -, -, -, -, rfl⟩⟩ := stems
  · exact internal.runtime
  · cases jump <;> rfl

/-- A run that begins with known functions fails at known places only, with errors of running,
and leaves known functions behind. -/
theorem runIn_knows {known : Span → Prop} {setup : Setup Host} {fuel : Nat} {root : Node}
    (here : Known known root) {scope : ScopeId} {machine after : Machine Host}
    (knows : machine.store.Knows known) {result : Except Fault Value}
    (ran : runIn setup fuel root scope machine = some (result, after)) :
    after.store.Knows known ∧
      ∀ fault, result = .error fault → known fault.span ∧ fault.kind = .runtime := by
  obtain ⟨last, watched, rfl⟩ := Watching.runIn_of_plain ran
  obtain ⟨stored, stems⟩ :=
    topStatements_stemsFrom setup fuel (fun _ member => here.statement member) knows watched
  exact ⟨stored, fun fault isFault => ⟨(stems fault isFault).1, (stems fault isFault).runtime⟩⟩

def anywhere (_ : Span) : Prop := True

theorem knows_anywhere (store : Store) : store.Knows anywhere := fun _ _ _ _ _ _ => trivial

theorem known_anywhere (node : Node) : Known anywhere node := fun _ _ => trivial

/-- The evaluation of the node ends with no jump, whatever the machine. -/
def NeverJumps (setup : Setup Host) (node : Node) : Prop :=
  ∀ fuel scope machine jump after,
    evaluate setup fuel node scope machine ≠ some (.error (.jump jump), after)

theorem neverJumps_of_isOperand (setup : Setup Host) {node : Node} (operand : IsOperand node) :
    NeverJumps setup node := by
  intro fuel scope machine jump after ran
  obtain ⟨last, watched, -⟩ :=
    Watching.of_plain (Watching.evaluate_mirrors setup fuel node scope) ran
  have confined := Confined.evaluate anywhere setup fuel node scope (known_anywhere node)
  obtain ⟨-, exits⟩ := confined _ _ _ (knows_anywhere _) watched
  obtain ⟨visit, -, -, leaves⟩ := exits _ rfl
  exact leaves.not_operand operand

theorem body_returns (setup : Setup Host) {returns : Option Ty} (function : Function)
    (stands : Stands ⟨false, returns⟩ function.body) {fuel : Nat} {frame : ScopeId}
    {machine after : Machine Host} {jump : Jump}
    (ran : statements setup (evaluate setup fuel) frame function.body.statements machine =
      some (.error (.jump jump), after)) : ∃ value, jump = .toCaller value := by
  obtain ⟨last, watched, -⟩ :=
    Watching.of_plain (Watching.statements_mirrors setup fuel frame function.body.statements) ran
  have confined : Confined anywhere (Confined.LeavesSome function.body.statements)
      (statements (Watching.setup setup) (Watching.evaluate setup fuel) frame
        function.body.statements) :=
    .statements (.evaluate anywhere setup fuel) fun node _ => known_anywhere node
  obtain ⟨-, exits⟩ := confined _ _ _ (knows_anywhere _) watched
  obtain ⟨visit, -, -, node, member, leaves⟩ := exits _ rfl
  have inside : Stands ⟨false, returns⟩ node := by
    rcases Typed.mem_statements member with rfl | member
    · exact stands
    · exact stands.components member
  rcases leaves.inLoop inside with returns | ⟨⟨⟩⟩
  exact returns

/-- What a script reports for a jump without a target it reports for a `return` outside
all functions, which was visited while no function body was run. -/
theorem runIn_reports {context : Context} {root : Node} (program : Program context root)
    (setup : Setup Host) {fuel : Nat} {scope : ScopeId} {machine after : Machine Host}
    {fault : Fault} (ran : runIn setup fuel root scope machine = some (.error fault, after)) :
    fault.cause ≠ .recoverable .jumpOutsideLoop ∧
      (fault.cause = .recoverable .returnOutsideFunction →
        ∃ last visit, Watching.runIn setup fuel root scope machine.watched =
            some (.error fault, last) ∧ last.plain = after ∧ visit ∈ last.visits ∧
          visit.depth = machine.depth ∧ Outside root visit.node ∧
          ∃ value, visit.node.form = .returning value) := by
  obtain ⟨last, watched, isAfter⟩ := Watching.runIn_of_plain ran
  obtain ⟨-, stems⟩ := topStatements_stemsFrom setup fuel (fun node _ => known_anywhere node)
    (knows_anywhere _) watched
  rcases (stems fault rfl).2 with internal | ⟨node, member, jump, visit, visited, depth, leaves, rfl⟩
  · exact ⟨internal.noJump, fun isReturn => absurd isReturn internal.noReturn⟩
  · obtain ⟨before, behind, split⟩ := List.append_of_mem member
    have stands : Stands ⟨false, none⟩ node :=
      .statement (program.statements before node behind split)
    rcases leaves.inLoop stands with ⟨value, rfl⟩ | ⟨⟨⟩⟩
    refine ⟨by rintro ⟨⟩, fun _ => ⟨last, visit, watched, isAfter, visited, depth, ?_, ?_⟩⟩
    · rcases Typed.mem_statements member with rfl | isPart
      · exact leaves.outside .self
      · exact leaves.outside (.component .self isPart)
    · exact leaves.jumps.returning

/-- In every script, and in every entry of a session: what stands where a value is
wanted ends with a value or a fault, on any machine; no function body ends with `break`
or `continue`; and a run reports no jump outside of a loop, and a `return` outside of
functions only if it visited one that lies outside of all functions. -/
theorem jumps_confined {source : String} {context behind : Context} {root : Node}
    (parsed : parseText source context = .ok (root, behind)) (setup : Setup Host) :
    (∀ node, Within root node → ∀ operand ∈ node.operands, NeverJumps setup operand) ∧
      (∀ node function, Within root node → node.function? = some function →
        ∀ fuel frame machine jump after,
          statements setup (evaluate setup fuel) frame function.body.statements machine =
            some (.error (.jump jump), after) → ∃ value, jump = .toCaller value) ∧
      ∀ fuel scope machine fault after,
        runIn setup fuel root scope machine = some (.error fault, after) →
          fault.cause ≠ .recoverable .jumpOutsideLoop ∧
          (fault.cause = .recoverable .returnOutsideFunction →
            ∃ last visit, Watching.runIn setup fuel root scope machine.watched =
                some (.error fault, last) ∧ last.plain = after ∧ visit ∈ last.visits ∧
              visit.depth = machine.depth ∧ Outside root visit.node ∧
              ∃ value, visit.node.form = .returning value) := by
  obtain ⟨program, -⟩ := parseText_wellTyped parsed
  refine ⟨?_, ?_, ?_⟩
  · intro node within operand member
    obtain ⟨place, stands⟩ := program.stands.of_within within
    exact neverJumps_of_isOperand setup (stands.operands member)
  · intro node function within defines fuel frame machine jump after ran
    obtain ⟨place, stands⟩ := program.stands.of_within within
    exact body_returns setup function (stands.body defines) ran
  · intro fuel scope machine fault after ran
    exact runIn_reports program setup ran

/-- A function that leaves a loop and returns, and a script that returns from a branch. -/
def leavingEarly : String :=
  "func int first() \x7b while true \x7b if true \x7b break; \x7d continue; \x7d return 1; \x7d while true \x7b if first() == 1 \x7b return; \x7d \x7d"

theorem leavingEarly_reports :
    ∃ root behind fault after,
      parseText leavingEarly printing.natives.context = .ok (root, behind) ∧
      runIn printing 20 root 0 (.ready .withRoot []) = some (.error fault, after) ∧
      fault.cause = .recoverable .returnOutsideFunction ∧
      ∃ last visit, Watching.runIn printing 20 root 0
          (Machine.watched (.ready .withRoot [])) = some (.error fault, last) ∧
        last.plain = after ∧ visit ∈ last.visits ∧ visit.depth = 0 ∧ Outside root visit.node ∧
        ∃ value, visit.node.form = .returning value := by
  have checked : (parseText leavingEarly printing.natives.context).toOption.any (fun program =>
      (runIn printing 20 program.1 0 (.ready .withRoot [])).any fun ended =>
        (fault? ended.1).any fun fault =>
          fault.cause = .recoverable .returnOutsideFunction) = true := by
    decide +kernel
  obtain ⟨⟨root, behind⟩, parsed, checked⟩ := (Option.any_eq_true _ _).mp checked
  obtain ⟨⟨result, after⟩, ran, checked⟩ := (Option.any_eq_true _ _).mp checked
  obtain ⟨fault, failed, checked⟩ := (Option.any_eq_true _ _).mp checked
  have parsed := ok_of_toOption parsed
  obtain rfl := error_of_fault? failed
  have isReturn := of_decide_eq_true checked
  exact ⟨root, behind, fault, after, parsed, ran, isReturn,
    ((jumps_confined parsed printing).2.2 20 0 _ fault after ran).2 isReturn⟩

end RobotScript
