import RobotScript.Proofs.Relating.Runs
import RobotScript.Proofs.Running.Soundness
import RobotScript.Script

/-! # Whole scripts

A script starts in a world in which nothing is bound and nothing was used. Each
statement of its top level leads to a world in which the next one is ready, and a
jump that finds no target is a fault that a host can recover from. -/
set_option autoImplicit false

namespace RobotScript

open Typing Evaluation

variable {Host : Type} {stage : Stage Host}

/-- The type of what a script gives, which is that of its last statement. -/
def Typed.resultTy (root : Node) : Ty := (root.statements.getLast?.map (·.ty)).getD .void

/-- How a script that gives values of a type may end. -/
def EndsWell (ty : Ty) : Except Fault Value → Prop
  | .ok value => value.Is ty
  | .error fault => fault.cause.Tolerated

theorem Machine.reach_root (host : Traced Host) (name : Name) :
    (Machine.ready Store.withRoot host).reach 0 name = none := by
  have chain : Store.withRoot.chain 0 = [0] := by
    rw [Store.chain]
    rfl
  unfold Machine.reach Machine.ready
  rw [chain]
  cases name <;> rfl

theorem World.ready (stage : Stage Host) {host : Host} (holds : stage.holds host) :
    World stage (Machine.ready Store.withRoot (host, .blank)) where
  rooted := Store.rooted_withRoot
  held _ inside := Store.isHeld_withRoot inside
  wellFormed := by
    intro id name value found
    cases (Store.variableIn?_withRoot name id).symm.trans found
  closures := by
    intro id name closure found
    cases (Store.functionIn?_withRoot name id).symm.trans found
  holds := holds
  uses := fun _ member => absurd member List.not_mem_nil

theorem ReadySequence.fresh {root : Node} {host : Host}
    (typed : Program stage.plain.natives.context root) (captureFree : CaptureFree [] root)
    (links : root.links ⊆ stage.links) (holds : stage.holds host) :
    ReadySequence stage stage.plain.natives.context .blank
      (Machine.ready Store.withRoot (host, .blank)) 0 root.statements := by
  obtain ⟨form, ty, span⟩ := root
  obtain ⟨⟨list, rfl, rfl⟩, statements⟩ := typed
  have keeps := captureFree ⟨[], list⟩ List.mem_cons_self
  refine ⟨⟨.ready stage holds, ⟨rfl, .blank _⟩, Nat.one_pos, ?_, links, ?_⟩, rfl, ?_, ?_⟩
  · intro name _
    exact Machine.reach_root _ name
  · intro extent member
    exact captureFree extent (List.mem_cons_of_mem _ member)
  · exact calm_of_keepsMeanings statements (fun _ member => absurd member List.not_mem_nil) keeps
  · intro node member name declares label closure found
    cases (Store.functionIn?_withRoot label 0).symm.trans found

theorem topFault_tolerated {exit : Exit} (fits : exit.Fits Grammar.topLevel) (span : Span) :
    (topFault span exit).cause.Tolerated := by
  rcases exit with fault | (value | _ | _)
  · exact fits
  · trivial
  · trivial
  · trivial

section

variable {inner : Node → ScopeId → Run (Traced Host) Value}
variable {context : Context} {outlook : Outlook} {machine : Machine (Traced Host)} {scope : Nat}

theorem topStatement_runs (sound : Sound stage inner) {node : Node} {rest : List Node}
    (typed : Statement Grammar.topLevel context node)
    (ready : ReadySequence stage context outlook machine scope (node :: rest)) :
    Runs stage scope (topStatement (Tracing.setup stage.plain) inner scope node) machine
      (fun value next => value.Is node.ty ∧
        ReadySequence stage (context.after node) (outlook.after node) next scope rest)
      (Exit.Fits Grammar.topLevel) := by
  have ticks : Runs stage scope (tick (Tracing.setup stage.plain) node.span) machine
      (fun _ next => Leads stage machine.store.size machine next) (Exit.Fits Grammar.topLevel) :=
    (Runs.tick ready.ready.world node.span).mono (Nat.le_of_lt ready.ready.inside)
      (fun _ _ leads _ => leads) fun _ quiet => quiet.fits Grammar.topLevel
  refine ticks.bind ?_
  intro _ next _ leads
  have now := ready.later leads
  refine (sound.statement Grammar.topLevel typed now.head now.top
    (now.unkept node List.mem_cons_self)).mono (Nat.le_refl _) ?_ fun _ fits => fits
  rintro value behind further ⟨valueIs, advances⟩
  exact ⟨valueIs, now.tail further advances⟩

theorem topStatements_runs (sound : Sound stage inner) {list : List Node} {last : Value} {ty : Ty}
    (typed : Sequence (Statement Grammar.topLevel) context list)
    (ready : ReadySequence stage context outlook machine scope list) (lastIs : last.Is ty)
    {result : Except Fault Value} {after : Machine (Traced Host)}
    (run : topStatements (Tracing.setup stage.plain) inner scope last list machine =
      some (result, after)) :
    World stage after ∧ EndsWell ((list.getLast?.map (·.ty)).getD ty) result := by
  induction list generalizing machine context outlook last ty with
  | nil =>
    cases run
    exact ⟨ready.ready.world, lastIs⟩
  | cons node rest ih =>
    have first := topStatement_runs sound typed.head ready
    rcases topStatements_ended run with ⟨exit, rfl, failed⟩ | ⟨value, between, ended, further⟩
    · obtain ⟨leads, ends⟩ := first _ _ failed
      exact ⟨leads.world, topFault_tolerated ends node.span⟩
    · obtain ⟨-, valueIs, now⟩ := first _ _ ended
      have lastTy : ((node :: rest).getLast?.map (·.ty)).getD ty =
          (rest.getLast?.map (·.ty)).getD node.ty := by
        rw [List.getLast?_cons]
        cases rest.getLast? <;> rfl
      rw [lastTy]
      exact ih typed.tail now valueIs further

end

/-- A script without capture that fits the natives keeps the world and ends well. -/
theorem traced_sound (stage : Stage Host) (fuel : Nat) {root : Node} {host : Host}
    (typed : Program stage.plain.natives.context root) (captureFree : CaptureFree [] root)
    (links : root.links ⊆ stage.links) (holds : stage.holds host)
    {result : Except Fault Value} {after : Machine (Traced Host)}
    (run : Tracing.runFresh stage.plain fuel root host = some (result, after)) :
    World stage after ∧ EndsWell root.resultTy result :=
  topStatements_runs (evaluate_sound stage fuel) typed.statements
    (.fresh typed captureFree links holds) Value.void_is run

end RobotScript
