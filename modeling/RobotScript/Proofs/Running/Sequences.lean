import RobotScript.Proofs.Reading.StatementSound
import RobotScript.Proofs.Running.Ready

/-! # Statements in sequence

The statements of one scope, one after the other. Each finds the declarations of
the ones before it, and no function defined before it loses a meaning, because the
statements are calm. -/
set_option autoImplicit false

namespace RobotScript

open Typing Evaluation

variable {Host : Type} {stage : Stage Host} {inner : Node → ScopeId → Run (Traced Host) Value}
variable {context : Context} {outlook : Outlook} {machine next : Machine (Traced Host)}
variable {scope : Nat}

theorem Outlook.after_of_ne (outlook : Outlook) {node : Node} {name : Name}
    (differs : node.declares ≠ some name) : outlook.after node name = outlook name := by
  obtain ⟨form, ty, span⟩ := node
  cases form with
  | declare declared ty initializer =>
    refine if_neg ?_
    rintro rfl
    exact differs rfl
  | define function =>
    refine if_neg ?_
    rintro rfl
    exact differs rfl
  | _ => rfl

theorem Stage.Sees.after (sees : stage.Sees context outlook) (node : Node) :
    stage.Sees (context.after node) (outlook.after node) :=
  ⟨(Context.after_natives context node).trans sees.natives, sees.fits.after node⟩

theorem Ready.behind {node : Node} {free : List Name} {links : List Use} {extents : List Extent}
    (ready : Ready stage context outlook machine scope (node.hides free) links extents)
    (leads : Leads stage scope machine next)
    (advances : Advances outlook scope node machine next) :
    Ready stage (context.after node) (outlook.after node) next scope free links extents where
  world := leads.world
  sees := ready.sees.after node
  inside := leads.size ▸ ready.inside
  agrees := by
    intro name member
    rw [advances.reaches name]
    split
    · rfl
    · rename_i differs
      rw [outlook.after_of_ne differs]
      exact ready.agrees name (List.mem_filter.mpr ⟨member, decide_eq_true differs⟩)
  links := ready.links
  captureFree := ready.captureFree

structure ReadySequence (stage : Stage Host) (context : Context) (outlook : Outlook)
    (machine : Machine (Traced Host)) (scope : Nat) (list : List Node) : Prop where
  ready : Ready stage context outlook machine scope (sequenceFree list)
    (sequenceLinks outlook list) (nodesExtents list)
  top : scope + 1 = machine.store.size
  calm : Calm list
  unkept : ∀ node ∈ list, ∀ name, node.declares = some name → Unkept machine scope name

namespace ReadySequence

variable {node : Node} {rest : List Node}

theorem head (ready : ReadySequence stage context outlook machine scope (node :: rest)) :
    ReadyNode stage context outlook machine scope node := ready.ready.first

theorem later {list : List Node} (ready : ReadySequence stage context outlook machine scope list)
    (leads : Leads stage machine.store.size machine next) :
    ReadySequence stage context outlook next scope list where
  ready := ready.ready.later leads ready.ready.inside
  top := leads.size ▸ ready.top
  calm := ready.calm
  unkept node member name declares label closure found := by
    rw [leads.below.functions scope ready.ready.inside] at found
    exact ready.unkept node member name declares label closure found

theorem tail (ready : ReadySequence stage context outlook machine scope (node :: rest))
    (leads : Leads stage scope machine next)
    (advances : Advances outlook scope node machine next) :
    ReadySequence stage (context.after node) (outlook.after node) next scope rest where
  ready := Ready.behind ready.ready.second leads advances
  top := leads.size ▸ ready.top
  calm := (List.pairwise_cons.mp ready.calm).2
  unkept := by
    intro later member name declares label closure found free
    rcases advances.functions label closure found with before | defined
    · exact ready.unkept later (List.mem_cons_of_mem node member) name declares label closure
        before free
    · have kept : name ∈ node.keeps := by
        rw [Typed.keeps, defined]
        exact free
      exact (List.pairwise_cons.mp ready.calm).1 later member name kept declares

end ReadySequence

theorem statements_runs (sound : Sound stage inner) (place : Grammar.Place) {list : List Node}
    (typed : Sequence (Statement place) context list)
    (ready : ReadySequence stage context outlook machine scope list) :
    Runs stage scope (statements (Tracing.setup stage.plain) inner scope list) machine
      (fun value _ => value.Is .void) (Exit.Fits place) := by
  induction list generalizing machine context outlook with
  | nil => exact .pure ready.ready.world Value.void_is
  | cons node rest ih =>
    have ticks : Runs stage scope (tick (Tracing.setup stage.plain) node.span) machine
        (fun _ next => Leads stage machine.store.size machine next) (Exit.Fits place) :=
      (Runs.tick ready.ready.world node.span).mono (Nat.le_of_lt ready.ready.inside)
        (fun _ _ leads _ => leads) fun _ quiet => quiet.fits place
    refine ticks.bind ?_
    intro _ next _ leads
    have now := ready.later leads
    refine (sound.statement place typed.head now.head now.top
      (now.unkept node List.mem_cons_self)).bind ?_
    rintro value behind further ⟨-, advances⟩
    exact ih typed.tail (now.tail further advances)

end RobotScript
