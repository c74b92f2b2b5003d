import RobotScript.Proofs.Scoping.Calm
import RobotScript.Proofs.Typing.Places

/-! # Nodes in their context

What is known of a node that was read in a context, when it is to be evaluated: the
names it uses are declared there, and its parts were read in the same context and
declare nothing. Only blocks and loops lead into further scopes. -/
set_option autoImplicit false

namespace RobotScript

open Typing

/-! ## Names and scopes of parts -/

theorem subset_gathered {α β : Type} {one : α → List β} {all : List α → List β}
    (cons : ∀ first rest, all (first :: rest) = one first ++ all rest) {list : List α} {item : α}
    (member : item ∈ list) : one item ⊆ all list := by
  induction list with
  | nil => cases member
  | cons first rest ih =>
    rw [cons]
    rcases List.mem_cons.mp member with rfl | behind
    · exact List.subset_append_left ..
    · exact List.Subset.trans (ih behind) (List.subset_append_right ..)

theorem free_mem {nodes : List Node} {node : Node} (member : node ∈ nodes) :
    nodeFree node ⊆ nodesFree nodes := subset_gathered (fun _ _ => rfl) member

theorem extents_mem {nodes : List Node} {node : Node} (member : node ∈ nodes) :
    nodeExtents [] node ⊆ nodesExtents nodes := subset_gathered (fun _ _ => rfl) member

theorem free_branches {branches : List (Branch Form)} {branch : Branch Form}
    (member : branch ∈ branches) : branchFree branch ⊆ branchesFree branches :=
  subset_gathered (fun _ _ => rfl) member

theorem extents_branches {branches : List (Branch Form)} {branch : Branch Form}
    (member : branch ∈ branches) : branchExtents branch ⊆ branchesExtents branches :=
  subset_gathered (fun _ _ => rfl) member

/-- A part uses no name that the node does not use, and has no scope that the node does
not have. -/
structure PartOf (part node : Node) : Prop where
  free : nodeFree part ⊆ nodeFree node
  extents : nodeExtents [] part ⊆ nodeExtents [] node

theorem partOf_branch {branch : Branch Form} {part : Node} (member : part ∈ branch.parts) :
    nodeFree part ⊆ branchFree branch ∧ nodeExtents [] part ⊆ branchExtents branch := by
  cases branch with
  | test guard body span =>
    rcases List.mem_cons.mp member with rfl | member
    · exact ⟨List.subset_append_left .., List.subset_append_left ..⟩
    · obtain rfl := List.mem_singleton.mp member
      exact ⟨List.subset_append_right .., List.subset_append_right ..⟩
  | attempt body span =>
    obtain rfl := List.mem_singleton.mp member
    exact ⟨List.Subset.refl _, List.Subset.refl _⟩

theorem partOf_option {value : Option Node} {part : Node} (member : part ∈ value.toList) :
    nodeFree part ⊆ optionFree value ∧ nodeExtents [] part ⊆ optionExtents value := by
  obtain rfl := Option.mem_toList.mp member
  exact ⟨List.Subset.refl _, List.Subset.refl _⟩

theorem partOf_of_mem {node part : Node} (member : part ∈ node.parts) : PartOf part node := by
  obtain ⟨form, ty, span⟩ := node
  have first {free more : List Name} {extents further : List Extent}
      (same : nodeFree part ⊆ free ∧ nodeExtents [] part ⊆ extents) :
      nodeFree part ⊆ free ++ more ∧ nodeExtents [] part ⊆ extents ++ further :=
    ⟨List.Subset.trans same.1 (List.subset_append_left ..),
      List.Subset.trans same.2 (List.subset_append_left ..)⟩
  have second {free more : List Name} {extents further : List Extent}
      (same : nodeFree part ⊆ more ∧ nodeExtents [] part ⊆ further) :
      nodeFree part ⊆ free ++ more ∧ nodeExtents [] part ⊆ extents ++ further :=
    ⟨List.Subset.trans same.1 (List.subset_append_right ..),
      List.Subset.trans same.2 (List.subset_append_right ..)⟩
  have own (node : Node) (same : part = node) :
      nodeFree part ⊆ nodeFree node ∧ nodeExtents [] part ⊆ nodeExtents [] node :=
    same ▸ ⟨List.Subset.refl _, List.Subset.refl _⟩
  cases form with
  | literal | «variable» | block | breaking | continuing | define | loop => cases member
  | unary operator operand =>
    exact ⟨(own _ (List.mem_singleton.mp member)).1, (own _ (List.mem_singleton.mp member)).2⟩
  | binary left operator right | repeating left right | whileTrue left right =>
    have both : nodeFree part ⊆ nodeFree left ++ nodeFree right ∧
        nodeExtents [] part ⊆ nodeExtents [] left ++ nodeExtents [] right := by
      rcases List.mem_cons.mp member with same | member
      · exact first (own left same)
      · exact second (own right (List.mem_singleton.mp member))
    exact ⟨both.1, both.2⟩
  | returning value | declare name declared value =>
    exact ⟨(partOf_option member).1, (partOf_option member).2⟩
  | assign name operator value =>
    exact ⟨List.Subset.trans (partOf_option member).1 (List.subset_cons_self _ _),
      (partOf_option member).2⟩
  | call name arguments =>
    exact ⟨List.Subset.trans (free_mem member) (List.subset_cons_self _ _), extents_mem member⟩
  | index name position =>
    have same := own position (List.mem_singleton.mp member)
    exact ⟨List.Subset.trans same.1 (List.subset_cons_self _ _), same.2⟩
  | list elements => exact ⟨free_mem member, extents_mem member⟩
  | chain branches otherwise =>
    have both : nodeFree part ⊆ branchesFree branches ++ optionFree otherwise ∧
        nodeExtents [] part ⊆ branchesExtents branches ++ optionExtents otherwise := by
      rcases List.mem_append.mp member with member | member
      · obtain ⟨branch, isBranch, isPart⟩ := List.mem_flatMap.mp member
        have here := partOf_branch isPart
        exact first ⟨List.Subset.trans here.1 (free_branches isBranch),
          List.Subset.trans here.2 (extents_branches isBranch)⟩
      · exact second (partOf_option member)
    exact ⟨both.1, both.2⟩

/-! ## Nodes in their context -/

namespace Binding

/-- A statement of a context, or a block that opens a scope in it. -/
inductive Situated (context : Context) : Node → Prop
  | statement {place : Grammar.Place} {node : Node} (typed : Statement place context node) :
      Situated context node
  | block {place : Grammar.Place} {node : Node} (isBlock : IsBlock node)
      (typed : Sequence (Statement place) context.push node.statements) : Situated context node

variable {context : Context} {node part : Node} {ty : Ty} {span : Span}

theorem Situated.expression (typed : Expression context node) : Situated context node :=
  .statement (.expression typed : Statement ⟨false, none⟩ context node)

theorem declares_block (isBlock : IsBlock node) : node.declares = none := by
  obtain ⟨form, ty, span⟩ := node
  obtain ⟨statements, rfl, -⟩ := isBlock
  rfl

/-- A part that does not stand in a scope of its own. -/
def Settled (context : Context) (part : Node) : Prop :=
  Situated context part ∧ part.declares = none

theorem Settled.expression (typed : Expression context node) : Settled context node :=
  ⟨.expression typed, typed.declares⟩

theorem Settled.block {place : Grammar.Place} (isBlock : IsBlock node)
    (typed : Sequence (Statement place) context.push node.statements) : Settled context node :=
  ⟨.block isBlock typed, declares_block isBlock⟩

theorem expression_parts (typed : Expression context node) (member : part ∈ node.parts) :
    Expression context part := by
  refine typed.components ?_
  cases typed <;> exact member

theorem Situated.parts (situated : Situated context node) (member : part ∈ node.parts) :
    Settled context part := by
  cases situated with
  | block isBlock typed =>
    obtain ⟨form, ty, span⟩ := node
    obtain ⟨statements, rfl, -⟩ := isBlock
    cases member
  | statement typed =>
    cases typed with
    | expression typed => exact .expression (expression_parts typed member)
    | declaration typed =>
      cases typed with
      | declare _ _ typed _ => exact .expression (typed part (Option.mem_toList.mp member))
    | define | returnNothing | breaking | continuing | loop => cases member
    | returnValue typed _ => exact List.mem_singleton.mp member ▸ .expression typed
    | repeating typed _ isBlock rounds | whileTrue typed _ isBlock rounds =>
      rcases List.mem_cons.mp member with rfl | member
      · exact .expression typed
      · exact List.mem_singleton.mp member ▸ .block isBlock rounds
    | chain _ guards _ areBlocks bodies lastIsBlock last =>
      refine Branch.forall_parts ?_ ?_ ?_ part member
      · exact fun branch isBranch guard isGuard =>
          .expression (guards branch isBranch guard isGuard)
      · exact fun branch isBranch => .block (areBlocks branch isBranch) (bodies branch isBranch)
      · exact fun node isLast => .block (lastIsBlock node isLast) (last node isLast)

theorem Situated.isStatement (situated : Situated context node)
    (noBlock : ∀ list, node.form ≠ .block list) : ∃ place, Statement place context node := by
  cases situated with
  | block isBlock _ =>
    obtain ⟨statements, same, -⟩ := isBlock
    exact absurd same (noBlock statements)
  | statement typed => exact ⟨_, typed⟩

theorem Situated.variable {name : String} (situated : Situated context ⟨.variable name, ty, span⟩) :
    ∃ ty, context.variableType? name = some ty := by
  obtain ⟨place, typed⟩ := situated.isStatement nofun
  cases typed with
  | expression typed =>
    cases typed with
    | name found => exact ⟨_, found⟩
  | declaration typed => cases typed

theorem Situated.assign {name : String} {operator : AssignOp} {value : Option Node}
    (situated : Situated context ⟨.assign name operator value, ty, span⟩) :
    ∃ ty, context.variableType? name = some ty := by
  obtain ⟨place, typed⟩ := situated.isStatement nofun
  cases typed with
  | expression typed =>
    cases typed with
    | set found | combine found | count found => exact ⟨_, found⟩
  | declaration typed => cases typed

theorem Situated.index {name : String} {position : Node}
    (situated : Situated context ⟨.index name position, ty, span⟩) :
    ∃ ty, context.variableType? name = some ty := by
  obtain ⟨place, typed⟩ := situated.isStatement nofun
  cases typed with
  | expression typed =>
    cases typed with
    | index found => exact ⟨_, found⟩
  | declaration typed => cases typed

theorem Situated.call {name : String} {arguments : List Node}
    (situated : Situated context ⟨.call name arguments, ty, span⟩) :
    ∃ signature, context.signature? name = some signature ∧
      Takes signature.parameters arguments := by
  obtain ⟨place, typed⟩ := situated.isStatement nofun
  cases typed with
  | expression typed =>
    cases typed with
    | call found _ taken => exact ⟨_, found, taken⟩
  | declaration typed => cases typed

theorem Situated.sequence {list : List Node} (situated : Situated context ⟨.block list, ty, span⟩) :
    ∃ place, Sequence (Statement place) context.push list := by
  cases situated with
  | block isBlock typed => exact ⟨_, typed⟩
  | statement typed =>
    cases typed with
    | expression typed => cases typed
    | declaration typed => cases typed

/-- The start of a loop is a statement of the scope that the loop opens; the rest of it
sees what the start declares. -/
theorem Situated.loop {initializer condition step body : Node}
    (situated : Situated context ⟨.loop initializer condition step body, ty, span⟩) :
    Statement ⟨false, none⟩ context.push initializer ∧
      ∀ part ∈ [condition, step, body], Settled (context.push.after initializer) part := by
  obtain ⟨place, typed⟩ := situated.isStatement nofun
  cases typed with
  | expression typed => cases typed
  | declaration typed => cases typed
  | loop first typed _ stepTyped isBlock rounds =>
    refine ⟨first.elim .expression .declaration, fun part member => ?_⟩
    rcases List.mem_cons.mp member with rfl | member
    · exact .expression typed
    · rcases List.mem_cons.mp member with rfl | member
      · exact .expression stepTyped
      · exact List.mem_singleton.mp member ▸ .block isBlock rounds

end Binding

end RobotScript
