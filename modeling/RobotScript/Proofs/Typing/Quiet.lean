import RobotScript.Proofs.Scoping.Names
import RobotScript.Proofs.Typing.Places

/-! # Nodes that bind nothing where they stand

A declaration or a definition stands nowhere but among the statements of a block, a body
or a script, and at the start of a loop. All of these have a scope of their own, so that
no other node binds a name in the scope in which it is evaluated. -/
set_option autoImplicit false

namespace RobotScript

open Typing

/-- No node that is evaluated in the same scope binds a name. -/
inductive Quiet : Node → Prop
  | intro {node : Node} (declares : node.declares = none)
      (parts : ∀ part ∈ node.parts, Quiet part) : Quiet node

namespace Quiet

variable {context : Context} {node : Node}

theorem declares (quiet : Quiet node) : node.declares = none := by
  cases quiet with
  | intro declares _ => exact declares

theorem part {part : Node} (quiet : Quiet node) (member : part ∈ node.parts) : Quiet part := by
  cases quiet with
  | intro _ parts => exact parts part member

theorem whole (declares : node.declares = none) (none : node.parts = []) : Quiet node := by
  refine .intro declares fun part member => ?_
  rw [none] at member
  cases member

theorem block (isBlock : IsBlock node) : Quiet node := by
  obtain ⟨form, ty, span⟩ := node
  obtain ⟨statements, rfl, -⟩ := isBlock
  exact whole rfl rfl

theorem branches {branches : List (Branch Form)} {otherwise : Option Node} {ty : Ty} {span : Span}
    (guards : ∀ branch ∈ branches, ∀ guard, branch.guard? = some guard → Quiet guard)
    (bodies : ∀ branch ∈ branches, Quiet branch.body)
    (last : ∀ node, otherwise = some node → Quiet node) :
    Quiet ⟨.chain branches otherwise, ty, span⟩ :=
  .intro rfl (Branch.forall_parts guards bodies last)

theorem expression (typed : Expression context node) : Quiet node := by
  induction typed with
  | literal | name | count => exact whole rfl rfl
  | unary _ _ ih | index _ _ _ _ ih | set _ _ _ ih | combine _ _ _ _ _ ih =>
    refine .intro rfl fun part member => ?_
    exact List.mem_singleton.mp member ▸ ih
  | binary _ _ _ leftIh rightIh =>
    refine .intro rfl fun part member => ?_
    rcases List.mem_cons.mp member with rfl | member
    · exact leftIh
    · exact List.mem_singleton.mp member ▸ rightIh
  | call _ _ _ ih | list _ _ _ _ ih => exact .intro rfl ih
  | chain _ _ _ _ _ _ _ _ guardsIh bodiesIh lastIh =>
    exact branches guardsIh bodiesIh fun node isLast => Option.some.inj isLast ▸ lastIh

theorem statement {place : Grammar.Place} (typed : Statement place context node)
    (declares : node.declares = none) : Quiet node := by
  cases typed with
  | expression typed => exact .expression typed
  | declaration typed => cases typed; cases declares
  | define => cases declares
  | returnNothing | breaking | continuing | loop => exact whole rfl rfl
  | returnValue typed _ =>
    refine .intro rfl fun part member => ?_
    exact List.mem_singleton.mp member ▸ .expression typed
  | repeating typed _ isBlock _ | whileTrue typed _ isBlock _ =>
    refine .intro rfl fun part member => ?_
    rcases List.mem_cons.mp member with rfl | member
    · exact .expression typed
    · exact List.mem_singleton.mp member ▸ .block isBlock
  | chain _ guards _ areBlocks _ lastIsBlock _ =>
    refine .branches ?_ ?_ ?_
    · exact fun branch member guard isGuard => .expression (guards branch member guard isGuard)
    · exact fun branch member => .block (areBlocks branch member)
    · exact fun node isLast => .block (lastIsBlock node isLast)

/-- Of the nodes of a well-typed tree only declarations and definitions bind a name in the
scope in which they are evaluated. -/
theorem of_stands {place : Grammar.Place} (stands : Stands place node)
    (declares : node.declares = none) : Quiet node := by
  cases stands with
  | statement typed => exact .statement typed declares
  | block isBlock _ => exact .block isBlock

end Quiet

theorem Typing.Stands.initializer {place : Grammar.Place} {name : String} {declared ty : Ty}
    {initializer : Option Node} {span : Span}
    (stands : Stands place ⟨.declare name declared initializer, ty, span⟩) :
    ∀ node ∈ initializer.toList, Quiet node := by
  intro node member
  cases stands with
  | block isBlock _ =>
    obtain ⟨_, ⟨⟩, -⟩ := isBlock
  | statement typed =>
    cases typed with
    | expression typed => cases typed
    | declaration typed =>
      cases typed with
      | declare _ _ typed _ => exact .expression (typed node (Option.mem_toList.mp member))

end RobotScript
