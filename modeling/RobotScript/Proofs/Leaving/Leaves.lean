import RobotScript.Machine
import RobotScript.Proofs.Typing.Places

/-! # Where jumps lead out of a tree

`Leaves jump source node` says that the jump which the statement `source` makes may end
the evaluation of `node` around it. A loop keeps `break` and `continue` of its body to
itself, and no jump leaves the body of a function. In a well-typed tree nothing leaves
an expression, and `break` and `continue` leave no body of a function and no script. -/
set_option autoImplicit false

namespace RobotScript

open Typing

def Typed.Jumps (statement : Node) (jump : Jump) : Prop :=
  match statement.form, jump with
  | .returning _, .toCaller _ | .breaking, .behindLoop | .continuing, .nextRound => True
  | _, _ => False

theorem Typed.Jumps.returning {statement : Node} {value : Value}
    (jumps : statement.Jumps (.toCaller value)) : ∃ value, statement.form = .returning value := by
  obtain ⟨form, ty, span⟩ := statement
  cases form with
  | returning result => exact ⟨result, rfl⟩
  | _ => exact jumps.elim

inductive Leaves (jump : Jump) (source : Node) : Node → Prop
  | self (jumps : source.Jumps jump) : Leaves jump source source
  | component {node part : Node} (leaves : Leaves jump source part)
      (member : part ∈ node.components) : Leaves jump source node
  | round {node body : Node} (leaves : Leaves jump source body)
      (isRound : node.round? = some body) (returns : ∃ value, jump = .toCaller value) :
      Leaves jump source node

namespace Leaves

variable {jump : Jump} {source node : Node}

theorem jumps (leaves : Leaves jump source node) : source.Jumps jump := by
  induction leaves with
  | self jumps => exact jumps
  | component _ _ ih => exact ih
  | round _ _ _ ih => exact ih

theorem outside {root : Node} (leaves : Leaves jump source node) (around : Outside root node) :
    Outside root source := by
  induction leaves with
  | self => exact around
  | component _ member ih => exact ih (around.component member)
  | round _ isRound _ ih => exact ih (around.round isRound)

theorem not_operand (leaves : Leaves jump source node) : ¬ IsOperand node := by
  induction leaves with
  | self jumps =>
    rintro (typed | typed)
    · cases typed <;> exact jumps
    · cases typed
      exact jumps
  | component _ member ih => exact fun operand => ih (operand.components member)
  | round _ isRound _ _ => exact fun operand => nomatch operand.round?.symm.trans isRound

/-- `break` and `continue` leave only what stands in a loop. -/
theorem inLoop {place : Grammar.Place} (leaves : Leaves jump source node)
    (stands : Stands place node) : (∃ value, jump = .toCaller value) ∨ place.inLoop = true := by
  induction leaves generalizing place with
  | self jumps =>
    cases stands with
    | block isBlock typed =>
      obtain ⟨form, ty, span⟩ := source
      obtain ⟨statements, rfl, -⟩ := isBlock
      exact jumps.elim
    | statement typed =>
      have nothing (operand : IsOperand source) : False := (Leaves.self jumps).not_operand operand
      cases typed with
      | expression typed => exact (nothing (.expression typed)).elim
      | declaration typed => exact (nothing (.declaration typed)).elim
      | returnNothing | returnValue =>
        cases jump with
        | toCaller value => exact .inl ⟨value, rfl⟩
        | behindLoop | nextRound => exact jumps.elim
      | breaking inLoop | continuing inLoop => exact .inr inLoop
      | define | repeating | whileTrue | loop | chain => exact jumps.elim
  | component _ member ih => exact ih (stands.components member)
  | round _ isRound returns _ => exact .inl returns

end Leaves

end RobotScript
