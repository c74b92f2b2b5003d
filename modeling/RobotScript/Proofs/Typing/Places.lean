import RobotScript.Proofs.Tree.Within
import RobotScript.Proofs.Typing.Judgement

/-! # Places in well-typed trees

What a well-typed tree has at a place is well-typed again, with the jumps that are
allowed there (`Stands.of_within`); where a value is wanted stands an expression, or the
declaration at the start of a loop (`Stands.operands`). -/
set_option autoImplicit false

namespace RobotScript

/-- The nodes right inside a node that stand where a value is wanted: operands,
arguments, indices, elements, initializers, conditions, counts, steps, the values of
assignments and returns, and the branches of a chain that has a value. -/
def Typed.operands (node : Node) : List Node :=
  match node.form with
  | .block _ => []
  | .chain branches _ => if node.ty = .void then branches.filterMap Branch.guard? else node.components
  | _ => node.components

theorem Branch.forall_parts {branches : List (Branch Form)} {otherwise : Option Node}
    {good : Node → Prop}
    (guards : ∀ branch ∈ branches, ∀ guard, branch.guard? = some guard → good guard)
    (bodies : ∀ branch ∈ branches, good branch.body)
    (last : ∀ node, otherwise = some node → good node) :
    ∀ part ∈ branches.flatMap Branch.parts ++ otherwise.toList, good part := by
  intro part member
  rcases List.mem_append.mp member with member | member
  · obtain ⟨branch, isBranch, isPart⟩ := List.mem_flatMap.mp member
    have body := bodies branch isBranch
    cases branch with
    | test guard inside place =>
      rcases List.mem_cons.mp isPart with rfl | isPart
      · exact guards _ isBranch part rfl
      · exact List.mem_singleton.mp isPart ▸ body
    | attempt inside place => exact List.mem_singleton.mp isPart ▸ body
  · exact last part (Option.mem_toList.mp member)

namespace Typing

/-- What may stand at a place where these jumps are allowed: a statement, or the block
of a branch or of a loop. -/
inductive Stands (place : Grammar.Place) : Node → Prop
  | statement {context : Context} {node : Node} (typed : Statement place context node) :
      Stands place node
  | block {context : Context} {node : Node} (isBlock : IsBlock node)
      (typed : Sequence (Statement place) context node.statements) : Stands place node

/-- What may stand where a value is wanted. The start of a loop may be a declaration. -/
inductive IsOperand : Node → Prop
  | expression {context : Context} {node : Node} (typed : Expression context node) : IsOperand node
  | declaration {context : Context} {node : Node} (typed : Declaration context node) :
      IsOperand node

theorem IsOperand.stands {node : Node} (operand : IsOperand node) (place : Grammar.Place) :
    Stands place node := by
  cases operand with
  | expression typed => exact .statement (.expression typed)
  | declaration typed => exact .statement (.declaration typed)

theorem Sequence.mem {place : Grammar.Place} {context : Context} {list : List Node} {node : Node}
    (typed : Sequence (Statement place) context list) (member : node ∈ list) :
    Stands place node := by
  obtain ⟨before, after, split⟩ := List.append_of_mem member
  exact .statement (typed before node after split)

theorem Expression.components {context : Context} {node part : Node}
    (typed : Expression context node) (member : part ∈ node.components) :
    Expression context part := by
  cases typed with
  | literal | name | count => cases member
  | unary typed _ | index _ _ typed _ | set _ typed _ | combine _ _ typed _ _ =>
    exact List.mem_singleton.mp member ▸ typed
  | binary leftTyped rightTyped _ =>
    rcases List.mem_cons.mp member with rfl | member
    · exact leftTyped
    · exact List.mem_singleton.mp member ▸ rightTyped
  | call _ typed _ | list _ typed _ _ => exact typed part member
  | chain _ _ guards _ bodies _ last _ =>
    refine Branch.forall_parts guards bodies ?_ part member
    rintro node ⟨⟩
    exact last

theorem Expression.round? {context : Context} {node : Node} (typed : Expression context node) :
    node.round? = none := by
  cases typed <;> rfl

theorem Expression.function? {context : Context} {node : Node} (typed : Expression context node) :
    node.function? = none := by
  cases typed <;> rfl

theorem IsOperand.components {node part : Node} (operand : IsOperand node)
    (member : part ∈ node.components) : IsOperand part := by
  cases operand with
  | expression typed => exact .expression (typed.components member)
  | declaration typed =>
    cases typed with
    | declare _ _ typed _ => exact .expression (typed part (Option.mem_toList.mp member))

theorem IsOperand.round? {node : Node} (operand : IsOperand node) : node.round? = none := by
  cases operand with
  | expression typed => exact typed.round?
  | declaration typed => cases typed; rfl

theorem Stands.components {place : Grammar.Place} {node part : Node} (stands : Stands place node)
    (member : part ∈ node.components) : Stands place part := by
  cases stands with
  | block isBlock typed =>
    obtain ⟨form, ty, span⟩ := node
    obtain ⟨statements, rfl, -⟩ := isBlock
    exact typed.mem member
  | @statement context _ typed =>
    have operand {operand : Node} (typed : Expression context operand) : Stands place operand :=
      (IsOperand.expression typed).stands place
    cases typed with
    | expression typed => exact operand (typed.components member)
    | declaration typed => exact ((IsOperand.declaration typed).components member).stands place
    | define | returnNothing | breaking | continuing => cases member
    | returnValue typed _ => exact List.mem_singleton.mp member ▸ operand typed
    | repeating typed _ _ _ | whileTrue typed _ _ _ =>
      exact List.mem_singleton.mp member ▸ operand typed
    | loop first typed _ stepTyped _ _ =>
      rcases List.mem_cons.mp member with rfl | member
      · rcases first with typed | typed
        · exact (IsOperand.expression typed).stands place
        · exact (IsOperand.declaration typed).stands place
      · rcases List.mem_cons.mp member with rfl | member
        · exact (IsOperand.expression typed).stands place
        · exact List.mem_singleton.mp member ▸ (IsOperand.expression stepTyped).stands place
    | chain _ guards _ areBlocks bodies lastIsBlock last =>
      refine Branch.forall_parts ?_ ?_ ?_ part member
      · exact fun branch isBranch guard isGuard => operand (guards branch isBranch guard isGuard)
      · exact fun branch isBranch => .block (areBlocks branch isBranch) (bodies branch isBranch)
      · exact fun node isLast => .block (lastIsBlock node isLast) (last node isLast)

theorem Stands.round {place : Grammar.Place} {node body : Node} (stands : Stands place node)
    (isRound : node.round? = some body) : Stands { place with inLoop := true } body := by
  cases stands with
  | block isBlock typed =>
    obtain ⟨form, ty, span⟩ := node
    obtain ⟨statements, rfl, -⟩ := isBlock
    cases isRound
  | statement typed =>
    cases typed with
    | expression typed => cases typed.round?.symm.trans isRound
    | declaration typed => cases typed; cases isRound
    | repeating _ _ isBlock rounds | whileTrue _ _ isBlock rounds | loop _ _ _ _ isBlock rounds =>
      cases isRound
      exact .block isBlock rounds
    | _ => cases isRound

/-- In the body of a function no jump leaves a loop around the function. -/
theorem Stands.body {place : Grammar.Place} {node : Node} {function : Function}
    (stands : Stands place node) (defines : node.function? = some function) :
    Stands ⟨false, some function.returns⟩ function.body := by
  cases stands with
  | block isBlock typed =>
    obtain ⟨form, ty, span⟩ := node
    obtain ⟨statements, rfl, -⟩ := isBlock
    cases defines
  | statement typed =>
    cases typed with
    | expression typed => cases typed.function?.symm.trans defines
    | declaration typed => cases typed; cases defines
    | define _ _ _ _ _ isBlock body =>
      cases defines
      exact .block isBlock body
    | _ => cases defines

/-- Every node of a well-typed tree is well-typed at some place. -/
theorem Stands.of_within {place : Grammar.Place} {root node : Node} (stands : Stands place root)
    (within : Within root node) : ∃ inner, Stands inner node := by
  induction within with
  | self => exact ⟨place, stands⟩
  | component _ member ih =>
    obtain ⟨inner, here⟩ := ih
    exact ⟨inner, here.components member⟩
  | round _ isRound ih =>
    obtain ⟨inner, here⟩ := ih
    exact ⟨_, here.round isRound⟩
  | body _ defines ih =>
    obtain ⟨inner, here⟩ := ih
    exact ⟨_, here.body defines⟩

/-- What stands where a value is wanted has one, or declares a variable for a loop. -/
theorem Stands.operands {place : Grammar.Place} {node operand : Node} (stands : Stands place node)
    (member : operand ∈ node.operands) : IsOperand operand := by
  cases stands with
  | block isBlock typed =>
    obtain ⟨form, ty, span⟩ := node
    obtain ⟨statements, rfl, -⟩ := isBlock
    cases member
  | statement typed =>
    cases typed with
    | expression typed =>
      refine .expression (typed.components ?_)
      cases typed with
      | chain _ hasValue _ _ _ _ _ _ =>
        rw [Typed.operands] at member
        dsimp only at member
        rwa [if_neg hasValue] at member
      | _ => exact member
    | declaration typed =>
      cases typed with
      | declare _ _ typed _ => exact .expression (typed operand (Option.mem_toList.mp member))
    | define | returnNothing | breaking | continuing => cases member
    | returnValue typed _ | repeating typed _ _ _ | whileTrue typed _ _ _ =>
      exact List.mem_singleton.mp member ▸ .expression typed
    | loop first typed _ stepTyped _ _ =>
      rcases List.mem_cons.mp member with rfl | member
      · exact first.elim .expression .declaration
      · rcases List.mem_cons.mp member with rfl | member
        · exact .expression typed
        · exact List.mem_singleton.mp member ▸ .expression stepTyped
    | chain _ guards _ _ _ _ _ =>
      obtain ⟨branch, isBranch, isGuard⟩ := List.mem_filterMap.mp member
      exact .expression (guards branch isBranch operand isGuard)

theorem Program.stands {context : Context} {root : Node} (program : Program context root) :
    Stands ⟨false, none⟩ root := .block program.isBlock program.statements

end Typing

end RobotScript
