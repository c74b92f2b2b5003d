import RobotScript.Proofs.Tree.WithoutSpans
import RobotScript.Proofs.Typing.Judgement

/-! # Typing looks at no span

What is well typed stays well typed wherever it stands: the judgement goes from a
tree to every tree that is the same up to spans. -/
set_option autoImplicit false

namespace RobotScript

theorem Context.after_same (context : Context) {first second : Node} (same : first.Same second) :
    context.after first = context.after second := by
  have bare (node : Node) : context.after (nodeWithoutSpans node) = context.after node := by
    obtain ⟨form, ty, span⟩ := node
    cases form with
    | define function =>
      obtain ⟨name, returns, parameters, body⟩ := function
      rfl
    | _ => rfl
  rw [← bare first, ← bare second]
  exact congrArg context.after same

namespace Typing

variable {context : Context} {first second : List Node}

/-! ## What is said of all parts -/

theorem each_same {fits : Node → Prop} (same : Sames first second)
    (each : ∀ node ∈ second, ∀ other : Node, other.Same node → fits other) :
    ∀ node ∈ first, fits node := by
  intro node member
  obtain ⟨twin, twinMember, alike⟩ := same.twin member
  exact each twin twinMember node alike

theorem eachTy_same (good : Ty → Prop) (same : Sames first second)
    (each : ∀ node ∈ second, good node.ty) : ∀ node ∈ first, good node.ty :=
  each_same same fun node member _ alike => alike.ty ▸ each node member

theorem someTy_same (good : Ty → Prop) (same : Sames first second)
    (some : ∃ node ∈ second, good node.ty) : ∃ node ∈ first, good node.ty := by
  obtain ⟨node, member, holds⟩ := some
  obtain ⟨twin, twinMember, alike⟩ := same.symm.twin member
  exact ⟨twin, twinMember, alike.ty ▸ holds⟩

theorem some_same {value : Option Node} {node : Node}
    (same : optionWithoutSpans value = optionWithoutSpans (some node)) :
    ∃ twin, value = some twin ∧ twin.Same node := by
  cases value with
  | none => cases same
  | some twin => exact ⟨twin, rfl, Option.some.inj same⟩

theorem optional_same {fits : Node → Prop} {value other : Option Node}
    (same : optionWithoutSpans other = optionWithoutSpans value)
    (each : ∀ node, value = some node → ∀ other : Node, other.Same node → fits other) :
    ∀ node, other = some node → fits node := by
  intro node isNode
  obtain ⟨twin, isTwin, alike⟩ := option_twin same isNode
  exact each twin isTwin node alike

section

variable {branches others : List (Branch Form)}

theorem branch_twin (same : branchesWithoutSpans others = branchesWithoutSpans branches)
    {branch : Branch Form} (member : branch ∈ others) :
    ∃ twin ∈ branches, branch.body.Same twin.body ∧ ∀ guard, branch.guard? = some guard →
      ∃ twinGuard, twin.guard? = some twinGuard ∧ guard.Same twinGuard := by
  obtain ⟨twin, twinMember, alike⟩ := branches_twin same member
  refine ⟨twin, twinMember, ?_⟩
  cases branch with
  | test guard body span =>
    cases twin with
    | test twinGuard twinBody place =>
      obtain ⟨guards, bodies, -⟩ := Branch.test.inj alike
      refine ⟨bodies, ?_⟩
      rintro _ ⟨⟩
      exact ⟨twinGuard, rfl, guards⟩
    | attempt twinBody place => cases alike
  | attempt body span =>
    cases twin with
    | test twinGuard twinBody place => cases alike
    | attempt twinBody place => exact ⟨(Branch.attempt.inj alike).1, nofun⟩

theorem branches_ne_nil (nonempty : branches ≠ [])
    (same : branchesWithoutSpans others = branchesWithoutSpans branches) : others ≠ [] := by
  rintro rfl
  cases branches with
  | nil => exact nonempty rfl
  | cons branch rest => cases same

theorem guards_same {fits : Node → Prop}
    (same : branchesWithoutSpans others = branchesWithoutSpans branches)
    (each : ∀ branch ∈ branches, ∀ guard, branch.guard? = some guard →
      ∀ other : Node, other.Same guard → fits other) :
    ∀ branch ∈ others, ∀ guard, branch.guard? = some guard → fits guard := by
  intro branch member guard isGuard
  obtain ⟨twin, twinMember, -, guarded⟩ := branch_twin same member
  obtain ⟨twinGuard, isTwin, alike⟩ := guarded guard isGuard
  exact each twin twinMember twinGuard isTwin guard alike

theorem bodies_same (fits : Node → Prop)
    (same : branchesWithoutSpans others = branchesWithoutSpans branches)
    (each : ∀ branch ∈ branches, ∀ other : Node, other.Same branch.body → fits other) :
    ∀ branch ∈ others, fits branch.body := by
  intro branch member
  obtain ⟨twin, twinMember, alike, -⟩ := branch_twin same member
  exact each twin twinMember branch.body alike

end

/-! ## The judgement -/

theorem Takes.same {parameters : Parameters} (taken : Takes parameters second)
    (same : Sames first second) : Takes parameters first := by
  cases parameters with
  | anyNumber => exact eachTy_same (· ≠ .void) same taken
  | exactly types =>
    change List.Forall₂ (fun ty (argument : Node) => ty.accepts argument.ty = true) types second
      at taken
    show List.Forall₂ (fun ty (argument : Node) => ty.accepts argument.ty = true) types first
    induction same generalizing types with
    | nil =>
      cases taken
      exact .nil
    | cons head tail ih =>
      cases taken with
      | cons accepted others =>
        rw [← head.ty] at accepted
        exact .cons accepted (ih _ others)

theorem Common.same {ty : Ty} (common : Common second ty) (same : Sames first second) :
    Common first ty := by
  rcases common with equal | ⟨isDouble, numeric, someInt, someDouble⟩
  · exact .inl (eachTy_same (· = ty) same equal)
  · exact .inr ⟨isDouble, eachTy_same (fun ty => ty = .int ∨ ty = .double) same numeric,
      someTy_same (· = .int) same someInt, someTy_same (· = .double) same someDouble⟩

theorem IsBlock.same {other node : Node} (isBlock : IsBlock node) (same : other.Same node) :
    IsBlock other := by
  obtain ⟨form, ty, span⟩ := node
  obtain ⟨list, rfl, rfl⟩ := isBlock
  obtain ⟨form, ty, place⟩ := other
  obtain ⟨forms, rfl, -⟩ := Typed.mk.inj same
  cases form with
  | block statements => exact ⟨statements, rfl, rfl⟩
  | _ => cases forms

theorem Sequence.same {fits : Context → Node → Prop}
    (each : Sequence (fun context node => ∀ other : Node, other.Same node → fits context other)
      context second)
    (same : Sames first second) : Sequence fits context first := by
  induction same generalizing context with
  | nil => exact .nil
  | cons head tail ih =>
    refine .cons (each.head _ head) ?_
    rw [context.after_same head]
    exact ih each.tail

theorem nodes_ne_nil (nonempty : second ≠ []) (same : Sames first second) : first ≠ [] := by
  rintro rfl
  cases same
  exact nonempty rfl

theorem Expression.same {node : Node} (typed : Expression context node) :
    ∀ other : Node, other.Same node → Expression context other := by
  induction typed with
  | literal plain =>
    rintro ⟨form, ty, place⟩ same
    obtain ⟨forms, rfl, -⟩ := Typed.mk.inj same
    cases form <;> cases forms
    exact .literal plain
  | name found =>
    rintro ⟨form, ty, place⟩ same
    obtain ⟨forms, rfl, -⟩ := Typed.mk.inj same
    cases form <;> cases forms
    exact .name found
  | unary typed applies ih =>
    rintro ⟨form, ty, place⟩ same
    obtain ⟨forms, rfl, -⟩ := Typed.mk.inj same
    cases form with
    | unary operator operand =>
      obtain ⟨rfl, alike⟩ := Form.unary.inj forms
      rw [← Typed.Same.ty alike] at applies
      exact .unary (ih operand alike) applies
    | _ => cases forms
  | binary leftTyped rightTyped applies leftIh rightIh =>
    rintro ⟨form, ty, place⟩ same
    obtain ⟨forms, rfl, -⟩ := Typed.mk.inj same
    cases form with
    | binary left operator right =>
      obtain ⟨lefts, rfl, rights⟩ := Form.binary.inj forms
      rw [← Typed.Same.ty lefts, ← Typed.Same.ty rights] at applies
      exact .binary (leftIh left lefts) (rightIh right rights) applies
    | _ => cases forms
  | call found typed taken ih =>
    rintro ⟨form, ty, place⟩ same
    obtain ⟨forms, rfl, -⟩ := Typed.mk.inj same
    cases form with
    | call name arguments =>
      obtain ⟨rfl, alike⟩ := Form.call.inj forms
      have alike := Sames.of_withoutSpans alike
      exact .call found (each_same alike ih) (taken.same alike)
    | _ => cases forms
  | index found isList typed isInt ih =>
    rintro ⟨form, ty, place⟩ same
    obtain ⟨forms, rfl, -⟩ := Typed.mk.inj same
    cases form with
    | index name position =>
      obtain ⟨rfl, alike⟩ := Form.index.inj forms
      rw [← Typed.Same.ty alike] at isInt
      exact .index found isList (ih position alike) isInt
    | _ => cases forms
  | set found typed accepted ih =>
    rintro ⟨form, ty, place⟩ same
    obtain ⟨forms, rfl, -⟩ := Typed.mk.inj same
    cases form with
    | assign name operator value =>
      obtain ⟨rfl, rfl, values⟩ := Form.assign.inj forms
      obtain ⟨value, rfl, alike⟩ := some_same values
      rw [← alike.ty] at accepted
      exact .set found (ih value alike) accepted
    | _ => cases forms
  | combine found combining typed applies accepted ih =>
    rintro ⟨form, ty, place⟩ same
    obtain ⟨forms, rfl, -⟩ := Typed.mk.inj same
    cases form with
    | assign name operator value =>
      obtain ⟨rfl, rfl, values⟩ := Form.assign.inj forms
      obtain ⟨value, rfl, alike⟩ := some_same values
      rw [← alike.ty] at applies
      exact .combine found combining (ih value alike) applies accepted
    | _ => cases forms
  | count found counting numeric =>
    rintro ⟨form, ty, place⟩ same
    obtain ⟨forms, rfl, -⟩ := Typed.mk.inj same
    cases form with
    | assign name operator value =>
      obtain ⟨rfl, rfl, alike⟩ := Form.assign.inj forms
      cases value with
      | none => exact .count found counting numeric
      | some value => cases alike
    | _ => cases forms
  | list nonempty typed plain common ih =>
    rintro ⟨form, ty, place⟩ same
    obtain ⟨forms, rfl, -⟩ := Typed.mk.inj same
    cases form with
    | list elements =>
      have alike := Sames.of_withoutSpans (Form.list.inj forms)
      exact .list (nodes_ne_nil nonempty alike) (each_same alike ih) (eachTy_same Plain alike plain)
        (common.same alike)
    | _ => cases forms
  | chain nonempty hasValue guards decide bodies same last lastSame guardsIh bodiesIh lastIh =>
    rintro ⟨form, ty, place⟩ alike
    obtain ⟨forms, rfl, -⟩ := Typed.mk.inj alike
    cases form with
    | chain branches otherwise =>
      obtain ⟨sameBranches, sameLast⟩ := Form.chain.inj forms
      obtain ⟨otherwise, rfl, others⟩ := some_same sameLast
      rw [← others.ty] at lastSame
      refine .chain (branches_ne_nil nonempty sameBranches) hasValue
        (guards_same sameBranches guardsIh) (guards_same sameBranches ?_)
        (bodies_same _ sameBranches bodiesIh) (bodies_same (·.ty = ty) sameBranches ?_)
        (lastIh otherwise others) lastSame
      · exact fun branch member guard isGuard other alike =>
          alike.ty.trans (decide branch member guard isGuard)
      · exact fun branch member other alike => alike.ty.trans (same branch member)
    | _ => cases forms

theorem Declaration.same {other node : Node} (typed : Declaration context node)
    (same : other.Same node) : Declaration context other := by
  obtain ⟨form, ty, place⟩ := other
  cases typed with
  | declare declarable fresh typed accepted =>
    obtain ⟨forms, rfl, -⟩ := Typed.mk.inj same
    cases form with
    | declare name declared initializer =>
      obtain ⟨rfl, rfl, initializers⟩ := Form.declare.inj forms
      refine .declare declarable fresh (optional_same initializers ?_) (optional_same initializers ?_)
      · exact fun value isValue => (typed value isValue).same
      · exact fun value isValue other alike => alike.ty ▸ accepted value isValue
    | _ => cases forms

theorem Statement.same {place : Grammar.Place} {node : Node}
    (typed : Statement place context node) :
    ∀ other : Node, other.Same node → Statement place context other := by
  induction typed with
  | expression typed =>
    intro other same
    exact .expression (typed.same other same)
  | declaration typed =>
    intro other same
    exact .declaration (typed.same same)
  | @define _ _ function _ returnable declarable distinct notNative fresh isBlock body ih =>
    rintro ⟨form, ty, span⟩ same
    obtain ⟨forms, rfl, -⟩ := Typed.mk.inj same
    obtain ⟨name, returns, parameters, block⟩ := function
    cases form with
    | define function =>
      obtain ⟨name, returns, parameters, block⟩ := function
      obtain ⟨rfl, rfl, rfl, blocks⟩ := Definition.mk.inj (Form.define.inj forms)
      have alike : block.Same _ := blocks
      exact .define returnable declarable distinct notNative fresh (isBlock.same alike)
        (Sequence.same ih alike.statements)
    | _ => cases forms
  | returnNothing allowed =>
    rintro ⟨form, ty, span⟩ same
    obtain ⟨forms, rfl, -⟩ := Typed.mk.inj same
    cases form with
    | returning value =>
      cases value with
      | none => exact .returnNothing allowed
      | some value => cases forms
    | _ => cases forms
  | returnValue typed accepted =>
    rintro ⟨form, ty, span⟩ same
    obtain ⟨forms, rfl, -⟩ := Typed.mk.inj same
    cases form with
    | returning value =>
      obtain ⟨value, rfl, alike⟩ := some_same (Form.returning.inj forms)
      rw [← alike.ty] at accepted
      exact .returnValue (typed.same value alike) accepted
    | _ => cases forms
  | breaking inLoop =>
    rintro ⟨form, ty, span⟩ same
    obtain ⟨forms, rfl, -⟩ := Typed.mk.inj same
    cases form <;> cases forms
    exact .breaking inLoop
  | continuing inLoop =>
    rintro ⟨form, ty, span⟩ same
    obtain ⟨forms, rfl, -⟩ := Typed.mk.inj same
    cases form <;> cases forms
    exact .continuing inLoop
  | repeating typed isInt isBlock rounds ih =>
    rintro ⟨form, ty, span⟩ same
    obtain ⟨forms, rfl, -⟩ := Typed.mk.inj same
    cases form with
    | repeating count body =>
      obtain ⟨counts, bodies⟩ := Form.repeating.inj forms
      have alike : body.Same _ := bodies
      rw [← Typed.Same.ty counts] at isInt
      exact .repeating (typed.same count counts) isInt (isBlock.same alike)
        (Sequence.same ih alike.statements)
    | _ => cases forms
  | whileTrue typed isBool isBlock rounds ih =>
    rintro ⟨form, ty, span⟩ same
    obtain ⟨forms, rfl, -⟩ := Typed.mk.inj same
    cases form with
    | whileTrue condition body =>
      obtain ⟨conditions, bodies⟩ := Form.whileTrue.inj forms
      have alike : body.Same _ := bodies
      rw [← Typed.Same.ty conditions] at isBool
      exact .whileTrue (typed.same condition conditions) isBool (isBlock.same alike)
        (Sequence.same ih alike.statements)
    | _ => cases forms
  | loop first typed isBool stepTyped isBlock rounds ih =>
    rintro ⟨form, ty, span⟩ same
    obtain ⟨forms, rfl, -⟩ := Typed.mk.inj same
    cases form with
    | loop initializer condition step body =>
      obtain ⟨initializers, conditions, steps, bodies⟩ := Form.loop.inj forms
      have alike : body.Same _ := bodies
      rw [← Context.after_same _ initializers] at typed stepTyped ih
      rw [← Typed.Same.ty conditions] at isBool
      refine .loop ?_ (typed.same condition conditions) isBool (stepTyped.same step steps)
        (isBlock.same alike) (Sequence.same ih alike.statements)
      exact first.imp (fun typed => typed.same initializer initializers)
        fun typed => typed.same initializers
    | _ => cases forms
  | chain nonempty guards decide areBlocks bodies lastIsBlock last bodiesIh lastIh =>
    rintro ⟨form, ty, span⟩ same
    obtain ⟨forms, rfl, -⟩ := Typed.mk.inj same
    cases form with
    | chain branches otherwise =>
      obtain ⟨sameBranches, sameLast⟩ := Form.chain.inj forms
      refine .chain (branches_ne_nil nonempty sameBranches) (guards_same sameBranches ?_)
        (guards_same sameBranches ?_) (bodies_same IsBlock sameBranches ?_)
        (bodies_same (fun body => Sequence _ _ body.statements) sameBranches ?_)
        (optional_same sameLast ?_) (optional_same sameLast ?_)
      · exact fun branch member guard isGuard => (guards branch member guard isGuard).same
      · exact fun branch member guard isGuard other alike =>
          alike.ty.trans (decide branch member guard isGuard)
      · exact fun branch member other alike => (areBlocks branch member).same alike
      · exact fun branch member other alike =>
          Sequence.same (bodiesIh branch member) alike.statements
      · exact fun node isNode other alike => (lastIsBlock node isNode).same alike
      · exact fun node isNode other alike => Sequence.same (lastIh node isNode) alike.statements
    | _ => cases forms

theorem Program.same {other root : Node} (typed : Program context root)
    (same : other.Same root) : Program context other := by
  refine ⟨typed.isBlock.same same, Sequence.same ?_ same.statements⟩
  intro before node after split
  exact (typed.statements before node after split).same

end Typing

end RobotScript
