import Mathlib.Data.List.Forall2
import RobotScript.Tree

/-! # Trees up to spans

What is left of a tree when it is forgotten where its nodes stood. Two trees are
the same if that is all in which they differ. -/
set_option autoImplicit false

namespace RobotScript

mutual

def Form.withoutSpans : Form → Form
  | .literal value => .literal value
  | .variable name => .variable name
  | .unary operator operand => .unary operator (nodeWithoutSpans operand)
  | .binary left operator right =>
    .binary (nodeWithoutSpans left) operator (nodeWithoutSpans right)
  | .block statements => .block (nodesWithoutSpans statements)
  | .returning value => .returning (optionWithoutSpans value)
  | .breaking => .breaking
  | .continuing => .continuing
  | .declare name declared initializer => .declare name declared (optionWithoutSpans initializer)
  | .assign name operator value => .assign name operator (optionWithoutSpans value)
  | .define definition => .define (definitionWithoutSpans definition)
  | .call name arguments => .call name (nodesWithoutSpans arguments)
  | .index name position => .index name (nodeWithoutSpans position)
  | .list elements => .list (nodesWithoutSpans elements)
  | .loop initializer condition step body =>
    .loop (nodeWithoutSpans initializer) (nodeWithoutSpans condition) (nodeWithoutSpans step)
      (nodeWithoutSpans body)
  | .repeating count body => .repeating (nodeWithoutSpans count) (nodeWithoutSpans body)
  | .whileTrue condition body => .whileTrue (nodeWithoutSpans condition) (nodeWithoutSpans body)
  | .chain branches otherwise =>
    .chain (branchesWithoutSpans branches) (optionWithoutSpans otherwise)

def nodeWithoutSpans : Typed Form → Typed Form
  | ⟨form, ty, _⟩ => ⟨form.withoutSpans, ty, default⟩

def nodesWithoutSpans : List (Typed Form) → List (Typed Form)
  | [] => []
  | node :: rest => nodeWithoutSpans node :: nodesWithoutSpans rest

def optionWithoutSpans : Option (Typed Form) → Option (Typed Form)
  | none => none
  | some node => some (nodeWithoutSpans node)

def branchWithoutSpans : Branch Form → Branch Form
  | .test guard body _ => .test (nodeWithoutSpans guard) (nodeWithoutSpans body) default
  | .attempt body _ => .attempt (nodeWithoutSpans body) default

def branchesWithoutSpans : List (Branch Form) → List (Branch Form)
  | [] => []
  | branch :: rest => branchWithoutSpans branch :: branchesWithoutSpans rest

def definitionWithoutSpans : Definition Form → Definition Form
  | ⟨name, returns, parameters, body⟩ => ⟨name, returns, parameters, nodeWithoutSpans body⟩

end

/-- The same tree, read from another place. -/
def Typed.Same (first second : Node) : Prop := nodeWithoutSpans first = nodeWithoutSpans second

theorem Typed.Same.ty {first second : Node} (same : first.Same second) : first.ty = second.ty := by
  obtain ⟨form, ty, span⟩ := first
  obtain ⟨other, otherTy, place⟩ := second
  exact (Typed.mk.inj same).2.1

theorem Typed.Same.widened {first second : Node} (same : first.Same second) (span : Span) :
    Typed.Same { first with span := span } second := by
  obtain ⟨form, ty, place⟩ := first
  exact same

theorem nodesWithoutSpans_append (first second : List Node) :
    nodesWithoutSpans (first ++ second) = nodesWithoutSpans first ++ nodesWithoutSpans second := by
  induction first with
  | nil => rfl
  | cons node rest ih => rw [List.cons_append, nodesWithoutSpans, nodesWithoutSpans, ih, List.cons_append]

theorem branchesWithoutSpans_append (first second : List (Branch Form)) :
    branchesWithoutSpans (first ++ second) =
      branchesWithoutSpans first ++ branchesWithoutSpans second := by
  induction first with
  | nil => rfl
  | cons branch rest ih =>
    rw [List.cons_append, branchesWithoutSpans, branchesWithoutSpans, ih, List.cons_append]

/-! ## Lists of trees -/

def Sames (first second : List Node) : Prop := List.Forall₂ Typed.Same first second

namespace Sames

variable {first second : List Node}

theorem withoutSpans (same : Sames first second) :
    nodesWithoutSpans first = nodesWithoutSpans second := by
  induction same with
  | nil => rfl
  | cons head tail ih =>
    unfold Typed.Same at head
    rw [nodesWithoutSpans, nodesWithoutSpans, head, ih]

theorem of_withoutSpans (same : nodesWithoutSpans first = nodesWithoutSpans second) :
    Sames first second := by
  induction first generalizing second with
  | nil =>
    cases second with
    | nil => exact .nil
    | cons node rest => cases same
  | cons node rest ih =>
    cases second with
    | nil => cases same
    | cons other others =>
      obtain ⟨here, behind⟩ := List.cons.inj same
      exact .cons here (ih behind)

theorem symm (same : Sames first second) : Sames second first :=
  .of_withoutSpans same.withoutSpans.symm

theorem append {left right : Node} (same : Sames first second) (last : left.Same right) :
    Sames (first ++ [left]) (second ++ [right]) := by
  induction same with
  | nil => exact .cons last .nil
  | cons head tail ih => exact .cons head ih

theorem twin (same : Sames first second) {node : Node} (member : node ∈ first) :
    ∃ twin ∈ second, node.Same twin := by
  induction same with
  | nil => cases member
  | cons head tail ih =>
    rcases List.mem_cons.mp member with rfl | member
    · exact ⟨_, List.mem_cons_self, head⟩
    · obtain ⟨twin, twinMember, alike⟩ := ih member
      exact ⟨twin, List.mem_cons_of_mem _ twinMember, alike⟩

end Sames

theorem statements_withoutSpans (node : Node) :
    (nodeWithoutSpans node).statements = nodesWithoutSpans node.statements := by
  obtain ⟨form, ty, span⟩ := node
  cases form <;> rfl

theorem Typed.Same.statements {first second : Node} (same : first.Same second) :
    Sames first.statements second.statements := by
  apply Sames.of_withoutSpans
  rw [← statements_withoutSpans, ← statements_withoutSpans]
  exact congrArg Typed.statements same

/-! ## Parts that there need not be -/

theorem option_twin {first second : Option Node}
    (same : optionWithoutSpans first = optionWithoutSpans second) {node : Node}
    (isNode : first = some node) : ∃ twin, second = some twin ∧ node.Same twin := by
  subst isNode
  cases second with
  | none => cases same
  | some twin => exact ⟨twin, rfl, Option.some.inj same⟩

theorem branches_twin {first second : List (Branch Form)}
    (same : branchesWithoutSpans first = branchesWithoutSpans second) {branch : Branch Form}
    (member : branch ∈ first) :
    ∃ twin ∈ second, branchWithoutSpans branch = branchWithoutSpans twin := by
  induction first generalizing second with
  | nil => cases member
  | cons head rest ih =>
    cases second with
    | nil => cases same
    | cons other others =>
      obtain ⟨here, behind⟩ := List.cons.inj same
      rcases List.mem_cons.mp member with rfl | member
      · exact ⟨other, List.mem_cons_self, here⟩
      · obtain ⟨twin, twinMember, alike⟩ := ih behind member
        exact ⟨twin, List.mem_cons_of_mem _ twinMember, alike⟩

end RobotScript
