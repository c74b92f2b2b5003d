import RobotScript.Proofs.Scoping.Calm
import RobotScript.Proofs.Scoping.Outlook

/-! # Free names are in view

A well-typed tree uses no name freely that its context does not have: what it uses is
declared in the tree itself or around it. -/
set_option autoImplicit false

namespace RobotScript

open Typing

namespace Context

variable {context : Context} {name : Name}

def Has (context : Context) : Name → Prop
  | .var name => ∃ ty, context.variableType? name = some ty
  | .func name => ∃ signature, context.signature? name = some signature

theorem signature?_push (context : Context) (name : String) :
    context.push.signature? name = context.signature? name := rfl

theorem variableType?_push (context : Context) (name : String) :
    context.push.variableType? name = context.variableType? name := rfl

theorem Has.of_push (has : context.push.Has name) : context.Has name := by
  cases name <;> exact has

theorem Has.withVariable_cases {other : String} {ty : Ty}
    (has : (context.withVariable other ty).Has name) :
    some (.var other) = some name ∨ context.Has name := by
  cases name with
  | func name => exact .inr has
  | var name =>
    obtain ⟨found, isFound⟩ := has
    rw [variableType?_withVariable] at isFound
    split at isFound
    next same => exact .inl (congrArg (some ∘ Name.var) same)
    · exact .inr ⟨found, isFound⟩

theorem Has.withFunction_cases {other : String} {signature : Signature}
    (has : (context.withFunction other signature).Has name) :
    some (.func other) = some name ∨ context.Has name := by
  cases name with
  | var name => exact .inr has
  | func name =>
    obtain ⟨found, isFound⟩ := has
    cases isNative : context.natives.find? name with
    | some native => exact .inr ⟨native, by rw [signature?, isNative]⟩
    | none =>
      rw [signature?_withFunction _ _ _ _ isNative] at isFound
      split at isFound
      next same => exact .inl (congrArg (some ∘ Name.func) same)
      · exact .inr ⟨found, isFound⟩

theorem Has.after_cases {node : Node} (has : (context.after node).Has name) :
    node.declares = some name ∨ context.Has name := by
  obtain ⟨form, ty, span⟩ := node
  cases form with
  | declare other ty initializer => exact has.withVariable_cases
  | define function => exact has.withFunction_cases
  | _ => exact .inr has

theorem signature?_entering (context : Context) (parameters : List Parameter) (name : String) :
    (context.entering parameters).signature? name = context.signature? name := by
  rw [← context.signature?_push, entering]
  generalize context.push = inner
  induction parameters generalizing inner with
  | nil => rfl
  | cons parameter rest ih => exact ih (inner.withVariable parameter.name parameter.ty)

/-- A variable in view of a function body is a parameter or was in view before. -/
theorem variableType?_entering {context : Context} {parameters : List Parameter} {name : String}
    {ty : Ty} (found : (context.entering parameters).variableType? name = some ty) :
    .var name ∈ Parameter.names parameters ∨ context.variableType? name = some ty := by
  unfold entering at found
  rw [← context.variableType?_push]
  generalize context.push = inner at found
  induction parameters generalizing inner with
  | nil => exact .inr found
  | cons parameter rest ih =>
    rcases ih _ found with member | outer
    · exact .inl (List.mem_cons_of_mem _ member)
    · rw [variableType?_withVariable] at outer
      split at outer
      next same => exact .inl (same ▸ List.mem_cons_self)
      · exact .inr outer

theorem Has.entering_cases {parameters : List Parameter}
    (has : (context.entering parameters).Has name) :
    name ∈ Parameter.names parameters ∨ context.Has name := by
  cases name with
  | var name =>
    obtain ⟨ty, found⟩ := has
    exact (variableType?_entering found).imp id fun outer => ⟨ty, outer⟩
  | func name =>
    obtain ⟨signature, found⟩ := has
    exact .inr ⟨signature, (context.signature?_entering parameters name).symm.trans found⟩

end Context

/-! ## Trees -/

/-- All names that the node uses freely are in view. -/
def InView (context : Context) (node : Node) : Prop := ∀ name ∈ nodeFree node, context.Has name

variable {context : Context} {node : Node} {name : Name}

theorem mem_nodesFree {nodes : List Node} (member : name ∈ nodesFree nodes) :
    ∃ node ∈ nodes, name ∈ nodeFree node := by
  induction nodes with
  | nil => cases member
  | cons first rest ih =>
    rcases List.mem_append.mp member with here | behind
    · exact ⟨first, List.mem_cons_self, here⟩
    · obtain ⟨node, isNode, free⟩ := ih behind
      exact ⟨node, List.mem_cons_of_mem first isNode, free⟩

theorem branchesFree_inView {branches : List (Branch Form)}
    (guards : ∀ branch ∈ branches, ∀ guard, branch.guard? = some guard → InView context guard)
    (bodies : ∀ branch ∈ branches, InView context branch.body) :
    ∀ name ∈ branchesFree branches, context.Has name := by
  induction branches with
  | nil =>
    intro name member
    cases member
  | cons branch rest ih =>
    intro name member
    rcases List.mem_append.mp member with here | behind
    · have body := bodies branch List.mem_cons_self
      cases branch with
      | test guard test span =>
        rcases List.mem_append.mp here with inGuard | inBody
        · exact guards _ List.mem_cons_self guard rfl name inGuard
        · exact body name inBody
      | attempt attempted span => exact body name here
    · exact ih (fun branch member => guards branch (List.mem_cons_of_mem _ member))
        (fun branch member => bodies branch (List.mem_cons_of_mem _ member)) name behind

theorem Typing.Expression.inView (typed : Expression context node) : InView context node := by
  induction typed with
  | literal =>
    intro name member
    cases member
  | name found | count found =>
    intro name member
    obtain rfl := List.mem_singleton.mp member
    exact ⟨_, found⟩
  | unary _ _ ih => exact ih
  | binary _ _ _ leftIh rightIh =>
    intro name member
    exact (List.mem_append.mp member).elim (leftIh name) (rightIh name)
  | call found _ _ ih =>
    intro name member
    rcases List.mem_cons.mp member with rfl | member
    · exact ⟨_, found⟩
    · obtain ⟨argument, isArgument, free⟩ := mem_nodesFree member
      exact ih argument isArgument name free
  | index found _ _ _ ih | set found _ _ ih | combine found _ _ _ _ ih =>
    intro name member
    rcases List.mem_cons.mp member with rfl | member
    · exact ⟨_, found⟩
    · exact ih name member
  | list _ _ _ _ ih =>
    intro name member
    obtain ⟨element, isElement, free⟩ := mem_nodesFree member
    exact ih element isElement name free
  | chain _ _ _ _ _ _ _ _ guardsIh bodiesIh lastIh =>
    intro name member
    rcases List.mem_append.mp member with member | member
    · exact branchesFree_inView guardsIh bodiesIh name member
    · exact lastIh name member

theorem Typing.Sequence.inView {list : List Node} (each : Sequence InView context list) :
    ∀ name ∈ sequenceFree list, context.Has name := by
  induction list generalizing context with
  | nil =>
    intro name member
    cases member
  | cons first rest ih =>
    intro name member
    rcases List.mem_append.mp member with here | behind
    · exact each.head name here
    · obtain ⟨free, other⟩ := List.mem_filter.mp behind
      exact ((ih each.tail name free).after_cases).resolve_left (of_decide_eq_true other)

theorem isBlock_inView (isBlock : IsBlock node) (each : Sequence InView context node.statements) :
    InView context node := by
  obtain ⟨form, ty, span⟩ := node
  obtain ⟨list, rfl, -⟩ := isBlock
  exact each.inView

theorem definitionFree_has {function : Function}
    (body : InView (context.entering function.parameters) function.body) :
    ∀ name ∈ definitionFree function, context.Has name := by
  obtain ⟨label, returns, parameters, body⟩ := function
  intro name member
  obtain ⟨free, other⟩ := List.mem_filter.mp member
  exact ((body name free).entering_cases).resolve_left (of_decide_eq_true other)

theorem optionFree_inView {value : Option Node}
    (each : ∀ node, value = some node → InView context node) :
    ∀ name ∈ optionFree value, context.Has name := by
  cases value with
  | none =>
    intro name member
    cases member
  | some node => exact each node rfl

theorem Typing.Declaration.inView (typed : Declaration context node) : InView context node := by
  cases typed with
  | declare _ _ typed _ => exact optionFree_inView fun value isValue => (typed value isValue).inView

theorem InView.of_push (inView : InView context.push node) : InView context node :=
  fun name member => (inView name member).of_push

/-- What a loop uses behind its initializer may be what the initializer declares. -/
theorem loop_inView {initializer condition step body : Node} {ty : Ty} {span : Span}
    (first : InView context.push initializer)
    (conditions : InView (context.push.after initializer) condition)
    (steps : InView (context.push.after initializer) step)
    (bodies : InView (context.push.after initializer) body) :
    InView context ⟨.loop initializer condition step body, ty, span⟩ := by
  intro name member
  rcases List.mem_append.mp member with member | member
  · exact first.of_push name member
  · obtain ⟨free, other⟩ := List.mem_filter.mp member
    have has : (context.push.after initializer).Has name := by
      rcases List.mem_append.mp free with free | inBody
      · exact (List.mem_append.mp free).elim (conditions name) (steps name)
      · exact bodies name inBody
    exact (has.after_cases.resolve_left (of_decide_eq_true other)).of_push

theorem Typing.Statement.inView {place : Grammar.Place} (typed : Statement place context node) :
    InView context node := by
  induction typed with
  | expression typed => exact typed.inView
  | declaration typed => exact typed.inView
  | define _ _ _ _ _ isBlock _ ih =>
    intro name member
    obtain ⟨free, other⟩ := List.mem_filter.mp member
    have has := definitionFree_has (isBlock_inView isBlock ih) name free
    refine has.withFunction_cases.resolve_left ?_
    rintro ⟨⟩
    exact of_decide_eq_true other rfl
  | returnNothing | breaking | continuing =>
    intro name member
    cases member
  | returnValue typed _ => exact typed.inView
  | repeating typed _ isBlock _ ih | whileTrue typed _ isBlock _ ih =>
    intro name member
    rcases List.mem_append.mp member with member | member
    · exact typed.inView name member
    · exact (isBlock_inView isBlock ih).of_push name member
  | loop first typed _ stepTyped isBlock _ ih =>
    exact loop_inView (first.elim (·.inView) (·.inView)) typed.inView stepTyped.inView
      (isBlock_inView isBlock ih).of_push
  | chain _ guards _ areBlocks _ lastIsBlock _ bodiesIh lastIh =>
    intro name member
    rcases List.mem_append.mp member with member | member
    · refine branchesFree_inView (fun branch isBranch guard isGuard =>
        (guards branch isBranch guard isGuard).inView) (fun branch isBranch => ?_) name member
      exact (isBlock_inView (areBlocks branch isBranch) (bodiesIh branch isBranch)).of_push
    · exact optionFree_inView (fun last isLast =>
        (isBlock_inView (lastIsBlock last isLast) (lastIh last isLast)).of_push) name member

/-- A function uses no name, apart from its parameters, that was not there where its body
was read. -/
theorem Typing.function_inView {function : Function} (isBlock : IsBlock function.body)
    (body : Sequence (Statement ⟨false, some function.returns⟩)
      (context.entering function.parameters) function.body.statements) :
    ∀ name ∈ definitionFree function, context.Has name :=
  definitionFree_has (isBlock_inView isBlock fun before node behind split =>
    (body before node behind split).inView)

end RobotScript
