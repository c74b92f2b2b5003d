import RobotScript.Proofs.Scoping.Names
import RobotScript.Proofs.Typing.Judgement

/-! # Statements that leave functions alone

In a well-typed scope no name is declared twice. So where no function is captured
the statements are calm: none declares what a function before it keeps using. -/
set_option autoImplicit false

namespace RobotScript

open Typing

/-- No statement declares a name that an earlier one keeps using. -/
def Calm (statements : List Node) : Prop :=
  statements.Pairwise fun earlier later => ∀ name ∈ earlier.keeps, later.declares ≠ some name

namespace Context

def Declared (context : Context) : Name → Prop
  | .var name => context.innermost.vars.find? name ≠ none
  | .func name => context.innermost.functions.find? name ≠ none

variable {context : Context} {name : Name}

theorem Declared.withVariable (here : context.Declared name) (other : String) (ty : Ty) :
    (context.withVariable other ty).Declared name := by
  cases name with
  | func name => exact here
  | var name =>
    show (context.innermost.vars.insert other ty).find? name ≠ none
    rw [Bindings.find?_insert]
    split
    · exact Option.some_ne_none _
    · exact here

theorem Declared.withFunction (here : context.Declared name) (other : String)
    (signature : Signature) : (context.withFunction other signature).Declared name := by
  cases name with
  | var name => exact here
  | func name =>
    show (context.innermost.functions.insert other signature).find? name ≠ none
    rw [Bindings.find?_insert]
    split
    · exact Option.some_ne_none _
    · exact here

theorem Declared.after (here : context.Declared name) (node : Node) :
    (context.after node).Declared name := by
  obtain ⟨form, ty, span⟩ := node
  cases form with
  | declare other ty initializer => exact here.withVariable other ty
  | define function => exact here.withFunction function.name function.signature
  | _ => exact here

theorem declared_after (context : Context) (node : Node) (declares : node.declares = some name) :
    (context.after node).Declared name := by
  obtain ⟨form, ty, span⟩ := node
  cases form with
  | declare other ty initializer =>
    cases declares
    show (context.innermost.vars.insert other ty).find? other ≠ none
    rw [Bindings.find?_insert, if_pos rfl]
    exact Option.some_ne_none _
  | define function =>
    cases declares
    show (context.innermost.functions.insert function.name function.signature).find?
      function.name ≠ none
    rw [Bindings.find?_insert, if_pos rfl]
    exact Option.some_ne_none _
  | _ => cases declares

theorem Declared.withVariables (here : context.Declared name) (parameters : List Parameter) :
    (parameters.foldl (fun inner parameter => inner.withVariable parameter.name parameter.ty)
      context).Declared name := by
  induction parameters generalizing context with
  | nil => exact here
  | cons parameter rest ih => exact ih (here.withVariable parameter.name parameter.ty)

theorem entering_declared (context : Context) (parameters : List Parameter) :
    ∀ name ∈ Parameter.names parameters, (context.entering parameters).Declared name := by
  unfold entering
  generalize context.push = inner
  induction parameters generalizing inner with
  | nil =>
    intro name member
    cases member
  | cons parameter rest ih =>
    intro name member
    rcases List.mem_cons.mp member with rfl | member
    · have here : (inner.withVariable parameter.name parameter.ty).Declared
          (.var parameter.name) :=
        declared_after inner ⟨.declare parameter.name parameter.ty none, .void, default⟩ rfl
      exact here.withVariables rest
    · exact ih _ name member

end Context

theorem Typing.Expression.declares {context : Context} {node : Node}
    (typed : Expression context node) : node.declares = none := by
  cases typed <;> rfl

theorem Typing.Statement.fresh {place : Grammar.Place} {context : Context} {node : Node}
    {name : Name} (typed : Statement place context node) (declares : node.declares = some name) :
    ¬ context.Declared name := by
  intro here
  cases typed with
  | expression typed =>
    rw [typed.declares] at declares
    cases declares
  | declaration typed =>
    cases typed with
    | declare declarable fresh typed accepted =>
      cases declares
      exact here fresh
  | define returnable declarable distinct notNative fresh isBlock body =>
    cases declares
    exact here fresh
  | _ => cases declares

theorem Typing.Sequence.not_declared_again {place : Grammar.Place} {context : Context} {list : List Node}
    {name : Name} (typed : Sequence (Statement place) context list)
    (here : context.Declared name) : ∀ node ∈ list, node.declares ≠ some name := by
  induction list generalizing context with
  | nil =>
    intro node member
    cases member
  | cons first rest ih =>
    intro node member declares
    rcases List.mem_cons.mp member with rfl | member
    · exact typed.head.fresh declares here
    · exact ih typed.tail (here.after first) node member declares

theorem calm_of_keepsMeanings {place : Grammar.Place} {context : Context} {declared : List Name}
    {list : List Node} (typed : Sequence (Statement place) context list)
    (bound : ∀ name ∈ declared, context.Declared name)
    (keeps : keepsMeanings declared list = true) : Calm list := by
  induction list generalizing context declared with
  | nil => exact List.Pairwise.nil
  | cons node rest ih =>
    obtain ⟨first, others⟩ := Bool.and_eq_true_iff.mp keeps
    have boundAfter : ∀ name ∈ node.declares.toList ++ declared,
        (context.after node).Declared name := by
      intro name member
      rcases List.mem_append.mp member with here | before
      · exact Context.declared_after context node (Option.mem_toList.mp here)
      · exact (bound name before).after node
    refine List.Pairwise.cons ?_ (ih typed.tail boundAfter others)
    intro later member name kept
    rcases Bool.or_eq_true_iff.mp (List.all_eq_true.mp first name kept) with known | unsaid
    · have here := boundAfter name (List.contains_iff_mem.mp known)
      exact typed.tail.not_declared_again here later member
    · exact of_decide_eq_true (List.all_eq_true.mp unsaid later member)

end RobotScript
