import RobotScript.Proofs.Scoping.Names
import RobotScript.Proofs.Typing.Judgement

/-! # What names mean where they are used

An outlook tells for each name in view what it means and where it was declared.
It grows along a script as the context of the reader does, so that `links` finds
for each use of a name, on the tree alone, the declaration that it means. The
context knows the types of these declarations but not their places; `Matches`
says that the two go together. -/
set_option autoImplicit false

namespace RobotScript

inductive Meaning where
  | var (ty : Ty)
  | func (signature : Signature)
deriving DecidableEq, Repr

/-- What a name means, and the place of its declaration. A parameter is declared
by the body of its function. -/
structure Entry where
  meaning : Meaning
  site : Option Span
deriving DecidableEq, Repr

def Outlook := Name → Option Entry

namespace Outlook

def blank : Outlook := fun _ => none

def declare (outlook : Outlook) (name : Name) (entry : Entry) : Outlook := fun other =>
  if other = name then some entry else outlook other

def after (outlook : Outlook) (node : Node) : Outlook :=
  match node.form with
  | .declare name ty _ => outlook.declare (.var name) ⟨.var ty, some node.span⟩
  | .define function =>
    outlook.declare (.func function.name) ⟨.func function.signature, some node.span⟩
  | _ => outlook

/-- The outlook in a function body, which is where its parameters are declared. -/
def entering (outlook : Outlook) (site : Span) (parameters : List Parameter) : Outlook :=
  parameters.foldl (fun inner parameter =>
    inner.declare (.var parameter.name) ⟨.var parameter.ty, some site⟩) outlook

end Outlook

/-- A node that uses a name, and what it reaches by it. -/
structure Use where
  node : Node
  reached : Option Entry

mutual

/-- The uses of names in a form; `here` is the node of the form. -/
def Form.links (outlook : Outlook) (here : Node) : Form → List Use
  | .literal _ | .breaking | .continuing => []
  | .variable name => [⟨here, outlook (.var name)⟩]
  | .unary _ operand => nodeLinks outlook operand
  | .binary left _ right => nodeLinks outlook left ++ nodeLinks outlook right
  | .block statements => sequenceLinks outlook statements
  | .returning value => optionLinks outlook value
  | .declare _ _ initializer => optionLinks outlook initializer
  | .assign name _ value => ⟨here, outlook (.var name)⟩ :: optionLinks outlook value
  | .define definition => definitionLinks (outlook.after here) definition
  | .call name arguments => ⟨here, outlook (.func name)⟩ :: nodesLinks outlook arguments
  | .index name position => ⟨here, outlook (.var name)⟩ :: nodeLinks outlook position
  | .list elements => nodesLinks outlook elements
  | .loop initializer condition step body =>
    nodeLinks outlook initializer ++ (nodeLinks (outlook.after initializer) condition ++
      nodeLinks (outlook.after initializer) step ++ nodeLinks (outlook.after initializer) body)
  | .repeating count body => nodeLinks outlook count ++ nodeLinks outlook body
  | .whileTrue condition body => nodeLinks outlook condition ++ nodeLinks outlook body
  | .chain branches otherwise => branchesLinks outlook branches ++ optionLinks outlook otherwise

def nodeLinks (outlook : Outlook) : Typed Form → List Use
  | ⟨form, ty, span⟩ => form.links outlook ⟨form, ty, span⟩

def nodesLinks (outlook : Outlook) : List (Typed Form) → List Use
  | [] => []
  | node :: rest => nodeLinks outlook node ++ nodesLinks outlook rest

def sequenceLinks (outlook : Outlook) : List (Typed Form) → List Use
  | [] => []
  | node :: rest => nodeLinks outlook node ++ sequenceLinks (outlook.after node) rest

def optionLinks (outlook : Outlook) : Option (Typed Form) → List Use
  | none => []
  | some node => nodeLinks outlook node

def branchLinks (outlook : Outlook) : Branch Form → List Use
  | .test guard body _ => nodeLinks outlook guard ++ nodeLinks outlook body
  | .attempt body _ => nodeLinks outlook body

def branchesLinks (outlook : Outlook) : List (Branch Form) → List Use
  | [] => []
  | branch :: rest => branchLinks outlook branch ++ branchesLinks outlook rest

def definitionLinks (outlook : Outlook) : Definition Form → List Use
  | ⟨_, _, parameters, body⟩ => nodeLinks (outlook.entering body.span parameters) body

end

/-- Each use of a name in a script, with the declaration that it means. -/
def Typed.links (root : Node) : List Use := nodeLinks .blank root

/-- What a node says about the name it uses is what was declared: the type of a
variable, the list that is indexed, and the signature that a call fits. -/
def Use.Fits (use : Use) : Prop :=
  match use.node.form, use.reached with
  | .variable _, some ⟨.var ty, _⟩ => use.node.ty = ty
  | .index _ _, some ⟨.var ty, _⟩ => ty.isList = true ∧ use.node.ty = ty.element
  | .assign _ _ _, some ⟨.var ty, _⟩ => use.node.ty = ty
  | .call _ arguments, some ⟨.func signature, _⟩ =>
    use.node.ty = signature.returns ∧ Typing.Takes signature.parameters arguments
  | _, _ => False

/-! ## Contexts and outlooks -/

structure Matches (context : Context) (outlook : Outlook) : Prop where
  vars : ∀ name ty, context.variableType? name = some ty →
    ∃ site, outlook (.var name) = some ⟨.var ty, site⟩
  functions : ∀ name signature, context.natives.find? name = none →
    context.signature? name = some signature →
    ∃ site, outlook (.func name) = some ⟨.func signature, site⟩

namespace Context

theorem variableType?_withVariable (context : Context) (name other : String) (ty : Ty) :
    (context.withVariable name ty).variableType? other =
      if name = other then some ty else context.variableType? other := by
  simp only [variableType?, scopes, withVariable, List.findSome?_cons, Bindings.find?_insert]
  by_cases same : name = other
  · rw [if_pos same, if_pos same]
  · rw [if_neg same, if_neg same]

theorem signature?_withFunction (context : Context) (name other : String)
    (signature : Signature) (notNative : context.natives.find? other = none) :
    (context.withFunction name signature).signature? other =
      if name = other then some signature else context.signature? other := by
  simp only [signature?, scopes, withFunction, notNative, List.findSome?_cons,
    Bindings.find?_insert]
  by_cases same : name = other
  · rw [if_pos same, if_pos same]
  · rw [if_neg same, if_neg same]

end Context

namespace Matches

variable {context : Context} {outlook : Outlook}

theorem blank (natives : Bindings Signature) : Matches (.withNatives natives) .blank := by
  constructor
  · intro name ty found
    cases found
  · intro name signature notNative found
    simp only [Context.withNatives] at notNative
    simp [Context.signature?, Context.withNatives, Context.scopes, Declarations.empty, notNative]
      at found

theorem push (fits : Matches context outlook) : Matches context.push outlook :=
  ⟨fits.vars, fits.functions⟩

theorem withVariable (fits : Matches context outlook) (name : String) (ty : Ty)
    (site : Option Span) :
    Matches (context.withVariable name ty)
      (outlook.declare (.var name) ⟨.var ty, site⟩) := by
  constructor
  · intro other found declared
    rw [Context.variableType?_withVariable] at declared
    by_cases same : name = other
    · subst same
      rw [if_pos rfl] at declared
      cases declared
      exact ⟨site, if_pos rfl⟩
    · rw [if_neg same] at declared
      obtain ⟨place, here⟩ := fits.vars other found declared
      refine ⟨place, ?_⟩
      rw [Outlook.declare, if_neg, here]
      intro equal
      cases equal
      exact same rfl
  · intro other signature notNative declared
    obtain ⟨place, here⟩ := fits.functions other signature notNative declared
    exact ⟨place, here⟩

theorem withFunction (fits : Matches context outlook) (name : String) (signature : Signature)
    (site : Option Span) :
    Matches (context.withFunction name signature)
      (outlook.declare (.func name) ⟨.func signature, site⟩) := by
  constructor
  · intro other found declared
    obtain ⟨place, here⟩ := fits.vars other found declared
    exact ⟨place, here⟩
  · intro other found notNative declared
    rw [Context.signature?_withFunction context name other signature notNative] at declared
    by_cases same : name = other
    · subst same
      rw [if_pos rfl] at declared
      cases declared
      exact ⟨site, if_pos rfl⟩
    · rw [if_neg same] at declared
      obtain ⟨place, here⟩ := fits.functions other found notNative declared
      refine ⟨place, ?_⟩
      rw [Outlook.declare, if_neg, here]
      intro equal
      cases equal
      exact same rfl

theorem after (fits : Matches context outlook) (node : Node) :
    Matches (context.after node) (outlook.after node) := by
  obtain ⟨form, ty, span⟩ := node
  cases form with
  | declare name ty initializer => exact fits.withVariable name ty (some span)
  | define function => exact fits.withFunction function.name function.signature (some span)
  | _ => exact fits

theorem entering (fits : Matches context outlook) (site : Span) (parameters : List Parameter) :
    Matches (context.entering parameters) (outlook.entering site parameters) := by
  unfold Context.entering Outlook.entering
  have inside : Matches context.push outlook := fits.push
  clear fits
  generalize context.push = inner at inside
  induction parameters generalizing inner outlook with
  | nil => exact inside
  | cons parameter rest ih =>
    exact ih (inner.withVariable parameter.name parameter.ty)
      (inside.withVariable parameter.name parameter.ty (some site))

end Matches

end RobotScript
