import Mathlib.Data.List.Forall2
import RobotScript.Grammar.Reader

/-! # Well-typed trees

When a tree is a script, said on trees alone: which forms may stand where, which
declarations their names mean and which types their parts have. `Expression` is
the judgement on what has a value, `Statement` on what stands in a block, a body
or a script, and `Program` on a whole script. A statement is judged in the
context that the statements before it leave behind. -/
set_option autoImplicit false

namespace RobotScript

namespace Context

def withVariable (context : Context) (name : String) (ty : Ty) : Context :=
  { context with
    innermost := { context.innermost with vars := context.innermost.vars.insert name ty } }

def withFunction (context : Context) (name : String) (signature : Signature) : Context :=
  { context with
    innermost :=
      { context.innermost with functions := context.innermost.functions.insert name signature } }

/-- The context behind a statement: only declarations and definitions add to it. -/
def after (context : Context) (node : Node) : Context :=
  match node.form with
  | .declare name ty _ => context.withVariable name ty
  | .define function => context.withFunction function.name function.signature
  | _ => context

def afterAll (context : Context) (statements : List Node) : Context :=
  statements.foldl after context

/-- A new scope that holds the parameters of a function. -/
def entering (context : Context) (parameters : List Parameter) : Context :=
  parameters.foldl (fun inner parameter => inner.withVariable parameter.name parameter.ty)
    context.push

@[simp] theorem afterAll_cons (context : Context) (first : Node) (rest : List Node) :
    context.afterAll (first :: rest) = (context.after first).afterAll rest := rfl

end Context

theorem Ty.isNumeric_iff {ty : Ty} : ty.isNumeric = true ↔ ty = .int ∨ ty = .double := by
  simp [Ty.isNumeric]

namespace Branch

def guard? : Branch Form → Option Node
  | .test guard _ _ => some guard
  | .attempt _ _ => none

end Branch

namespace Typing

/-- Types of variables and parameters. -/
def Declarable (ty : Ty) : Prop := ty.primitive ≠ .void

def Returnable (ty : Ty) : Prop := ty = .void ∨ Declarable ty

/-- Types of literals and of list elements. -/
def Plain (ty : Ty) : Prop := ty.isList = false ∧ ty ≠ .void

theorem plain_scalar {primitive : Primitive} (hasValue : primitive ≠ .void) :
    Plain (.scalar primitive) := by
  refine ⟨rfl, ?_⟩
  intro isVoid
  exact hasValue (congrArg Ty.primitive isVoid)

def Combining (operator : BinaryOp) : Prop :=
  operator ∈ [BinaryOp.add, .subtract, .multiply, .divide, .power]

instance (operator : BinaryOp) : Decidable (Combining operator) :=
  inferInstanceAs (Decidable (operator ∈ _))

def Takes (parameters : Parameters) (arguments : List Node) : Prop :=
  match parameters with
  | .anyNumber => ∀ argument ∈ arguments, argument.ty ≠ .void
  | .exactly types =>
    List.Forall₂ (fun ty (argument : Node) => ty.accepts argument.ty = true) types arguments

/-- The common type of list elements; ints beside doubles count as doubles. -/
def Common (elements : List Node) (ty : Ty) : Prop :=
  (∀ element ∈ elements, element.ty = ty) ∨
    (ty = .double ∧ (∀ element ∈ elements, element.ty = .int ∨ element.ty = .double) ∧
      (∃ element ∈ elements, element.ty = .int) ∧ ∃ element ∈ elements, element.ty = .double)

theorem Common.append_same {elements : List Node} {element : Node}
    (common : Common elements element.ty) : Common (elements ++ [element]) element.ty := by
  rcases common with same | ⟨isDouble, numeric, someInt, someDouble⟩
  · exact .inl (List.forall_mem_append.mpr ⟨same, List.forall_mem_singleton.mpr rfl⟩)
  · refine .inr ⟨isDouble, ?_, ?_, ?_⟩
    · exact List.forall_mem_append.mpr ⟨numeric, List.forall_mem_singleton.mpr (.inr isDouble)⟩
    · obtain ⟨int, member, isInt⟩ := someInt
      exact ⟨int, List.mem_append_left _ member, isInt⟩
    · obtain ⟨double, member, is⟩ := someDouble
      exact ⟨double, List.mem_append_left _ member, is⟩

theorem Common.append_numeric {elements : List Node} {element : Node} {ty : Ty}
    (nonempty : elements ≠ []) (common : Common elements ty) (differs : ty ≠ element.ty)
    (numeric : ty.isNumeric = true) (elementNumeric : element.ty.isNumeric = true) :
    Common (elements ++ [element]) .double := by
  have here : element ∈ elements ++ [element] :=
    List.mem_append_right _ (List.mem_singleton.mpr rfl)
  refine .inr ⟨rfl, ?_, ?_⟩
  · intro other member
    rcases List.mem_append.mp member with member | member
    · rcases common with same | ⟨-, others, -⟩
      · rw [same other member]
        exact Ty.isNumeric_iff.mp numeric
      · exact others other member
    · rw [List.mem_singleton.mp member]
      exact Ty.isNumeric_iff.mp elementNumeric
  · obtain ⟨first, member⟩ := List.exists_mem_of_ne_nil elements nonempty
    have there : first ∈ elements ++ [element] := List.mem_append_left _ member
    rcases common with same | ⟨isDouble, -, ⟨int, intMember, isInt⟩, double, doubleMember, is⟩
    · have firstTy := same first member
      rcases Ty.isNumeric_iff.mp numeric with isInt | isDouble
      · rcases Ty.isNumeric_iff.mp elementNumeric with elementInt | elementDouble
        · exact absurd (isInt.trans elementInt.symm) differs
        · exact ⟨⟨first, there, firstTy.trans isInt⟩, ⟨element, here, elementDouble⟩⟩
      · rcases Ty.isNumeric_iff.mp elementNumeric with elementInt | elementDouble
        · exact ⟨⟨element, here, elementInt⟩, ⟨first, there, firstTy.trans isDouble⟩⟩
        · exact absurd (isDouble.trans elementDouble.symm) differs
    · exact ⟨⟨int, List.mem_append_left _ intMember, isInt⟩,
        ⟨double, List.mem_append_left _ doubleMember, is⟩⟩

theorem Common.unique {elements : List Node} {first second : Ty} (nonempty : elements ≠ [])
    (common : Common elements first) (other : Common elements second) : first = second := by
  obtain ⟨element, member⟩ := List.exists_mem_of_ne_nil elements nonempty
  have mixed {ty : Ty} (same : ∀ element ∈ elements, element.ty = ty)
      (someInt : ∃ element ∈ elements, element.ty = .int)
      (someDouble : ∃ element ∈ elements, element.ty = .double) : False := by
    obtain ⟨int, intMember, isInt⟩ := someInt
    obtain ⟨double, doubleMember, isDouble⟩ := someDouble
    have clash : Ty.int = .double := by
      rw [← isInt, ← isDouble, same int intMember, same double doubleMember]
    exact absurd clash (by decide)
  rcases common with same | ⟨isDouble, -, someInt, someDouble⟩
  · rcases other with otherSame | ⟨-, -, someInt, someDouble⟩
    · rw [← same element member, otherSame element member]
    · exact (mixed same someInt someDouble).elim
  · rcases other with otherSame | ⟨otherDouble, -, -, -⟩
    · exact (mixed otherSame someInt someDouble).elim
    · rw [isDouble, otherDouble]

theorem Common.goesWith {before behind : List Node} {element : Node} {ty sofar : Ty}
    (all : Common (before ++ element :: behind) ty) (nonempty : before ≠ [])
    (common : Common before sofar) :
    sofar = element.ty ∨ (sofar.isNumeric = true ∧ element.ty.isNumeric = true) := by
  have here : element ∈ before ++ element :: behind :=
    List.mem_append_right _ List.mem_cons_self
  rcases all with same | ⟨-, numeric, -, -⟩
  · left
    have earlier : Common before ty :=
      .inl fun other member => same other (List.mem_append_left _ member)
    rw [same element here]
    exact common.unique nonempty earlier
  · right
    refine ⟨?_, Ty.isNumeric_iff.mpr (numeric element here)⟩
    obtain ⟨other, member⟩ := List.exists_mem_of_ne_nil before nonempty
    rcases common with same | ⟨isDouble, -, -, -⟩
    · rw [← same other member]
      exact Ty.isNumeric_iff.mpr (numeric other (List.mem_append_left _ member))
    · exact Ty.isNumeric_iff.mpr (.inr isDouble)

def IsBlock (node : Node) : Prop := ∃ statements, node.form = .block statements ∧ node.ty = .void

/-- What has a value, or calls a function that may have none. -/
inductive Expression (context : Context) : Node → Prop
  | literal {value : Value} {span : Span} (plain : Plain value.ty) :
      Expression context ⟨.literal value, value.ty, span⟩
  | name {name : String} {ty : Ty} {span : Span}
      (found : context.variableType? name = some ty) :
      Expression context ⟨.variable name, ty, span⟩
  | unary {operator : UnaryOp} {operand : Node} {ty : Ty} {span : Span}
      (typed : Expression context operand) (applies : operator.result? operand.ty = some ty) :
      Expression context ⟨.unary operator operand, ty, span⟩
  | binary {left right : Node} {operator : BinaryOp} {ty : Ty} {span : Span}
      (leftTyped : Expression context left) (rightTyped : Expression context right)
      (applies : operator.result? left.ty right.ty = some ty) :
      Expression context ⟨.binary left operator right, ty, span⟩
  | call {name : String} {arguments : List Node} {signature : Signature} {span : Span}
      (found : context.signature? name = some signature)
      (typed : ∀ argument ∈ arguments, Expression context argument)
      (taken : Takes signature.parameters arguments) :
      Expression context ⟨.call name arguments, signature.returns, span⟩
  | index {name : String} {position : Node} {ty : Ty} {span : Span}
      (found : context.variableType? name = some ty) (isList : ty.isList = true)
      (typed : Expression context position) (isInt : position.ty = .int) :
      Expression context ⟨.index name position, ty.element, span⟩
  | set {name : String} {value : Node} {ty : Ty} {span : Span}
      (found : context.variableType? name = some ty)
      (typed : Expression context value) (accepted : ty.accepts value.ty = true) :
      Expression context ⟨.assign name .set (some value), ty, span⟩
  | combine {name : String} {operator : BinaryOp} {value : Node} {ty result : Ty} {span : Span}
      (found : context.variableType? name = some ty) (combining : Combining operator)
      (typed : Expression context value) (applies : operator.result? ty value.ty = some result)
      (accepted : ty.accepts result = true) :
      Expression context ⟨.assign name (.compound operator) (some value), ty, span⟩
  | count {name : String} {operator : AssignOp} {ty : Ty} {span : Span}
      (found : context.variableType? name = some ty)
      (counting : operator = .increment ∨ operator = .decrement)
      (numeric : ty.isNumeric = true) :
      Expression context ⟨.assign name operator none, ty, span⟩
  | list {elements : List Node} {ty : Ty} {span : Span} (nonempty : elements ≠ [])
      (typed : ∀ element ∈ elements, Expression context element)
      (plain : ∀ element ∈ elements, Plain element.ty) (common : Common elements ty) :
      Expression context ⟨.list elements, .listOf ty.primitive, span⟩
  | chain {branches : List (Branch Form)} {otherwise : Node} {ty : Ty} {span : Span}
      (nonempty : branches ≠ []) (hasValue : ty ≠ .void)
      (guards : ∀ branch ∈ branches, ∀ guard, branch.guard? = some guard →
        Expression context guard)
      (decide : ∀ branch ∈ branches, ∀ guard, branch.guard? = some guard → guard.ty = .bool)
      (bodies : ∀ branch ∈ branches, Expression context branch.body)
      (same : ∀ branch ∈ branches, branch.body.ty = ty)
      (last : Expression context otherwise) (lastSame : otherwise.ty = ty) :
      Expression context ⟨.chain branches (some otherwise), ty, span⟩

theorem Expression.widened {context : Context} {node : Node} (typed : Expression context node) (span : Span) :
    Expression context { node with span := span } := by
  cases typed with
  | literal plain => exact .literal plain
  | name found => exact .name found
  | unary typed applies => exact .unary typed applies
  | binary leftTyped rightTyped applies => exact .binary leftTyped rightTyped applies
  | call found typed taken => exact .call found typed taken
  | index found isList typed isInt => exact .index found isList typed isInt
  | set found typed accepted => exact .set found typed accepted
  | combine found combining typed applies accepted =>
    exact .combine found combining typed applies accepted
  | count found counting numeric => exact .count found counting numeric
  | list nonempty typed plain common => exact .list nonempty typed plain common
  | chain nonempty hasValue guards decide bodies same last lastSame =>
    exact .chain nonempty hasValue guards decide bodies same last lastSame

/-- A variable with the value it starts with, which does not see the variable. -/
inductive Declaration (context : Context) : Node → Prop
  | declare {name : String} {ty : Ty} {initializer : Option Node} {span : Span}
      (declarable : Declarable ty) (fresh : context.innermost.vars.find? name = none)
      (typed : ∀ value, initializer = some value → Expression context value)
      (accepted : ∀ value, initializer = some value → ty.accepts value.ty = true) :
      Declaration context ⟨.declare name ty initializer, .void, span⟩

/-- Each statement fits the context that the ones before it leave behind. -/
def Sequence (fits : Context → Node → Prop) (context : Context) (statements : List Node) : Prop :=
  ∀ before node after, statements = before ++ node :: after → fits (context.afterAll before) node

inductive Statement : Grammar.Place → Context → Node → Prop
  | expression {place : Grammar.Place} {context : Context} {node : Node}
      (typed : Expression context node) : Statement place context node
  | declaration {place : Grammar.Place} {context : Context} {node : Node}
      (typed : Declaration context node) : Statement place context node
  | define {place : Grammar.Place} {context : Context} {function : Function} {span : Span}
      (returnable : Returnable function.returns)
      (declarable : ∀ parameter ∈ function.parameters, Declarable parameter.ty)
      (distinct : (function.parameters.map (·.name)).Nodup)
      (notNative : context.natives.find? function.name = none)
      (fresh : context.innermost.functions.find? function.name = none)
      (isBlock : IsBlock function.body)
      (body : Sequence (Statement ⟨false, some function.returns⟩)
        ((context.withFunction function.name function.signature).entering function.parameters)
        function.body.statements) :
      Statement place context ⟨.define function, .void, span⟩
  | returnNothing {place : Grammar.Place} {context : Context} {span : Span}
      (allowed : ∀ ty, place.returns = some ty → ty = .void) :
      Statement place context ⟨.returning none, .void, span⟩
  | returnValue {place : Grammar.Place} {context : Context} {value : Node} {span : Span}
      (typed : Expression context value)
      (accepted : ∀ ty, place.returns = some ty → ty.accepts value.ty = true) :
      Statement place context ⟨.returning (some value), .void, span⟩
  | breaking {place : Grammar.Place} {context : Context} {span : Span}
      (inLoop : place.inLoop = true) : Statement place context ⟨.breaking, .void, span⟩
  | continuing {place : Grammar.Place} {context : Context} {span : Span}
      (inLoop : place.inLoop = true) : Statement place context ⟨.continuing, .void, span⟩
  | repeating {place : Grammar.Place} {context : Context} {count body : Node} {span : Span}
      (typed : Expression context count) (isInt : count.ty = .int) (isBlock : IsBlock body)
      (rounds : Sequence (Statement { place with inLoop := true }) context.push body.statements) :
      Statement place context ⟨.repeating count body, .void, span⟩
  | whileTrue {place : Grammar.Place} {context : Context} {condition body : Node} {span : Span}
      (typed : Expression context condition) (isBool : condition.ty = .bool)
      (isBlock : IsBlock body)
      (rounds : Sequence (Statement { place with inLoop := true }) context.push body.statements) :
      Statement place context ⟨.whileTrue condition body, .void, span⟩
  | loop {place : Grammar.Place} {context : Context} {initializer condition step body : Node}
      {span : Span}
      (first : Expression context.push initializer ∨ Declaration context.push initializer)
      (typed : Expression (context.push.after initializer) condition)
      (isBool : condition.ty = .bool)
      (stepTyped : Expression (context.push.after initializer) step) (isBlock : IsBlock body)
      (rounds : Sequence (Statement { place with inLoop := true })
        (context.push.after initializer).push body.statements) :
      Statement place context ⟨.loop initializer condition step body, .void, span⟩
  | chain {place : Grammar.Place} {context : Context} {branches : List (Branch Form)}
      {otherwise : Option Node} {span : Span} (nonempty : branches ≠ [])
      (guards : ∀ branch ∈ branches, ∀ guard, branch.guard? = some guard →
        Expression context guard)
      (decide : ∀ branch ∈ branches, ∀ guard, branch.guard? = some guard → guard.ty = .bool)
      (areBlocks : ∀ branch ∈ branches, IsBlock branch.body)
      (bodies : ∀ branch ∈ branches,
        Sequence (Statement place) context.push branch.body.statements)
      (lastIsBlock : ∀ node, otherwise = some node → IsBlock node)
      (last : ∀ node, otherwise = some node →
        Sequence (Statement place) context.push node.statements) :
      Statement place context ⟨.chain branches otherwise, .void, span⟩

/-- A whole script: a block whose statements stand at the top level. -/
structure Program (context : Context) (root : Node) : Prop where
  isBlock : IsBlock root
  statements : Sequence (Statement ⟨false, none⟩) context root.statements

namespace Sequence

variable {fits : Context → Node → Prop} {context : Context}

theorem nil : Sequence fits context [] := by
  intro before node after split
  simp at split

theorem cons {first : Node} {rest : List Node} (head : fits context first)
    (tail : Sequence fits (context.after first) rest) : Sequence fits context (first :: rest) := by
  intro before node after split
  cases before with
  | nil =>
    obtain ⟨rfl, -⟩ := List.cons.inj split
    exact head
  | cons earlier before =>
    obtain ⟨rfl, restSplit⟩ := List.cons.inj split
    exact tail before node after restSplit

theorem head {first : Node} {rest : List Node} (all : Sequence fits context (first :: rest)) :
    fits context first := all [] first rest rfl

theorem tail {first : Node} {rest : List Node} (all : Sequence fits context (first :: rest)) :
    Sequence fits (context.after first) rest := by
  intro before node after split
  exact all (first :: before) node after (by rw [split, List.cons_append])

end Sequence

end Typing

end RobotScript
