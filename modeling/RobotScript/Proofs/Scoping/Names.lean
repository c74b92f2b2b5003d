import RobotScript.Tree

/-! # Free names and capture

Variables and functions are named apart. A name is free in a tree if the tree
uses it where no declaration of the tree itself is in view. A function captures
if a statement behind it, in the same scope, declares a name that is free in the
function and that the scope had not declared before: the function was read with
one meaning of the name and will run with another. -/
set_option autoImplicit false

namespace RobotScript

inductive Name where
  | var (name : String)
  | func (name : String)
deriving DecidableEq, Repr

/-- What a statement adds to the scope it stands in. -/
def Typed.declares (node : Node) : Option Name :=
  match node.form with
  | .declare name _ _ => some (.var name)
  | .define function => some (.func function.name)
  | _ => none

def Parameter.names (parameters : List Parameter) : List Name :=
  parameters.map fun parameter => .var parameter.name

/-! ## Free names -/

/-- The names that are left when what a declaration adds is in view. -/
def Typed.hides (node : Node) (names : List Name) : List Name :=
  names.filter fun name => node.declares ≠ some name

mutual

def Form.free : Form → List Name
  | .literal _ | .breaking | .continuing => []
  | .variable name => [.var name]
  | .unary _ operand => nodeFree operand
  | .binary left _ right => nodeFree left ++ nodeFree right
  | .block statements => sequenceFree statements
  | .returning value => optionFree value
  | .declare _ _ initializer => optionFree initializer
  | .assign name _ value => .var name :: optionFree value
  | .define definition =>
    (definitionFree definition).filter fun name => name ≠ .func definition.name
  | .call name arguments => .func name :: nodesFree arguments
  | .index name position => .var name :: nodeFree position
  | .list elements => nodesFree elements
  | .loop initializer condition step body =>
    nodeFree initializer ++ initializer.hides (nodeFree condition ++ nodeFree step ++ nodeFree body)
  | .repeating count body => nodeFree count ++ nodeFree body
  | .whileTrue condition body => nodeFree condition ++ nodeFree body
  | .chain branches otherwise => branchesFree branches ++ optionFree otherwise

def nodeFree : Typed Form → List Name
  | ⟨form, _, _⟩ => form.free

def nodesFree : List (Typed Form) → List Name
  | [] => []
  | node :: rest => nodeFree node ++ nodesFree rest

/-- In a block, a body or a script each statement sees the ones before it. -/
def sequenceFree : List (Typed Form) → List Name
  | [] => []
  | node :: rest => nodeFree node ++ node.hides (sequenceFree rest)

def optionFree : Option (Typed Form) → List Name
  | none => []
  | some node => nodeFree node

def branchFree : Branch Form → List Name
  | .test guard body _ => nodeFree guard ++ nodeFree body
  | .attempt body _ => nodeFree body

def branchesFree : List (Branch Form) → List Name
  | [] => []
  | branch :: rest => branchFree branch ++ branchesFree rest

/-- What the body of a function uses and its parameters do not bind; the
function's own name may be among it. -/
def definitionFree : Definition Form → List Name
  | ⟨_, _, parameters, body⟩ =>
    (nodeFree body).filter fun name => name ∉ Parameter.names parameters

end

/-! ## Capture -/

/-- What a statement keeps using for as long as its scope lives. -/
def Typed.keeps (node : Node) : List Name :=
  match node.form with
  | .define function => definitionFree function
  | _ => []

/-- The statements of one scope, with the names it has declared before them: a
name that a function keeps using is declared by then or by no later statement. -/
def keepsMeanings (declared : List Name) : List Node → Bool
  | [] => true
  | node :: rest =>
    let declared := node.declares.toList ++ declared
    (node.keeps.all fun name =>
      declared.contains name || rest.all fun later => later.declares ≠ some name) &&
      keepsMeanings declared rest

/-- A scope of a script: what it declares when it is opened, and its statements. -/
structure Extent where
  opening : List Name
  statements : List Node

mutual

/-- The scopes of a form; if it is a block, `opening` belongs to the block. -/
def Form.extents (opening : List Name) : Form → List Extent
  | .literal _ | .variable _ | .breaking | .continuing => []
  | .unary _ operand => nodeExtents [] operand
  | .binary left _ right => nodeExtents [] left ++ nodeExtents [] right
  | .block statements => ⟨opening, statements⟩ :: nodesExtents statements
  | .returning value => optionExtents value
  | .declare _ _ initializer => optionExtents initializer
  | .assign _ _ value => optionExtents value
  | .define definition => definitionExtents definition
  | .call _ arguments => nodesExtents arguments
  | .index _ position => nodeExtents [] position
  | .list elements => nodesExtents elements
  | .loop initializer condition step body =>
    ⟨[], [initializer]⟩ :: (nodeExtents [] initializer ++
      (nodeExtents [] condition ++ nodeExtents [] step ++ nodeExtents [] body))
  | .repeating count body => nodeExtents [] count ++ nodeExtents [] body
  | .whileTrue condition body => nodeExtents [] condition ++ nodeExtents [] body
  | .chain branches otherwise => branchesExtents branches ++ optionExtents otherwise

def nodeExtents (opening : List Name) : Typed Form → List Extent
  | ⟨form, _, _⟩ => form.extents opening

def nodesExtents : List (Typed Form) → List Extent
  | [] => []
  | node :: rest => nodeExtents [] node ++ nodesExtents rest

def optionExtents : Option (Typed Form) → List Extent
  | none => []
  | some node => nodeExtents [] node

def branchExtents : Branch Form → List Extent
  | .test guard body _ => nodeExtents [] guard ++ nodeExtents [] body
  | .attempt body _ => nodeExtents [] body

def branchesExtents : List (Branch Form) → List Extent
  | [] => []
  | branch :: rest => branchExtents branch ++ branchesExtents rest

def definitionExtents : Definition Form → List Extent
  | ⟨_, _, parameters, body⟩ => nodeExtents (Parameter.names parameters) body

end

/-- No scope of the tree declares, behind a function, a name that the function
uses with another meaning. -/
def CaptureFree (opening : List Name) (node : Node) : Prop :=
  ∀ extent ∈ nodeExtents opening node, keepsMeanings extent.opening extent.statements = true

instance (opening : List Name) (node : Node) : Decidable (CaptureFree opening node) :=
  inferInstanceAs (Decidable (∀ extent ∈ _, _))

end RobotScript
