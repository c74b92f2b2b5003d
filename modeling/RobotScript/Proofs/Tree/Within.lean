import RobotScript.Tree

/-! # The nodes of a tree

Which nodes a node has right inside it: its components, the body that a loop runs in
each round, and the body of a function, all of which are its children. `Within` goes down
all three and `Outside` all but the last, so that it stays outside of the functions of a
tree; what holds `Throughout` a tree holds of its root and throughout each child. -/
set_option autoImplicit false

namespace RobotScript

/-- The nodes that are evaluated in the same scope as a node itself. -/
def Branch.parts : Branch Form → List Node
  | .test guard body _ => [guard, body]
  | .attempt body _ => [body]

namespace Typed

def parts (node : Node) : List Node :=
  match node.form with
  | .unary _ operand => [operand]
  | .binary left _ right => [left, right]
  | .returning value => value.toList
  | .declare _ _ initializer => initializer.toList
  | .assign _ _ value => value.toList
  | .call _ arguments => arguments
  | .index _ position => [position]
  | .list elements => elements
  | .repeating count body => [count, body]
  | .whileTrue condition body => [condition, body]
  | .chain branches otherwise => branches.flatMap Branch.parts ++ otherwise.toList
  | _ => []

/-- The nodes right inside a node, but for the body of a loop or of a function. -/
def components (node : Node) : List Node :=
  match node.form with
  | .literal _ | .variable _ | .breaking | .continuing | .define _ => []
  | .unary _ operand => [operand]
  | .binary left _ right => [left, right]
  | .block statements => statements
  | .returning value => value.toList
  | .declare _ _ initializer => initializer.toList
  | .assign _ _ value => value.toList
  | .call _ arguments => arguments
  | .index _ position => [position]
  | .list elements => elements
  | .loop initializer condition step _ => [initializer, condition, step]
  | .repeating count _ => [count]
  | .whileTrue condition _ => [condition]
  | .chain branches otherwise => branches.flatMap Branch.parts ++ otherwise.toList

def round? (node : Node) : Option Node :=
  match node.form with
  | .loop _ _ _ body | .repeating _ body | .whileTrue _ body => some body
  | _ => none

def function? (node : Node) : Option Function :=
  match node.form with
  | .define function => some function
  | _ => none

/-- All nodes right inside a node, in the order of their text. -/
def children (node : Node) : List Node :=
  match node.form with
  | .loop initializer condition step body => [initializer, condition, step, body]
  | .repeating count body => [count, body]
  | .whileTrue condition body => [condition, body]
  | .define function => [function.body]
  | _ => node.components

def branches (node : Node) : List (Branch Form) :=
  match node.form with
  | .chain branches _ => branches
  | _ => []

def otherwise? (node : Node) : Option Node :=
  match node.form with
  | .chain _ otherwise => otherwise
  | _ => none

theorem component_mem_children {node part : Node} (member : part ∈ node.components) :
    part ∈ node.children := by
  obtain ⟨form, ty, span⟩ := node
  cases form with
  | loop initializer condition step body => exact List.mem_append_left [body] member
  | repeating count body => exact List.mem_append_left [body] member
  | whileTrue condition body => exact List.mem_append_left [body] member
  | define function => cases member
  | _ => exact member

theorem round_mem_children {node body : Node} (isRound : node.round? = some body) :
    body ∈ node.children := by
  obtain ⟨form, ty, span⟩ := node
  cases form with
  | loop initializer condition step body =>
    cases isRound
    exact List.mem_append_right [initializer, condition, step] (List.mem_singleton_self _)
  | repeating count body =>
    cases isRound
    exact List.mem_append_right [count] (List.mem_singleton_self _)
  | whileTrue condition body =>
    cases isRound
    exact List.mem_append_right [condition] (List.mem_singleton_self _)
  | _ => cases isRound

theorem body_mem_children {node : Node} {function : Function}
    (defines : node.function? = some function) : function.body ∈ node.children := by
  obtain ⟨form, ty, span⟩ := node
  cases form with
  | define function =>
    cases defines
    exact List.mem_singleton_self _
  | _ => cases defines

theorem mem_statements {node part : Node} (member : part ∈ node.statements) :
    part = node ∨ part ∈ node.components := by
  obtain ⟨form, ty, span⟩ := node
  cases form with
  | block statements => exact .inr member
  | _ => exact .inl (List.mem_singleton.mp member)

end Typed

/-- The nodes of a tree, those of its functions among them. -/
inductive Within (root : Node) : Node → Prop
  | self : Within root root
  | component {node part : Node} (within : Within root node) (member : part ∈ node.components) :
      Within root part
  | round {node body : Node} (within : Within root node) (isRound : node.round? = some body) :
      Within root body
  | body {node : Node} {function : Function} (within : Within root node)
      (defines : node.function? = some function) : Within root function.body

/-- The nodes of a tree that lie in none of its functions. -/
inductive Outside (root : Node) : Node → Prop
  | self : Outside root root
  | component {node part : Node} (outside : Outside root node) (member : part ∈ node.components) :
      Outside root part
  | round {node body : Node} (outside : Outside root node) (isRound : node.round? = some body) :
      Outside root body

namespace Within

variable {root middle node : Node}

theorem trans (outer : Within root middle) (inner : Within middle node) : Within root node := by
  induction inner with
  | self => exact outer
  | component _ member ih => exact .component ih member
  | round _ isRound ih => exact .round ih isRound
  | body _ defines ih => exact .body ih defines

theorem cases_root (within : Within root node) :
    node = root ∨ (∃ part ∈ root.components, Within part node) ∨
      (∃ body, root.round? = some body ∧ Within body node) ∨
        ∃ function, root.function? = some function ∧ Within function.body node := by
  induction within with
  | self => exact .inl rfl
  | component _ member ih =>
    rcases ih with rfl | ⟨part, isPart, inside⟩ | ⟨body, isBody, inside⟩ |
      ⟨function, defines, inside⟩
    · exact .inr (.inl ⟨_, member, .self⟩)
    · exact .inr (.inl ⟨part, isPart, inside.component member⟩)
    · exact .inr (.inr (.inl ⟨body, isBody, inside.component member⟩))
    · exact .inr (.inr (.inr ⟨function, defines, inside.component member⟩))
  | round _ isRound ih =>
    rcases ih with rfl | ⟨part, isPart, inside⟩ | ⟨body, isBody, inside⟩ |
      ⟨function, defines, inside⟩
    · exact .inr (.inr (.inl ⟨_, isRound, .self⟩))
    · exact .inr (.inl ⟨part, isPart, inside.round isRound⟩)
    · exact .inr (.inr (.inl ⟨body, isBody, inside.round isRound⟩))
    · exact .inr (.inr (.inr ⟨function, defines, inside.round isRound⟩))
  | body _ defined ih =>
    rcases ih with rfl | ⟨part, isPart, inside⟩ | ⟨body, isBody, inside⟩ |
      ⟨function, defines, inside⟩
    · exact .inr (.inr (.inr ⟨_, defined, .self⟩))
    · exact .inr (.inl ⟨part, isPart, inside.body defined⟩)
    · exact .inr (.inr (.inl ⟨body, isBody, inside.body defined⟩))
    · exact .inr (.inr (.inr ⟨function, defines, inside.body defined⟩))

end Within

def Throughout (holds : Node → Prop) (root : Node) : Prop := ∀ node, Within root node → holds node

namespace Throughout

variable {holds : Node → Prop} {root : Node}

theorem here (all : Throughout holds root) : holds root := all root .self

theorem of_children (here : holds root)
    (children : ∀ part ∈ root.children, Throughout holds part) : Throughout holds root := by
  intro node within
  rcases within.cases_root with rfl | ⟨part, member, inside⟩ | ⟨_, isRound, inside⟩ |
    ⟨function, defines, inside⟩
  · exact here
  · exact children part (Typed.component_mem_children member) node inside
  · exact children _ (Typed.round_mem_children isRound) node inside
  · exact children _ (Typed.body_mem_children defines) node inside

theorem component (all : Throughout holds root) {part : Node} (member : part ∈ root.components) :
    Throughout holds part :=
  fun node within => all node ((Within.self.component member).trans within)

theorem round (all : Throughout holds root) {body : Node} (isRound : root.round? = some body) :
    Throughout holds body := fun node within => all node ((Within.self.round isRound).trans within)

theorem body (all : Throughout holds root) {function : Function}
    (defines : root.function? = some function) : Throughout holds function.body :=
  fun node within => all node ((Within.self.body defines).trans within)

theorem respan (all : Throughout holds root) {span : Span}
    (here : holds { root with span := span }) : Throughout holds { root with span := span } := by
  intro node within
  rcases within.cases_root with rfl | ⟨part, member, inside⟩ | ⟨body, isRound, inside⟩ |
    ⟨function, defines, inside⟩
  · exact here
  · exact all.component member node inside
  · exact all.round isRound node inside
  · exact all.body defines node inside

end Throughout

def Known (known : Span → Prop) (root : Node) : Prop := ∀ node, Within root node → known node.span

namespace Known

variable {known : Span → Prop} {node : Node}

theorem span (here : Known known node) : known node.span := here node .self

theorem component (here : Known known node) {part : Node} (member : part ∈ node.components) :
    Known known part := Throughout.component here member

theorem round (here : Known known node) {body : Node} (isRound : node.round? = some body) :
    Known known body := Throughout.round here isRound

theorem body (here : Known known node) {function : Function}
    (defines : node.function? = some function) : Known known function.body :=
  Throughout.body here defines

theorem statement (here : Known known node) {part : Node} (member : part ∈ node.statements) :
    Known known part := by
  rcases Typed.mem_statements member with rfl | member
  · exact here
  · exact here.component member

theorem mono {more : Span → Prop} (here : Known known node)
    (weaker : ∀ span, known span → more span) : Known more node :=
  fun other within => weaker _ (here other within)

end Known

end RobotScript
