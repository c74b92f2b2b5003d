import RobotScript.Proofs.Scoping.Names
import RobotScript.Proofs.Tree.WithoutSpans

/-! # Names and scopes look at no span

What a tree uses, declares and captures is the same wherever it stands. -/
set_option autoImplicit false

namespace RobotScript

theorem declares_withoutSpans (node : Node) : (nodeWithoutSpans node).declares = node.declares := by
  obtain ⟨form, ty, span⟩ := node
  cases form with
  | define function =>
    obtain ⟨name, returns, parameters, body⟩ := function
    rfl
  | _ => rfl

theorem hides_withoutSpans (node : Node) (names : List Name) :
    (nodeWithoutSpans node).hides names = node.hides names := by
  rw [Typed.hides, Typed.hides, declares_withoutSpans]

mutual

theorem free_withoutSpans : ∀ form : Form, form.withoutSpans.free = form.free
  | .literal _ | .variable _ | .breaking | .continuing => rfl
  | .unary _ operand => nodeFree_withoutSpans operand
  | .binary left _ right =>
    congrArg₂ (· ++ ·) (nodeFree_withoutSpans left) (nodeFree_withoutSpans right)
  | .block statements => sequenceFree_withoutSpans statements
  | .returning value => optionFree_withoutSpans value
  | .declare _ _ initializer => optionFree_withoutSpans initializer
  | .assign name _ value => congrArg (List.cons (Name.var name)) (optionFree_withoutSpans value)
  | .define ⟨name, _, parameters, body⟩ => by
    simp only [Form.withoutSpans, definitionWithoutSpans, Form.free, definitionFree,
      nodeFree_withoutSpans body]
  | .call name arguments => congrArg (List.cons (Name.func name)) (nodesFree_withoutSpans arguments)
  | .index name position => congrArg (List.cons (Name.var name)) (nodeFree_withoutSpans position)
  | .list elements => nodesFree_withoutSpans elements
  | .loop initializer condition step body => by
    simp only [Form.withoutSpans, Form.free, hides_withoutSpans,
      nodeFree_withoutSpans initializer, nodeFree_withoutSpans condition,
      nodeFree_withoutSpans step, nodeFree_withoutSpans body]
  | .repeating count body =>
    congrArg₂ (· ++ ·) (nodeFree_withoutSpans count) (nodeFree_withoutSpans body)
  | .whileTrue condition body =>
    congrArg₂ (· ++ ·) (nodeFree_withoutSpans condition) (nodeFree_withoutSpans body)
  | .chain branches otherwise =>
    congrArg₂ (· ++ ·) (branchesFree_withoutSpans branches) (optionFree_withoutSpans otherwise)

theorem nodeFree_withoutSpans : ∀ node : Typed Form,
    nodeFree (nodeWithoutSpans node) = nodeFree node
  | ⟨form, _, _⟩ => free_withoutSpans form

theorem nodesFree_withoutSpans : ∀ nodes : List (Typed Form),
    nodesFree (nodesWithoutSpans nodes) = nodesFree nodes
  | [] => rfl
  | node :: rest => congrArg₂ (· ++ ·) (nodeFree_withoutSpans node) (nodesFree_withoutSpans rest)

theorem sequenceFree_withoutSpans : ∀ nodes : List (Typed Form),
    sequenceFree (nodesWithoutSpans nodes) = sequenceFree nodes
  | [] => rfl
  | node :: rest => by
    simp only [nodesWithoutSpans, sequenceFree, hides_withoutSpans, nodeFree_withoutSpans node,
      sequenceFree_withoutSpans rest]

theorem optionFree_withoutSpans : ∀ value : Option (Typed Form),
    optionFree (optionWithoutSpans value) = optionFree value
  | none => rfl
  | some node => nodeFree_withoutSpans node

theorem branchFree_withoutSpans : ∀ branch : Branch Form,
    branchFree (branchWithoutSpans branch) = branchFree branch
  | .test guard body _ =>
    congrArg₂ (· ++ ·) (nodeFree_withoutSpans guard) (nodeFree_withoutSpans body)
  | .attempt body _ => nodeFree_withoutSpans body

theorem branchesFree_withoutSpans : ∀ branches : List (Branch Form),
    branchesFree (branchesWithoutSpans branches) = branchesFree branches
  | [] => rfl
  | branch :: rest =>
    congrArg₂ (· ++ ·) (branchFree_withoutSpans branch) (branchesFree_withoutSpans rest)

end

/-! ## Scopes -/

def Extent.bare (extent : Extent) : Extent :=
  ⟨extent.opening, nodesWithoutSpans extent.statements⟩

mutual

theorem extents_withoutSpans (opening : List Name) : ∀ form : Form,
    form.withoutSpans.extents opening = (form.extents opening).map Extent.bare
  | .literal _ | .variable _ | .breaking | .continuing => rfl
  | .unary _ operand => nodeExtents_withoutSpans [] operand
  | .binary left _ right => by
    simp only [Form.withoutSpans, Form.extents, List.map_append, nodeExtents_withoutSpans [] left,
      nodeExtents_withoutSpans [] right]
  | .block statements =>
    congrArg (List.cons (Extent.bare ⟨opening, statements⟩)) (nodesExtents_withoutSpans statements)
  | .returning value => optionExtents_withoutSpans value
  | .declare _ _ initializer => optionExtents_withoutSpans initializer
  | .assign _ _ value => optionExtents_withoutSpans value
  | .define ⟨_, _, parameters, body⟩ => nodeExtents_withoutSpans (Parameter.names parameters) body
  | .call _ arguments => nodesExtents_withoutSpans arguments
  | .index _ position => nodeExtents_withoutSpans [] position
  | .list elements => nodesExtents_withoutSpans elements
  | .loop initializer condition step body => by
    simp only [Form.withoutSpans, Form.extents, List.map_cons, List.map_append, Extent.bare,
      nodesWithoutSpans, nodeExtents_withoutSpans [] initializer,
      nodeExtents_withoutSpans [] condition, nodeExtents_withoutSpans [] step,
      nodeExtents_withoutSpans [] body]
  | .repeating count body => by
    simp only [Form.withoutSpans, Form.extents, List.map_append, nodeExtents_withoutSpans [] count,
      nodeExtents_withoutSpans [] body]
  | .whileTrue condition body => by
    simp only [Form.withoutSpans, Form.extents, List.map_append,
      nodeExtents_withoutSpans [] condition, nodeExtents_withoutSpans [] body]
  | .chain branches otherwise => by
    simp only [Form.withoutSpans, Form.extents, List.map_append,
      branchesExtents_withoutSpans branches, optionExtents_withoutSpans otherwise]

theorem nodeExtents_withoutSpans (opening : List Name) : ∀ node : Typed Form,
    nodeExtents opening (nodeWithoutSpans node) = (nodeExtents opening node).map Extent.bare
  | ⟨form, _, _⟩ => extents_withoutSpans opening form

theorem nodesExtents_withoutSpans : ∀ nodes : List (Typed Form),
    nodesExtents (nodesWithoutSpans nodes) = (nodesExtents nodes).map Extent.bare
  | [] => rfl
  | node :: rest => by
    simp only [nodesWithoutSpans, nodesExtents, List.map_append,
      nodeExtents_withoutSpans [] node, nodesExtents_withoutSpans rest]

theorem optionExtents_withoutSpans : ∀ value : Option (Typed Form),
    optionExtents (optionWithoutSpans value) = (optionExtents value).map Extent.bare
  | none => rfl
  | some node => nodeExtents_withoutSpans [] node

theorem branchExtents_withoutSpans : ∀ branch : Branch Form,
    branchExtents (branchWithoutSpans branch) = (branchExtents branch).map Extent.bare
  | .test guard body _ => by
    simp only [branchWithoutSpans, branchExtents, List.map_append,
      nodeExtents_withoutSpans [] guard, nodeExtents_withoutSpans [] body]
  | .attempt body _ => nodeExtents_withoutSpans [] body

theorem branchesExtents_withoutSpans : ∀ branches : List (Branch Form),
    branchesExtents (branchesWithoutSpans branches) = (branchesExtents branches).map Extent.bare
  | [] => rfl
  | branch :: rest => by
    simp only [branchesWithoutSpans, branchesExtents, List.map_append,
      branchExtents_withoutSpans branch, branchesExtents_withoutSpans rest]

end

theorem keeps_withoutSpans (node : Node) : (nodeWithoutSpans node).keeps = node.keeps := by
  obtain ⟨form, ty, span⟩ := node
  cases form with
  | define function =>
    obtain ⟨name, returns, parameters, body⟩ := function
    show List.filter _ (nodeFree (nodeWithoutSpans body)) = List.filter _ (nodeFree body)
    rw [nodeFree_withoutSpans]
  | _ => rfl

theorem all_withoutSpans (nodes : List Node) (name : Name) :
    ((nodesWithoutSpans nodes).all fun later => later.declares ≠ some name) =
      nodes.all fun later => later.declares ≠ some name := by
  induction nodes with
  | nil => rfl
  | cons node rest ih =>
    rw [nodesWithoutSpans, List.all_cons, List.all_cons, declares_withoutSpans, ih]

theorem keepsMeanings_withoutSpans (declared : List Name) (nodes : List Node) :
    keepsMeanings declared (nodesWithoutSpans nodes) = keepsMeanings declared nodes := by
  induction nodes generalizing declared with
  | nil => rfl
  | cons node rest ih =>
    simp only [nodesWithoutSpans, keepsMeanings, keeps_withoutSpans, declares_withoutSpans,
      all_withoutSpans, ih]

theorem captureFree_withoutSpans (opening : List Name) (node : Node) :
    CaptureFree opening (nodeWithoutSpans node) ↔ CaptureFree opening node := by
  unfold CaptureFree
  rw [nodeExtents_withoutSpans, List.forall_mem_map]
  simp only [Extent.bare, keepsMeanings_withoutSpans]

theorem CaptureFree.same {opening : List Name} {node other : Node}
    (captureFree : CaptureFree opening node) (same : other.Same node) :
    CaptureFree opening other := by
  rw [← captureFree_withoutSpans, same, captureFree_withoutSpans]
  exact captureFree

end RobotScript
