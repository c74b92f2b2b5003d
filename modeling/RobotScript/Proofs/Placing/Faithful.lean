import RobotScript.Proofs.Placing.Texts
import RobotScript.Proofs.Tree.Within

/-! # Faithful spans

A node is faithful to a text if its span is one of whole tokens of the text and holds
the spans of what stands right inside the node, in their order and without overlap; the
branches of a chain, which are no nodes, have such spans as well. The rules here say how
faithful nodes are put together: between two spans, up to the last node, as a chain. -/
set_option autoImplicit false

namespace RobotScript

variable {text : List Char} {low middle high : Nat}

/-- The span is one of whole tokens of the text and holds these spans in a row. -/
structure Span.Holds (text : List Char) (inside : List Span) (span : Span) : Prop where
  within : span.In text
  aligned : span.Aligned text
  row : Row span.start.index span.stop.index inside

theorem Span.Holds.lies {inside spans : List Span} {span : Span} (holds : span.Holds text inside)
    (row : Row low high spans) (member : span ∈ spans) : span.Lies text low high := by
  obtain ⟨starts, -, stops⟩ := row.inside span member
  exact ⟨holds.within, holds.aligned, starts, stops⟩

def Branch.Faithful (text : List Char) (branch : Branch Form) : Prop :=
  branch.span.Holds text (branch.parts.map (·.span))

/-- The spans of a node, of its children and of its branches fit each other and the text. -/
structure Faithful (text : List Char) (node : Node) : Prop where
  holds : node.span.Holds text (node.children.map (·.span))
  branches : ∀ branch ∈ node.branches, branch.Faithful text
  chained : Row node.span.start.index node.span.stop.index
    (node.branches.map Branch.span ++ node.otherwise?.toList.map (·.span))

theorem Faithful.plain {node : Node} (holds : node.span.Holds text (node.children.map (·.span)))
    (noBranches : node.branches = []) (noOtherwise : node.otherwise? = none) :
    Faithful text node := by
  refine ⟨holds, ?_, ?_⟩
  · rw [noBranches]
    rintro _ ⟨⟩
  · rw [noBranches, noOtherwise]
    exact .nil holds.within.ordered

theorem Faithful.extend {node : Node} (faithful : Faithful text node) {span : Span}
    (within : span.In text) (aligned : span.Aligned text)
    (before : span.start.index ≤ node.span.start.index)
    (behind : node.span.stop.index ≤ span.stop.index) :
    Faithful text { node with span := span } :=
  ⟨⟨within, aligned, faithful.holds.row.widen before behind⟩, faithful.branches,
    faithful.chained.widen before behind⟩

/-! ## Nodes in a row -/

structure Sits (text : List Char) (low high : Nat) (node : Node) : Prop where
  lies : node.span.Lies text low high
  faithful : Throughout (Faithful text) node

structure Lined (text : List Char) (low high : Nat) (nodes : List Node) : Prop where
  row : Row low high (nodes.map (·.span))
  faithful : ∀ node ∈ nodes, Throughout (Faithful text) node

theorem Sits.widen {node : Node} {less more : Nat} (sits : Sits text low high node)
    (before : less ≤ low) (behind : high ≤ more) : Sits text less more node :=
  ⟨sits.lies.widen before behind, sits.faithful⟩

theorem Sits.from_start {node : Node} (sits : Sits text low high node) :
    Sits text node.span.start.index high node :=
  ⟨sits.lies.tight.widen (Nat.le_refl _) sits.lies.stops, sits.faithful⟩

theorem Sits.upto_stop {node : Node} (sits : Sits text low high node) :
    Sits text low node.span.stop.index node :=
  ⟨sits.lies.tight.widen sits.lies.starts (Nat.le_refl _), sits.faithful⟩

namespace Lined

variable {nodes others : List Node} {node : Node}

theorem nil (ordered : low ≤ high) : Lined text low high [] := ⟨.nil ordered, by rintro _ ⟨⟩⟩

theorem single (sits : Sits text low high node) : Lined text low high [node] := by
  refine ⟨.single sits.lies.starts sits.lies.within.ordered sits.lies.stops, fun part member => ?_⟩
  exact List.mem_singleton.mp member ▸ sits.faithful

theorem widen {less more : Nat} (lined : Lined text low high nodes) (before : less ≤ low)
    (behind : high ≤ more) : Lined text less more nodes :=
  ⟨lined.row.widen before behind, lined.faithful⟩

theorem lies (lined : Lined text low high nodes) (member : node ∈ nodes) :
    node.span.Lies text low high :=
  (lined.faithful node member).here.holds.lies lined.row (List.mem_map_of_mem member)

theorem append (one : Lined text low middle nodes) (two : Lined text middle high others) :
    Lined text low high (nodes ++ others) := by
  refine ⟨?_, fun part member => ?_⟩
  · rw [List.map_append]
    exact one.row.append two.row
  · exact (List.mem_append.mp member).elim (one.faithful part) (two.faithful part)

theorem snoc (one : Lined text low middle nodes) (sits : Sits text middle high node) :
    Lined text low high (nodes ++ [node]) := one.append (.single sits)

theorem cons (sits : Sits text low middle node) (two : Lined text middle high nodes) :
    Lined text low high (node :: nodes) := (single sits).append two

theorem upto_last (lined : Lined text low high (nodes ++ [node])) :
    Lined text low node.span.stop.index (nodes ++ [node]) := by
  have row := lined.row
  rw [List.map_append] at row
  refine ⟨?_, lined.faithful⟩
  rw [List.map_append]
  exact row.upto_last

end Lined

namespace Sits

variable {node : Node} {nodes : List Node} {first second : Span}

theorem of_children (lies : node.span.Lies text low high)
    (children : Lined text node.span.start.index node.span.stop.index node.children)
    (noBranches : node.branches = []) (noOtherwise : node.otherwise? = none) :
    Sits text low high node :=
  ⟨lies, .of_children (.plain ⟨lies.within, lies.aligned, children.row⟩ noBranches noOtherwise)
    children.faithful⟩

theorem leaf (lies : node.span.Lies text low high) (childless : node.children = [])
    (noBranches : node.branches = []) (noOtherwise : node.otherwise? = none) :
    Sits text low high node :=
  of_children lies (childless ▸ .nil lies.within.ordered) noBranches noOtherwise

theorem between {later : Nat} (opening : first.Lies text low middle)
    (children : Lined text middle later node.children) (closing : second.Lies text later high)
    (whole : node.span = first.through second) (noBranches : node.branches = [])
    (noOtherwise : node.otherwise? = none) : Sits text low high node := by
  refine of_children (whole ▸ opening.through children.row.ordered closing) ?_ noBranches
    noOtherwise
  rw [whole]
  exact children.widen opening.start_le closing.le_stop

/-- From a span to the last of the children, which begin where the span does or later. -/
theorem upto_last {last : Node} (opening : first.Lies text low middle)
    (children : Lined text first.start.index high (nodes ++ [last]))
    (whole : node.span = first.through last.span) (same : node.children = nodes ++ [last])
    (noBranches : node.branches = []) (noOtherwise : node.otherwise? = none) :
    Sits text low high node := by
  have lies := children.lies (List.mem_append_right nodes (List.mem_singleton_self last))
  refine of_children (whole ▸ opening.onwards lies) ?_ noBranches noOtherwise
  rw [whole, same]
  exact children.upto_last

theorem upto_only {part : Node} (opening : first.Lies text low middle)
    (sits : Sits text first.start.index high part) (whole : node.span = first.through part.span)
    (same : node.children = [part]) (noBranches : node.branches = [])
    (noOtherwise : node.otherwise? = none) : Sits text low high node :=
  upto_last opening (.snoc (.nil (Nat.le_refl _)) sits) whole same noBranches noOtherwise

theorem upto_value {value : Option Node} (opening : first.Lies text low middle)
    (missing : second.Lies text first.start.index high)
    (sits : ∀ part, value = some part → Sits text first.start.index high part)
    (whole : node.span = first.through ((value.map (·.span)).getD second))
    (same : node.children = value.toList) (noBranches : node.branches = [])
    (noOtherwise : node.otherwise? = none) : Sits text low high node := by
  cases value with
  | none => exact leaf (whole ▸ opening.onwards missing) same noBranches noOtherwise
  | some part => exact upto_only opening (sits part rfl) whole same noBranches noOtherwise

theorem group {later : Nat} (opening : first.Lies text low middle)
    (sits : Sits text middle later node) (closing : second.Lies text later high) :
    Sits text low high { node with span := first.through second } := by
  have lies := opening.through (Nat.le_trans sits.lies.starts sits.lies.start_le) closing
  refine ⟨lies, sits.faithful.respan ?_⟩
  refine sits.faithful.here.extend lies.within lies.aligned ?_ ?_
  · exact Nat.le_trans opening.start_le sits.lies.starts
  · exact Nat.le_trans sits.lies.stops closing.le_stop

end Sits

/-! ## Branches in a row -/

/-- The branch lies between two places of the text, and its parts stand in a row in it. -/
structure BranchSits (text : List Char) (low high : Nat) (branch : Branch Form) : Prop where
  lies : branch.span.Lies text low high
  parts : Lined text branch.span.start.index branch.span.stop.index branch.parts

theorem BranchSits.body_within {branch : Branch Form} (sits : BranchSits text low high branch) :
    branch.body.span.In text := by
  have isPart : branch.body ∈ branch.parts := by
    cases branch with
    | test guard body span => exact List.mem_cons_of_mem _ List.mem_cons_self
    | attempt body span => exact List.mem_cons_self
  exact (sits.parts.lies isPart).within

structure Chained (text : List Char) (low high : Nat) (branches : List (Branch Form)) : Prop where
  row : Row low high (branches.map Branch.span)
  faithful : ∀ branch ∈ branches, branch.Faithful text
  parts : ∀ branch ∈ branches, ∀ part ∈ branch.parts, Throughout (Faithful text) part

namespace Chained

variable {branches : List (Branch Form)} {branch : Branch Form}

theorem nil (ordered : low ≤ high) : Chained text low high [] :=
  ⟨.nil ordered, by rintro _ ⟨⟩, by rintro _ ⟨⟩⟩

theorem widen {less more : Nat} (chained : Chained text low high branches) (before : less ≤ low)
    (behind : high ≤ more) : Chained text less more branches :=
  ⟨chained.row.widen before behind, chained.faithful, chained.parts⟩

theorem snoc (chained : Chained text low middle branches)
    (sits : BranchSits text middle high branch) :
    Chained text low high (branches ++ [branch]) := by
  obtain ⟨lies, parts⟩ := sits
  refine ⟨?_, fun other member => ?_, fun other member => ?_⟩
  · rw [List.map_append]
    exact chained.row.append (.single lies.starts lies.within.ordered lies.stops)
  · rcases List.mem_append.mp member with earlier | last
    · exact chained.faithful other earlier
    · exact List.mem_singleton.mp last ▸ ⟨lies.within, lies.aligned, parts.row⟩
  · rcases List.mem_append.mp member with earlier | last
    · exact chained.parts other earlier
    · exact List.mem_singleton.mp last ▸ parts.faithful

theorem lies (chained : Chained text low high branches) (member : branch ∈ branches) :
    branch.span.Lies text low high :=
  Span.Holds.lies (chained.faithful branch member) chained.row (List.mem_map_of_mem member)

theorem lined (chained : Chained text low high branches) :
    Lined text low high (branches.flatMap Branch.parts) := by
  refine ⟨?_, fun part member => ?_⟩
  · rw [List.map_flatMap]
    exact chained.row.flatMap fun branch member => (chained.faithful branch member).row
  · obtain ⟨branch, isBranch, isPart⟩ := List.mem_flatMap.mp member
    exact chained.parts branch isBranch part isPart

theorem upto_last (chained : Chained text low high (branches ++ [branch])) :
    Chained text low branch.span.stop.index (branches ++ [branch]) := by
  have row := chained.row
  rw [List.map_append] at row
  refine ⟨?_, chained.faithful, chained.parts⟩
  rw [List.map_append]
  exact row.upto_last

theorem sits {first second : Span} {otherwise : Option Node} (ty : Ty)
    (lies : (first.through second).Lies text low high)
    (chained : Chained text first.start.index middle branches)
    (last : Lined text middle second.stop.index otherwise.toList) :
    Sits text low high ⟨.chain branches otherwise, ty, first.through second⟩ := by
  have children := chained.lined.append last
  refine ⟨lies, .of_children ⟨⟨lies.within, lies.aligned, children.row⟩, chained.faithful, ?_⟩
    children.faithful⟩
  exact chained.row.append last.row

end Chained

end RobotScript
