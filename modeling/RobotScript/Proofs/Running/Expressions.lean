import RobotScript.Proofs.Running.Ready

/-! # Expressions run to values of their types

Each form of expression other than a call, given an evaluator of nested nodes that
is sound. Expressions leave every scope as it is, up to values. -/
set_option autoImplicit false

namespace RobotScript

open Typing Evaluation

variable {Host : Type} {stage : Stage Host} {inner : Node → ScopeId → Run (Traced Host) Value}
variable {context : Context} {outlook : Outlook} {machine : Machine (Traced Host)} {scope : Nat}

abbrev RunsTyped (stage : Stage Host) (run : Run (Traced Host) Value)
    (machine : Machine (Traced Host)) (ty : Ty) : Prop :=
  Runs stage machine.store.size run machine (fun value _ => value.Is ty) Exit.Quiet

def Fitting (nodes : List Node) (values : List Value) : Prop :=
  List.Forall₂ (fun (node : Node) (value : Value) => value.Is node.ty) nodes values

theorem Fitting.of_mem {nodes : List Node} {values : List Value} {value : Value}
    (fitting : Fitting nodes values) (member : value ∈ values) :
    ∃ node ∈ nodes, value.Is node.ty := by
  induction fitting with
  | nil => cases member
  | @cons node first nodes values typed _ ih =>
    rcases List.mem_cons.mp member with rfl | behind
    · exact ⟨node, List.mem_cons_self, typed⟩
    · obtain ⟨other, isNode, otherTyped⟩ := ih behind
      exact ⟨other, List.mem_cons_of_mem node isNode, otherTyped⟩

theorem values_runs (sound : Sound stage inner) {nodes : List Node}
    (typed : ∀ node ∈ nodes, Expression context node)
    (ready : Ready stage context outlook machine scope (nodesFree nodes)
      (nodesLinks outlook nodes) (nodesExtents nodes)) :
    Runs stage machine.store.size (values inner scope nodes) machine
      (fun values _ => Fitting nodes values) Exit.Quiet := by
  induction nodes generalizing machine with
  | nil => exact .pure ready.world .nil
  | cons node rest ih =>
    refine (sound.expression (typed node List.mem_cons_self) ready.first).bind ?_
    intro value after leads valueTyped
    have restReady := ready.second.later leads ready.inside
    have others := ih (fun other member => typed other (List.mem_cons_of_mem node member)) restReady
    rw [leads.size] at others
    refine others.bind ?_
    intro values behind further fitting
    exact .pure further.world (.cons valueTyped fitting)

def FittingOption : Option Node → Option Value → Prop
  | none, none => True
  | some node, some value => value.Is node.ty
  | _, _ => False

theorem optionalValue_runs (sound : Sound stage inner) {value : Option Node}
    (typed : ∀ node, value = some node → Expression context node)
    (ready : Ready stage context outlook machine scope (optionFree value)
      (optionLinks outlook value) (optionExtents value)) :
    Runs stage machine.store.size (optionalValue inner scope value) machine
      (fun result _ => FittingOption value result) Exit.Quiet := by
  cases value with
  | none => exact .pure ready.world trivial
  | some node =>
    refine (sound.expression (typed node rfl) ready).bind ?_
    intro made after leads madeTyped
    exact .pure leads.world madeTyped

theorem condition_runs (sound : Sound stage inner) {node : Node} (typed : Expression context node)
    (isBool : node.ty = .bool) (ready : ReadyNode stage context outlook machine scope node) :
    Runs stage machine.store.size (condition inner node scope) machine (fun _ _ => True)
      Exit.Quiet := by
  refine (sound.expression typed ready).bind ?_
  intro value after leads valueTyped
  rw [isBool] at valueTyped
  obtain ⟨result, isResult⟩ := truth_computes valueTyped
  rw [isResult]
  exact .pure leads.world trivial

/-! ## Operators, lists and chains -/

theorem unary_runs (sound : Sound stage inner) {operator : UnaryOp} {operand : Node} {ty : Ty}
    {span : Span} (typed : Expression context operand)
    (applies : operator.result? operand.ty = some ty)
    (ready : ReadyNode stage context outlook machine scope ⟨.unary operator operand, ty, span⟩) :
    RunsTyped stage (do
      let value ← inner operand scope
      Run.lift span (operator.apply value)) machine ty := by
  refine (sound.expression typed ready).bind ?_
  intro value after leads valueTyped
  exact .lift leads.world (UnaryOp.apply_computes valueTyped applies) (fun _ made => made)
    fun _ => trivial

theorem decided_runs (sound : Sound stage inner) {operator : BinaryOp} {left right : Node}
    {span : Span} (leftTyped : Expression context left) (rightTyped : Expression context right)
    (leftBool : left.ty = .bool) (rightBool : right.ty = .bool)
    (ready : ReadyNode stage context outlook machine scope
      ⟨.binary left operator right, .bool, span⟩) :
    RunsTyped stage (decided inner operator left right scope) machine .bool := by
  refine (condition_runs sound leftTyped leftBool ready.first).bind ?_
  intro first after leads _
  split
  · exact .pure leads.world (Value.bool_is _)
  · have rightReady := ready.second.later leads ready.inside
    have second := condition_runs sound rightTyped rightBool rightReady
    rw [leads.size] at second
    refine second.bind ?_
    intro last behind further _
    exact .pure further.world (Value.bool_is _)

theorem binary_runs (sound : Sound stage inner) {left right : Node} {operator : BinaryOp} {ty : Ty}
    {span : Span} (leftTyped : Expression context left) (rightTyped : Expression context right)
    (applies : operator.result? left.ty right.ty = some ty)
    (ready : ReadyNode stage context outlook machine scope
      ⟨.binary left operator right, ty, span⟩) :
    RunsTyped stage (if operator = .and || operator = .or then
        decided inner operator left right scope
      else do
        let first ← inner left scope
        let second ← inner right scope
        Run.lift span (operator.apply first second)) machine ty := by
  split
  · rename_i decides
    have logical : operator = .and ∨ operator = .or := by simpa using decides
    have bools : (left.ty = .bool ∧ right.ty = .bool) ∧ ty = .bool := by
      rcases logical with rfl | rfl
      · obtain ⟨both, ⟨⟩⟩ := Option.ite_none_right_eq_some.mp applies
        exact ⟨by simpa using both, rfl⟩
      · obtain ⟨both, ⟨⟩⟩ := Option.ite_none_right_eq_some.mp applies
        exact ⟨by simpa using both, rfl⟩
    obtain ⟨⟨leftBool, rightBool⟩, rfl⟩ := bools
    exact decided_runs sound leftTyped rightTyped leftBool rightBool ready
  · refine (sound.expression leftTyped ready.first).bind ?_
    intro first after leads firstTyped
    have rightReady := ready.second.later leads ready.inside
    have second := sound.expression rightTyped rightReady
    rw [leads.size] at second
    refine second.bind ?_
    intro last behind further lastTyped
    exact .lift further.world (BinaryOp.apply_computes firstTyped lastTyped applies)
      (fun _ made => made) fun _ => trivial

theorem widened_items {elements : List Node} {values : List Value} {ty : Ty}
    (fitting : Fitting elements values) (isScalar : ty.isList = false)
    (common : ∀ element ∈ elements, ty.accepts element.ty = true) :
    ∀ item ∈ values.map (Value.widenTo (.element (.listOf ty.primitive))),
      item.ty = .scalar ty.primitive := by
  have scalar : Ty.element (.listOf ty.primitive) = ty := by
    obtain ⟨primitive, isList⟩ := ty
    cases isScalar
    rfl
  intro item member
  obtain ⟨value, isValue, rfl⟩ := List.mem_map.mp member
  obtain ⟨element, isElement, typed⟩ := fitting.of_mem isValue
  rw [scalar]
  exact (typed.widenTo (common element isElement)).ty.trans (by rw [← scalar]; rfl)

theorem Typing.Common.accepts {elements : List Node} {ty : Ty} (common : Common elements ty)
    (nonempty : elements ≠ []) (plain : ∀ element ∈ elements, Plain element.ty) :
    ty.isList = false ∧ ∀ element ∈ elements, ty.accepts element.ty = true := by
  have accepts : ∀ {target source : Ty}, target ≠ .void → source ≠ .void →
      (target = source ∨ (target = .double ∧ source = .int)) → target.accepts source = true := by
    intro target source targetValue sourceValue fits
    simp [Ty.accepts, Ty.isVoid, targetValue, sourceValue, fits]
  rcases common with same | ⟨rfl, numeric, -, -⟩
  · obtain ⟨first, member⟩ := List.exists_mem_of_ne_nil elements nonempty
    have isPlain := plain first member
    rw [same first member] at isPlain
    refine ⟨isPlain.1, ?_⟩
    intro element isElement
    rw [same element isElement]
    exact accepts isPlain.2 isPlain.2 (.inl rfl)
  · refine ⟨rfl, ?_⟩
    intro element isElement
    rcases numeric element isElement with isInt | isDouble
    · rw [isInt]
      rfl
    · rw [isDouble]
      rfl

theorem list_runs (sound : Sound stage inner) {elements : List Node} (ty : Ty) {span : Span}
    (nonempty : elements ≠ []) (typed : ∀ element ∈ elements, Expression context element)
    (plain : ∀ element ∈ elements, Plain element.ty) (common : Common elements ty)
    (ready : ReadyNode stage context outlook machine scope
      ⟨.list elements, .listOf ty.primitive, span⟩) :
    RunsTyped stage (do
      let items ← values inner scope elements
      return .list ty.primitive (items.map (Value.widenTo (.element (.listOf ty.primitive)))))
      machine (.listOf ty.primitive) := by
  refine (values_runs sound typed ready).bind ?_
  intro items after leads fitting
  obtain ⟨isScalar, accepted⟩ := common.accepts nonempty plain
  exact .pure leads.world ⟨rfl, widened_items fitting isScalar accepted⟩

/-! ## Chains -/

theorem Ready.branch {branches : List (Branch Form)} {branch : Branch Form}
    (ready : Ready stage context outlook machine scope (branchesFree branches)
      (branchesLinks outlook branches) (branchesExtents branches))
    (member : branch ∈ branches) :
    Ready stage context outlook machine scope (branchFree branch) (branchLinks outlook branch)
      (branchExtents branch) := by
  induction branches with
  | nil => cases member
  | cons first rest ih =>
    rcases List.mem_cons.mp member with rfl | behind
    · exact ready.first
    · exact ih ready.second behind

theorem Ready.body {branch : Branch Form}
    (ready : Ready stage context outlook machine scope (branchFree branch)
      (branchLinks outlook branch) (branchExtents branch)) :
    ReadyNode stage context outlook machine scope branch.body := by
  cases branch with
  | test guard body span => exact ready.second
  | attempt body span => exact ready

theorem Ready.guard {branch : Branch Form} {guard : Node}
    (ready : Ready stage context outlook machine scope (branchFree branch)
      (branchLinks outlook branch) (branchExtents branch)) (isGuard : branch.guard? = some guard) :
    ReadyNode stage context outlook machine scope guard := by
  cases branch with
  | test guard body span =>
    cases isGuard
    exact ready.first
  | attempt body span => cases isGuard

/-- A chain ends as its branches do. A branch that fails passes on to the next one,
and what it did to the values of variables stays. -/
theorem chain_runs {branches : List (Branch Form)} {otherwise : Option Node} {bound : Nat}
    {fits : Value → Prop} {bad : Exit → Prop} (quiet : ∀ exit : Exit, exit.Quiet → bad exit)
    (world : World stage machine)
    (guards : ∀ branch ∈ branches, ∀ guard, branch.guard? = some guard →
      ∀ later, Leads stage bound machine later →
        Runs stage bound (condition inner guard scope) later (fun _ _ => True) Exit.Quiet)
    (bodies : ∀ branch ∈ branches, ∀ later, Leads stage bound machine later →
      Runs stage bound (inner branch.body scope) later (fun value _ => fits value) bad)
    (last : ∀ node, otherwise = some node → ∀ later, Leads stage bound machine later →
      Runs stage bound (inner node scope) later (fun value _ => fits value) bad)
    (none_ : otherwise = none → fits .void) :
    Runs stage bound (chain inner otherwise scope branches) machine (fun value _ => fits value)
      bad := by
  induction branches generalizing machine with
  | nil =>
    cases otherwise with
    | none => exact .pure world (none_ rfl)
    | some node => exact last node rfl machine (.refl world bound)
  | cons branch rest ih =>
    -- Whatever the branch does, the ones behind it may run after it.
    have further : ∀ later, Leads stage bound machine later →
        Runs stage bound (chain inner otherwise scope rest) later (fun value _ => fits value)
          bad := by
      intro later leads
      refine ih leads.world ?_ ?_ ?_
      · intro other member guard isGuard next beyond
        exact guards other (List.mem_cons_of_mem branch member) guard isGuard next
          (leads.trans beyond)
      · intro other member next beyond
        exact bodies other (List.mem_cons_of_mem branch member) next (leads.trans beyond)
      · intro node isLast next beyond
        exact last node isLast next (leads.trans beyond)
    cases branch with
    | test guard body span =>
      have tested := guards _ List.mem_cons_self guard rfl machine (.refl world bound)
      refine (tested.mono (Nat.le_refl bound) (fun _ _ _ here => here) quiet).bind ?_
      intro taken later leads _
      cases taken with
      | true => exact bodies _ List.mem_cons_self later leads
      | false => exact further later leads
    | attempt body span =>
      have tried := bodies _ List.mem_cons_self machine (.refl world bound)
      refine (tried.settle).bind ?_
      intro ended later leads ends
      rcases ended with (fault | jump) | value
      · dsimp only
        split
        · exact further later leads
        · exact .stop leads.world ends
      · exact .stop leads.world ends
      · exact .pure leads.world ends

end RobotScript
