import RobotScript.Proofs.Halting.Height
import RobotScript.Proofs.Relating.Congruence

/-! # Runs that finish

A way to finish is a property of runs that is kept where an evaluator puts runs together. What
it says of the nodes in a node it says of the node itself, for every form but those that run
statements in a scope of their own, go round or call: how far such a run may go depends on
what keeps it from going on for ever. -/
set_option autoImplicit false

namespace RobotScript

open Evaluation

variable {Host : Type}

theorem nodeHeight_le_branchHeight {branch : Branch Form} {part : Node}
    (member : part ∈ branch.parts) : nodeHeight part ≤ branchHeight branch := by
  cases branch with
  | test guard body span =>
    rcases List.mem_cons.mp member with rfl | member
    · exact Nat.le_max_left _ _
    · obtain rfl := List.mem_singleton.mp member
      exact Nat.le_max_right _ _
  | attempt body span =>
    obtain rfl := List.mem_singleton.mp member
    exact Nat.le_refl _

theorem nodeHeight_lt_of_mem_parts {node part : Node} (member : part ∈ node.parts) :
    nodeHeight part < nodeHeight node := by
  obtain ⟨form, ty, span⟩ := node
  refine Nat.lt_succ_of_le ?_
  cases form with
  | unary operator operand =>
    obtain rfl := List.mem_singleton.mp member
    exact Nat.le_refl _
  | binary left operator right =>
    rcases List.mem_cons.mp member with rfl | member
    · exact Nat.le_max_left _ _
    · obtain rfl := List.mem_singleton.mp member
      exact Nat.le_max_right _ _
  | returning value => exact nodeHeight_le_optionHeight member
  | declare name declared initializer => exact nodeHeight_le_optionHeight member
  | assign name operator value => exact nodeHeight_le_optionHeight member
  | call name arguments => exact nodeHeight_le_nodesHeight member
  | index name position =>
    obtain rfl := List.mem_singleton.mp member
    exact Nat.le_refl _
  | list elements => exact nodeHeight_le_nodesHeight member
  | repeating first second | whileTrue first second =>
    rcases List.mem_cons.mp member with rfl | member
    · exact Nat.le_max_left _ _
    · obtain rfl := List.mem_singleton.mp member
      exact Nat.le_max_right _ _
  | chain branches otherwise =>
    rcases List.mem_append.mp member with member | member
    · obtain ⟨branch, isBranch, isPart⟩ := List.mem_flatMap.mp member
      exact Nat.le_trans (nodeHeight_le_branchHeight isPart)
        (Nat.le_trans (branchHeight_le_branchesHeight isBranch) (Nat.le_max_left _ _))
    · exact Nat.le_trans (nodeHeight_le_optionHeight member) (Nat.le_max_right _ _)
  | literal | «variable» | block | breaking | continuing | define | loop => cases member

/-- A form that neither runs statements in a scope of their own nor goes round, calls or
defines. -/
def Form.isPlain : Form → Bool
  | .block _ | .define _ | .call _ _ | .loop _ _ _ _ | .repeating _ _ | .whileTrue _ _ => false
  | _ => true

/-- A way for runs to end that what they are put together from passes on to them, from stores
that keep what is asked of them. -/
structure Finishing (Good : Store → Prop) (Ends : (α : Type) → Run Host α → Prop) : Prop where
  pure : ∀ {α : Type} (value : α), Ends α (Pure.pure value)
  stop : ∀ {α : Type} (exit : Exit), Ends α (Run.stop exit)
  bind : ∀ {α β : Type} {first : Run Host α} {next : α → Run Host β}, Ends α first →
    (∀ value, Ends β (next value)) → Ends β (first >>= next)
  recover : ∀ {α β : Type} {body : Run Host α} {next : Except Exit α → Run Host β}, Ends α body →
    HandsOn next → (∀ result, Ends β (next result)) → Ends β (body.settle >>= next)
  onHost : ∀ {α : Type} (action : Host → α × Host), Ends α (Run.onHost action)
  reading : ∀ {α : Type} {next : Store → Run Host α},
    (∀ store, Good store → Ends α (next store)) → Ends α (Run.store >>= next)
  changeStore : ∀ {change : Store → Store}, (∀ store, Good store → Good (change store)) →
    Ends Unit (Run.changeStore change)
  define : ∀ {store : Store}, Good store → ∀ scope name value,
    Good (store.define scope name value)

namespace Finishing

variable {Good : Store → Prop} {Ends : (α : Type) → Run Host α → Prop}
variable {inner : Node → ScopeId → Run Host Value} {scope : ScopeId}

section

variable (finishing : Finishing Good Ends)

include finishing

theorem lift {α : Type} (span : Span) (outcome : Except Cause α) :
    Ends α (Run.lift span outcome) := by
  cases outcome with
  | ok value => exact finishing.pure value
  | error cause => exact finishing.stop _

theorem values {nodes : List Node} (each : ∀ node ∈ nodes, Ends Value (inner node scope)) :
    Ends (List Value) (Evaluation.values inner scope nodes) := by
  induction nodes with
  | nil => exact finishing.pure []
  | cons node rest ih =>
    refine finishing.bind (each node List.mem_cons_self) fun first => ?_
    refine finishing.bind (ih fun other member => each other (List.mem_cons_of_mem node member)) ?_
    exact fun others => finishing.pure (first :: others)

theorem optionalValue {value : Option Node}
    (each : ∀ node ∈ value.toList, Ends Value (inner node scope)) :
    Ends (Option Value) (Evaluation.optionalValue inner scope value) := by
  cases value with
  | none => exact finishing.pure none
  | some node =>
    exact finishing.bind (each node List.mem_cons_self) fun result => finishing.pure (some result)

theorem condition {node : Node} (ends : Ends Value (inner node scope)) :
    Ends Bool (Evaluation.condition inner node scope) :=
  finishing.bind ends fun value => finishing.lift node.span (truth value)

theorem decided (operator : BinaryOp) {left right : Node}
    (leftEnds : Ends Value (inner left scope)) (rightEnds : Ends Value (inner right scope)) :
    Ends Value (Evaluation.decided inner operator left right scope) := by
  refine finishing.bind (finishing.condition leftEnds) fun first => ?_
  split
  · exact finishing.pure (Value.bool first)
  · refine finishing.bind (finishing.condition rightEnds) fun second => ?_
    exact finishing.pure (Value.bool second)

theorem variableValue (name : String) (span : Span) :
    Ends Value (variableValue scope name span) := by
  refine finishing.reading fun store _ => ?_
  split
  · exact finishing.pure _
  · exact finishing.stop _

theorem callNative (native : Native Host) (name : String) (arguments : List Value)
    (span : Span) : Ends Value (callNative native name arguments span) := by
  refine finishing.bind (finishing.onHost _) fun given => ?_
  cases given with
  | error reason => exact finishing.stop _
  | ok result =>
    dsimp only
    split
    · exact finishing.pure _
    · exact finishing.stop _

theorem callResult (name : String) (returns : Ty) (span : Span) (result : Except Exit Value) :
    Ends Value (callResult name returns span result) := by
  have ended : Ends Value
      (if returns.isVoid then Pure.pure Value.void
        else Run.fail (.recoverable (.endedWithoutResult name returns)) span) := by
    split
    · exact finishing.pure Value.void
    · exact finishing.stop _
  rcases result with (fault | (value | _ | _)) | value
  · exact finishing.stop _
  · exact finishing.pure _
  · exact ended
  · exact ended
  · exact ended

theorem goesOn (result : Except Exit Value) : Ends Bool (goesOn result) := by
  rcases result with (fault | (value | _ | _)) | value
  · exact finishing.stop _
  · exact finishing.stop _
  · exact finishing.pure false
  · exact finishing.pure true
  · exact finishing.pure true

theorem round {body : Node} (ends : Ends Value (inner body scope)) {next : Run Host Value}
    (further : Ends Value next) :
    Ends Value (do
      if ← Evaluation.goesOn (← (inner body scope).settle) then next else return .void) := by
  refine finishing.recover ends (fun _ _ => rfl) fun result => ?_
  refine finishing.bind (finishing.goesOn result) fun goes => ?_
  cases goes with
  | true => exact further
  | false => exact finishing.pure Value.void

theorem consult (setup : Setup Host) (span : Span) (steps : Nat) :
    Ends Unit (tick.consult setup span steps) := by
  unfold Evaluation.tick.consult
  cases setup.watch with
  | none => exact finishing.pure ()
  | some watch =>
    refine finishing.bind (finishing.onHost (watch steps)) fun goesOn => ?_
    cases goesOn with
    | true => exact finishing.pure ()
    | false => exact finishing.stop _

theorem assign (name : String) (operator : AssignOp) {right : Option Node} (span : Span)
    (each : ∀ node ∈ right.toList, Ends Value (inner node scope)) :
    Ends Value (Evaluation.assign inner name operator right span scope) := by
  refine finishing.bind (finishing.optionalValue each) fun result => ?_
  refine finishing.bind (finishing.variableValue name span) fun current => ?_
  refine finishing.bind (finishing.lift span _) fun stored => finishing.reading fun store good => ?_
  cases assigned : store.assign? scope name (stored.widenTo current.ty) with
  | none => exact finishing.stop _
  | some after =>
    obtain ⟨owner, -, rfl⟩ := Store.assign?_eq_some assigned
    refine finishing.bind (finishing.changeStore fun _ _ => ?_) fun _ => finishing.pure _
    exact finishing.define good owner name _

theorem chain {branches : List (Branch Form)} {otherwise : Option Node}
    (each : ∀ node ∈ branches.flatMap Branch.parts ++ otherwise.toList,
      Ends Value (inner node scope)) :
    Ends Value (Evaluation.chain inner otherwise scope branches) := by
  induction branches with
  | nil =>
    cases otherwise with
    | none => exact finishing.pure Value.void
    | some node => exact each node List.mem_cons_self
  | cons branch rest ih =>
    rw [List.flatMap_cons, List.append_assoc] at each
    have others := ih fun node member => each node (List.mem_append_right branch.parts member)
    have here : ∀ node ∈ branch.parts, Ends Value (inner node scope) :=
      fun node member => each node (List.mem_append_left _ member)
    cases branch with
    | test guard body span =>
      refine finishing.bind (finishing.condition (here guard List.mem_cons_self)) fun taken => ?_
      cases taken with
      | true => exact here body (List.mem_cons_of_mem _ List.mem_cons_self)
      | false => exact others
    | attempt body span =>
      refine finishing.recover (here body List.mem_cons_self) ?_ fun result => ?_
      · intro fault fatal
        simp only [fatal, Bool.false_eq_true, if_false]
      · rcases result with (fault | target) | value
        · dsimp only
          split
          · exact others
          · exact finishing.stop _
        · exact finishing.stop _
        · exact finishing.pure value

/-- A call that finds a function that is alive runs its body; every other call ends here. -/
theorem invoke {setup : Setup Host} (name : String) (arguments : List Value) (span : Span)
    (called : ∀ store closure, Good store → store.function? scope name = some closure →
      Ends Value (Evaluation.callFunction setup inner closure name arguments span)) :
    Ends Value (Evaluation.invoke setup inner name arguments span scope) := by
  unfold Evaluation.invoke
  cases setup.natives.find? name with
  | some native => exact finishing.callNative native name arguments span
  | none =>
    refine finishing.reading fun store good => ?_
    cases found : store.function? scope name with
    | none => exact finishing.stop _
    | some closure =>
      dsimp only
      split
      · exact called store closure good found
      · exact finishing.stop _

/-- Nothing but its parts is to be known of a plain node. -/
theorem plain (setup : Setup Host) (fuel : Nat) {node : Node} (isPlain : node.form.isPlain = true)
    (parts : ∀ part ∈ node.parts, Ends Value (inner part scope)) :
    Ends Value (Evaluation.form setup inner fuel node scope) := by
  obtain ⟨form, ty, span⟩ := node
  cases form with
  | literal value => exact finishing.pure value
  | «variable» name => exact finishing.variableValue name span
  | unary operator operand =>
    refine finishing.bind (parts operand List.mem_cons_self) fun value => ?_
    exact finishing.lift span (operator.apply value)
  | binary left operator right =>
    have leftEnds := parts left List.mem_cons_self
    have rightEnds := parts right (List.mem_cons_of_mem left List.mem_cons_self)
    unfold Evaluation.form
    dsimp only
    split
    · exact finishing.decided operator leftEnds rightEnds
    · refine finishing.bind leftEnds fun first => finishing.bind rightEnds fun second => ?_
      exact finishing.lift span (operator.apply first second)
  | returning value =>
    exact finishing.bind (finishing.optionalValue parts) fun result => finishing.stop _
  | breaking => exact finishing.stop _
  | continuing => exact finishing.stop _
  | declare name declared initializer =>
    refine finishing.bind (finishing.optionalValue parts) fun value => ?_
    refine finishing.bind (finishing.changeStore fun store good => ?_) fun _ =>
      finishing.pure Value.void
    exact finishing.define good scope name _
  | assign name operator value => exact finishing.assign name operator span parts
  | index name position =>
    refine finishing.bind (parts position List.mem_cons_self) fun number => ?_
    refine finishing.bind (finishing.variableValue name span) fun list => ?_
    exact finishing.lift span (itemAt name list number)
  | list elements => exact finishing.bind (finishing.values parts) fun items => finishing.pure _
  | chain branches otherwise => exact finishing.chain parts
  | block | define | call | loop | repeating | whileTrue => cases isPlain

end

end Finishing

end RobotScript
