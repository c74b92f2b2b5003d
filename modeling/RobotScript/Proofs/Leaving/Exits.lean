import RobotScript.Proofs.Leaving.Confined

/-! # How nodes and scripts may end

Each form keeps its exits confined if its parts do, and so by induction on the fuel does
the whole evaluator: for any tree and on any machine, a fault lies at a node of the
tree or of a stored function, and a jump was made by a visited statement that it may
leave from. -/
set_option autoImplicit false

namespace RobotScript

open Evaluation

variable {Host : Type}

namespace Confined

variable {known : Span → Prop} {plain : Setup Host}
variable {inner : Node → ScopeId → Run (Watched Host) Value}

def Nested (known : Span → Prop) (inner : Node → ScopeId → Run (Watched Host) Value) : Prop :=
  ∀ node scope, Known known node →
    Confined known (fun jump source => Leaves jump source node) (inner node scope)

def LeavesSome (nodes : List Node) (jump : Jump) (source : Node) : Prop :=
  ∃ node ∈ nodes, Leaves jump source node

theorem Nested.member (nested : Nested known inner) {nodes : List Node} {node : Node}
    (member : node ∈ nodes) (here : Known known node) (scope : ScopeId) :
    Confined known (LeavesSome nodes) (inner node scope) :=
  (nested node scope here).mono fun _ _ leaves => ⟨node, member, leaves⟩

section

variable (nested : Nested known inner) {leaves : Jump → Node → Prop} {scope : ScopeId}

include nested

theorem node {node : Node} (here : Known known node)
    (through : ∀ jump source, Leaves jump source node → leaves jump source) :
    Confined known leaves (inner node scope) := (nested node scope here).mono through

theorem values {nodes : List Node} (here : ∀ node ∈ nodes, Known known node)
    (through : ∀ jump source, LeavesSome nodes jump source → leaves jump source) :
    Confined known leaves (Evaluation.values inner scope nodes) := by
  induction nodes with
  | nil => exact pure []
  | cons first rest ih =>
    refine bind (node nested (here first List.mem_cons_self) ?_) fun value => bind (ih ?_ ?_) ?_
    · exact fun jump source inside => through jump source ⟨first, List.mem_cons_self, inside⟩
    · exact fun other member => here other (List.mem_cons_of_mem first member)
    · rintro jump source ⟨other, member, inside⟩
      exact through jump source ⟨other, List.mem_cons_of_mem first member, inside⟩
    · exact fun others => pure (value :: others)

theorem optionalValue {value : Option Node} (here : ∀ node ∈ value.toList, Known known node)
    (through : ∀ jump source, LeavesSome value.toList jump source → leaves jump source) :
    Confined known leaves (Evaluation.optionalValue inner scope value) := by
  cases value with
  | none => exact pure none
  | some part =>
    have member := List.mem_singleton_self part
    refine bind (node nested (here part member) ?_) fun result => pure (some result)
    exact fun jump source inside => through jump source ⟨part, member, inside⟩

theorem condition {part : Node} (here : Known known part)
    (through : ∀ jump source, Leaves jump source part → leaves jump source) :
    Confined known leaves (Evaluation.condition inner part scope) :=
  bind (node nested here through) fun value => lift here.span (.truth value)

theorem decided (operator : BinaryOp) {left right : Node} (leftHere : Known known left)
    (rightHere : Known known right)
    (through : ∀ jump source, LeavesSome [left, right] jump source → leaves jump source) :
    Confined known leaves (Evaluation.decided inner operator left right scope) := by
  have fromLeft jump source (inside : Leaves jump source left) : leaves jump source :=
    through jump source ⟨left, List.mem_cons_self, inside⟩
  have fromRight jump source (inside : Leaves jump source right) : leaves jump source :=
    through jump source ⟨right, List.mem_cons_of_mem left List.mem_cons_self, inside⟩
  refine bind (condition nested leftHere fromLeft) fun first => ?_
  split
  · exact pure _
  · exact bind (condition nested rightHere fromRight) fun second => pure _

theorem statements {nodes : List Node} (here : ∀ node ∈ nodes, Known known node) :
    Confined known (LeavesSome nodes)
      (Evaluation.statements (Watching.setup plain) inner scope nodes) := by
  induction nodes with
  | nil => exact pure Value.void
  | cons first rest ih =>
    have firstHere := here first List.mem_cons_self
    refine bind (tick plain firstHere.span) fun _ => ?_
    refine bind (nested.member List.mem_cons_self firstHere scope) fun _ => ?_
    refine (ih fun other member => here other (List.mem_cons_of_mem first member)).mono ?_
    rintro jump source ⟨other, member, inside⟩
    exact ⟨other, List.mem_cons_of_mem first member, inside⟩

omit nested in
theorem variableValue (scope : ScopeId) (name : String) {span : Span} (here : known span) :
    Confined known leaves (Evaluation.variableValue scope name span : Run (Watched Host) Value) := by
  refine reading fun store _ => ?_
  cases store.get? scope name with
  | none => exact fatal _ here
  | some value => exact pure value

omit nested in
theorem callNative (native : Native Host) (name : String) (arguments : List Value) {span : Span}
    (here : known span) :
    Confined known leaves (Evaluation.callNative (native.beside fun _ _ visits => visits) name
      arguments span) := by
  refine bind (onHost fun _ => rfl) fun given => ?_
  cases given with
  | error reason => exact fail here ⟨rfl, by rintro ⟨⟩, by rintro ⟨⟩⟩
  | ok result =>
    dsimp only
    split
    · exact pure _
    · exact fatal _ here

theorem callFunction {closure : Closure} (stored : Known known closure.function.body)
    (name : String) (arguments : List Value) {span : Span} (here : known span) :
    Confined known leaves
      (Evaluation.callFunction (Watching.setup plain) inner closure name arguments span) := by
  refine bind depth fun depth => ?_
  split
  · exact fatal _ here
  · have body (frame : ScopeId) : Confined known (LeavesSome closure.function.body.statements)
        (Evaluation.statements (Watching.setup plain) inner frame
          closure.function.body.statements) :=
      statements nested fun part member => stored.statement member
    exact callee here (inScope body)

theorem invoke (name : String) (arguments : List Value) {span : Span} (here : known span) :
    Confined known leaves
      (Evaluation.invoke (Watching.setup plain) inner name arguments span scope) := by
  unfold Evaluation.invoke
  rw [Watching.find?_setup]
  cases plain.natives.find? name with
  | some native => exact callNative native name arguments here
  | none =>
    refine reading fun store knows => ?_
    cases found : store.function? scope name with
    | none => exact fatal _ here
    | some closure =>
      obtain ⟨home, -, stored⟩ := List.exists_of_findSome?_eq_some found
      dsimp only
      split
      · exact callFunction nested (knows name home closure stored) name arguments here
      · exact fatal _ here

theorem assign (name : String) (operator : AssignOp) {right : Option Node} {span : Span}
    (here : known span) (parts : ∀ node ∈ right.toList, Known known node)
    (through : ∀ jump source, LeavesSome right.toList jump source → leaves jump source) :
    Confined known leaves (Evaluation.assign inner name operator right span scope) := by
  refine bind (optionalValue nested parts through) fun value => ?_
  refine bind (variableValue scope name here) fun current => ?_
  refine bind (lift here (.updated name operator current value)) fun result => ?_
  refine reading fun store knows => ?_
  cases assigned : store.assign? scope name (result.widenTo current.ty) with
  | none => exact fatal _ here
  | some after =>
    obtain ⟨owner, -, rfl⟩ := Store.assign?_eq_some assigned
    exact bind (changeStore fun _ _ => knows.define owner name _) fun _ => pure _

theorem chain {branches : List (Branch Form)} {otherwise : Option Node}
    (here : ∀ node ∈ branches.flatMap Branch.parts ++ otherwise.toList, Known known node)
    (through : ∀ jump source,
      LeavesSome (branches.flatMap Branch.parts ++ otherwise.toList) jump source →
        leaves jump source) :
    Confined known leaves (Evaluation.chain inner otherwise scope branches) := by
  induction branches with
  | nil =>
    cases otherwise with
    | none => exact pure Value.void
    | some last =>
      have member := List.mem_singleton_self last
      exact node nested (here last member) fun jump source inside =>
        through jump source ⟨last, member, inside⟩
  | cons branch rest ih =>
    have split : (branch :: rest).flatMap Branch.parts ++ otherwise.toList =
        branch.parts ++ (rest.flatMap Branch.parts ++ otherwise.toList) := by
      rw [List.flatMap_cons, List.append_assoc]
    rw [split] at here through
    have others := ih (fun part member => here part (List.mem_append_right branch.parts member))
      fun jump source ⟨part, member, inside⟩ =>
        through jump source ⟨part, List.mem_append_right branch.parts member, inside⟩
    have first (part : Node) (member : part ∈ branch.parts) : Known known part :=
      here part (List.mem_append_left _ member)
    have leave (part : Node) (member : part ∈ branch.parts) (jump : Jump) (source : Node)
        (inside : Leaves jump source part) : leaves jump source :=
      through jump source ⟨part, List.mem_append_left _ member, inside⟩
    cases branch with
    | test guard body span =>
      have isGuard : guard ∈ (Branch.test guard body span).parts := List.mem_cons_self
      have isBody : body ∈ (Branch.test guard body span).parts :=
        List.mem_cons_of_mem guard List.mem_cons_self
      refine bind (condition nested (first guard isGuard) (leave guard isGuard)) fun taken => ?_
      cases taken with
      | true => exact node nested (first body isBody) (leave body isBody)
      | false => exact others
    | attempt body span =>
      have isBody : body ∈ (Branch.attempt body span).parts := List.mem_cons_self
      refine recover (node nested (first body isBody) (leave body isBody)) ?_ ?_ ?_
      · exact fun value => pure value
      · intro reason isKnown internal
        dsimp only
        split
        · exact others
        · exact fault isKnown internal
      · exact fun jump => .inr ⟨rfl, fun _ leaves => leaves⟩

/-- Of the jumps that leave the body of a loop only a return leaves the loop. -/
theorem round {body : Node} (here : Known known body)
    (through : ∀ value source, Leaves (.toCaller value) source body →
      leaves (.toCaller value) source)
    {next : Run (Watched Host) Value} (further : Confined known leaves next) :
    Confined known leaves (do
      if ← goesOn (← (inner body scope).settle) then next else return .void) := by
  refine recover (nested body scope here) (fun value => further) ?_ ?_
  · intro reason isKnown internal
    exact bind (fault isKnown internal) fun goes => by split; exacts [further, pure _]
  · intro jump
    cases jump with
    | toCaller value => exact .inr ⟨rfl, through value⟩
    | behindLoop => exact .inl (pure _)
    | nextRound => exact .inl further

theorem rounds {span : Span} (here : known span) {test body : Node} (testHere : Known known test)
    (bodyHere : Known known body)
    (ofTest : ∀ jump source, Leaves jump source test → leaves jump source)
    (ofBody : ∀ value source, Leaves (.toCaller value) source body →
      leaves (.toCaller value) source)
    {next : Run (Watched Host) Unit} (further : Confined known leaves next) (fuel : Nat) :
    Confined known leaves
      (Evaluation.rounds (Watching.setup plain) inner span test body next scope fuel) := by
  induction fuel with
  | zero => exact exhausted
  | succ fuel ih =>
    refine bind (tick plain here) fun _ => bind (condition nested testHere ofTest) fun taken => ?_
    cases taken with
    | false => exact pure _
    | true => exact round nested bodyHere ofBody (bind further fun _ => ih)

theorem repeated {span : Span} (here : known span) {body : Node} (bodyHere : Known known body)
    (ofBody : ∀ value source, Leaves (.toCaller value) source body →
      leaves (.toCaller value) source) (times : Nat) :
    Confined known leaves
      (Evaluation.repeated (Watching.setup plain) inner span body scope times) := by
  induction times with
  | zero => exact pure _
  | succ times ih => exact bind (tick plain here) fun _ => round nested bodyHere ofBody ih

end

/-! ## The evaluator -/

theorem form (nested : Nested known inner) (fuel : Nat) {node : Node} (here : Known known node)
    (scope : ScopeId) :
    Confined known (fun jump source => Leaves jump source node)
      (Watching.form plain inner fuel node scope) := by
  have span := here.span
  have parts (part : Node) (member : part ∈ node.components) : Known known part :=
    here.component member
  have through jump source (inside : LeavesSome node.components jump source) :
      Leaves jump source node := by
    obtain ⟨part, member, leaves⟩ := inside
    exact leaves.component member
  obtain ⟨form, ty, place⟩ := node
  cases form with
  | literal value => exact noted (pure value)
  | «variable» name => exact noted (variableValue scope name span)
  | unary operator operand =>
    refine noted (bind (node nested (parts operand List.mem_cons_self) ?_) fun value => ?_)
    · exact fun jump source leaves => through jump source ⟨operand, List.mem_cons_self, leaves⟩
    · exact lift span (.unary operator value)
  | binary left operator right =>
    have isRight : right ∈ [left, right] := List.mem_cons_of_mem left List.mem_cons_self
    refine noted ?_
    unfold Evaluation.form
    dsimp only
    split
    · exact decided nested operator (parts left List.mem_cons_self) (parts right isRight) through
    · refine bind (node nested (parts left List.mem_cons_self) ?_) fun first =>
        bind (node nested (parts right isRight) ?_) fun second => ?_
      · exact fun jump source leaves => through jump source ⟨left, List.mem_cons_self, leaves⟩
      · exact fun jump source leaves => through jump source ⟨right, isRight, leaves⟩
      · exact lift span (.binary operator first second)
  | block nodes =>
    have body (block : ScopeId) : Confined known
        (fun jump source => Leaves jump source ⟨.block nodes, ty, place⟩)
        (Evaluation.statements (Watching.setup plain) inner block nodes) :=
      (statements nested parts).mono through
    exact noted (inScope body)
  | returning value =>
    exact jumping (fun result => .toCaller (result.getD .void)) (optionalValue nested parts through)
      fun result => Leaves.self trivial
  | breaking => exact jumping (fun _ => .behindLoop) (pure ()) fun _ => Leaves.self trivial
  | continuing => exact jumping (fun _ => .nextRound) (pure ()) fun _ => Leaves.self trivial
  | declare name declared initializer =>
    refine noted (bind (optionalValue nested parts through) fun value => bind ?_ fun _ => pure _)
    exact changeStore fun store knows => knows.define scope name _
  | assign name operator value => exact noted (assign nested name operator span parts through)
  | define function =>
    refine noted (bind (changeStore fun store knows => ?_) fun _ => pure _)
    exact Store.Stores.defineFunction knows (here.body rfl) scope
  | call name arguments =>
    refine bind (values nested parts through) fun results => ?_
    exact noted (invoke nested name results span)
  | index name position =>
    refine noted (bind (node nested (parts position List.mem_cons_self) ?_) fun number => ?_)
    · exact fun jump source leaves => through jump source ⟨position, List.mem_cons_self, leaves⟩
    · refine bind (variableValue scope name span) fun list => ?_
      exact lift span (.itemAt name list number)
  | list elements => exact noted (bind (values nested parts through) fun items => pure _)
  | loop initializer test step body =>
    have isTest : test ∈ [initializer, test, step] := List.mem_cons_of_mem _ List.mem_cons_self
    have isStep : step ∈ [initializer, test, step] :=
      List.mem_cons_of_mem _ (List.mem_cons_of_mem _ List.mem_cons_self)
    -- `break` and `continue` leave the body and not the loop, which is why the body stands apart.
    have inside (header : ScopeId) : Confined known
        (fun jump source => Leaves jump source ⟨.loop initializer test step body, ty, place⟩)
        (inner initializer header >>= fun _ =>
          Evaluation.rounds (Watching.setup plain) inner place test body
            (inner step header >>= fun _ => Pure.pure ()) header fuel) := by
      refine bind (node nested (parts initializer List.mem_cons_self) ?_) fun _ =>
        rounds nested span (parts test isTest) (here.round rfl) ?_ ?_ (bind
          (node nested (parts step isStep) ?_) fun _ => pure ()) fuel
      · exact fun jump source leaves => through jump source ⟨initializer, List.mem_cons_self, leaves⟩
      · exact fun jump source leaves => through jump source ⟨test, isTest, leaves⟩
      · exact fun value source leaves => leaves.round rfl ⟨value, rfl⟩
      · exact fun jump source leaves => through jump source ⟨step, isStep, leaves⟩
    exact noted (inScope inside)
  | repeating count body =>
    have countHere := parts count List.mem_cons_self
    refine noted (bind (node nested countHere ?_) fun number =>
      bind (lift countHere.span (.repetitions number)) fun times =>
        repeated nested span (here.round rfl) ?_ times)
    · exact fun jump source leaves => through jump source ⟨count, List.mem_cons_self, leaves⟩
    · exact fun value source leaves => leaves.round rfl ⟨value, rfl⟩
  | whileTrue test body =>
    refine noted (rounds nested span (parts test List.mem_cons_self) (here.round rfl) ?_ ?_
      (pure ()) fuel)
    · exact fun jump source leaves => through jump source ⟨test, List.mem_cons_self, leaves⟩
    · exact fun value source leaves => leaves.round rfl ⟨value, rfl⟩
  | chain branches otherwise => exact noted (chain nested parts through)

/-- For any tree and on any machine, exits stem from what was visited. -/
theorem evaluate (known : Span → Prop) (plain : Setup Host) (fuel : Nat) :
    Nested known (Watching.evaluate plain fuel) := by
  induction fuel with
  | zero => exact fun _ _ _ => exhausted
  | succ fuel ih => exact fun node scope here => form ih fuel here scope

end Confined

end RobotScript
