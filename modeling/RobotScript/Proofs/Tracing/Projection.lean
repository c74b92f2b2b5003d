import RobotScript.Proofs.Tracing.Bare

/-! # Runs that look the same

A run projects to another if, without spans and with what a view shows of the host,
both end the same from the same machine. The evaluator projects: it looks at no
span but to say where a fault was, and at the host only through the natives and the
watch. -/
set_option autoImplicit false

namespace RobotScript

open Evaluation

variable {Host Shown α β γ δ : Type} {view : Host → Shown}

def Projects (view : Host → Shown) (change : α → β) (run : Run Host α) (other : Run Shown β) :
    Prop :=
  ∀ machine, Outcome.bare view change (run machine) = other (machine.bare view)

namespace Projects

variable {change : α → β} {run : Run Host α} {other : Run Shown β}

theorem pure (value : α) :
    Projects view change (Pure.pure value) (Pure.pure (change value)) := fun _ => rfl

theorem exhausted : Projects view change Run.exhausted Run.exhausted := fun _ => rfl

theorem stop (exit : Exit) : Projects view change (Run.stop exit) (Run.stop exit.bare) :=
  fun _ => rfl

theorem fail (cause : Cause) (span : Span) :
    Projects view change (Run.fail cause span) (Run.fail cause default) := fun _ => rfl

theorem bind {further : γ → δ} {next : α → Run Host γ} {last : β → Run Shown δ}
    (first : Projects view change run other)
    (second : ∀ value, Projects view further (next value) (last (change value))) :
    Projects view further (run >>= next) (other >>= last) := by
  intro machine
  have here := first machine
  change Outcome.bare view further (Run.bind run next machine) =
    Run.bind other last (machine.bare view)
  unfold Run.bind
  rw [← here]
  rcases run machine with _ | ⟨exit | value, after⟩
  · rfl
  · rfl
  · exact second value after

theorem settle (runs : Projects view change run other) :
    Projects view (bareResult change) run.settle other.settle := by
  intro machine
  have here := runs machine
  unfold Run.settle
  rw [← here]
  rcases run machine with _ | ⟨result, after⟩ <;> rfl

theorem lift (outcome : Except Cause α) (span : Span) :
    Projects view id (Run.lift span outcome) (Run.lift default outcome) := by
  cases outcome with
  | ok value => exact pure value
  | error cause => exact fail cause span

theorem store : Projects view Store.bare Run.store Run.store := fun _ => rfl

theorem depth : Projects view id Run.depth Run.depth := fun _ => rfl

theorem countStep : Projects view id Run.countStep Run.countStep := fun _ => rfl

theorem changeStore {one two : Store → Store} (same : ∀ store, (one store).bare = two store.bare) :
    Projects view id (Run.changeStore one) (Run.changeStore two) := by
  intro machine
  obtain ⟨store, host, steps, depth⟩ := machine
  show some (Except.ok (), (⟨(one store).bare, view host, steps, depth⟩ : Machine Shown)) =
    some (Except.ok (), ⟨two store.bare, view host, steps, depth⟩)
  rw [same]

theorem onHost {one : Host → α × Host} {two : Shown → α × Shown}
    (results : ∀ host, (one host).1 = (two (view host)).1)
    (hosts : ∀ host, view (one host).2 = (two (view host)).2) :
    Projects view id (Run.onHost one) (Run.onHost two) := by
  intro machine
  obtain ⟨store, host, steps, depth⟩ := machine
  show some (Except.ok (one host).1, (⟨store.bare, view (one host).2, steps, depth⟩ : Machine Shown)) =
    some (Except.ok (two (view host)).1, ⟨store.bare, (two (view host)).2, steps, depth⟩)
  rw [results, hosts]

theorem inScope {body : ScopeId → Run Host α} {shown : ScopeId → Run Shown β}
    (parent : ScopeId) (vars : Bindings Value)
    (bodies : ∀ id, Projects view change (body id) (shown id)) :
    Projects view change (Run.inScope parent vars body) (Run.inScope parent vars shown) := by
  intro machine
  have here := bodies machine.store.size
    { machine with store := machine.store.opened (some parent) vars }
  simp only [Machine.bare, Store.opened_bare] at here
  unfold Run.inScope
  simp only [Machine.bare, Store.size_bare, ← here]
  rcases body machine.store.size _ with _ | ⟨result, after⟩
  · rfl
  · simp [Outcome.bare, Machine.bare, Store.closed_bare]

theorem deeper (runs : Projects view change run other) :
    Projects view change (Run.deeper run) (Run.deeper other) := by
  intro machine
  have here := runs { machine with depth := machine.depth + 1 }
  simp only [Machine.bare] at here
  unfold Run.deeper
  simp only [Machine.bare, ← here]
  rcases run _ with _ | ⟨result, after⟩ <;> rfl

end Projects

/-! ## The evaluator -/

/-- A setup that does to what is shown of the host what another does to the host. -/
structure Shows (view : Host → Shown) (setup : Setup Host) (shown : Setup Shown) : Prop where
  limits : setup.limits = shown.limits
  natives : ∀ name, Option.Rel (fun (native : Native Host) (other : Native Shown) =>
      native.signature = other.signature ∧ ∀ arguments host,
        (native.run arguments host).1 = (other.run arguments (view host)).1 ∧
        view (native.run arguments host).2 = (other.run arguments (view host)).2)
    (setup.natives.find? name) (shown.natives.find? name)
  watch : Option.Rel (fun (watch : Nat → Host → Bool × Host) (other : Nat → Shown → Bool × Shown) =>
      ∀ steps host, (watch steps host).1 = (other steps (view host)).1 ∧
        view (watch steps host).2 = (other steps (view host)).2)
    setup.watch shown.watch

namespace Projects

variable {setup : Setup Host} {shown : Setup Shown}

theorem tick (shows : Shows view setup shown) (span : Span) :
    Projects view id (Evaluation.tick setup span) (Evaluation.tick shown default) := by
  have consults : ∀ steps, Projects view id (Evaluation.tick.consult setup span steps)
      (Evaluation.tick.consult shown default steps) := by
    intro steps
    unfold Evaluation.tick.consult
    have related := shows.watch
    cases isWatch : setup.watch with
    | none =>
      rw [isWatch] at related
      cases isOther : shown.watch with
      | none => exact pure ()
      | some other =>
        rw [isOther] at related
        cases related
    | some watch =>
      rw [isWatch] at related
      cases isOther : shown.watch with
      | none =>
        rw [isOther] at related
        cases related
      | some other =>
        rw [isOther] at related
        cases related with
        | some same =>
          refine bind (onHost (fun host => (same steps host).1) fun host => (same steps host).2) ?_
          intro goesOn
          cases goesOn with
          | true => exact pure ()
          | false => exact fail _ span
  unfold Evaluation.tick
  refine bind countStep ?_
  intro steps
  rw [shows.limits]
  cases shown.limits.maxSteps with
  | none => exact consults steps
  | some limit =>
    by_cases past : limit < steps
    · simp only [id, if_pos past]
      exact fail _ span
    · simp only [id, if_neg past]
      exact consults steps

theorem variableValue (scope : ScopeId) (name : String) (span : Span) :
    Projects view id (Evaluation.variableValue scope name span)
      (Evaluation.variableValue scope name default) := by
  refine bind store ?_
  intro store
  rw [Store.get?_bare]
  cases store.get? scope name with
  | none => exact fail _ span
  | some value => exact pure value

theorem callNative {native : Native Host} {other : Native Shown}
    (signature : native.signature = other.signature)
    (same : ∀ arguments host,
      (native.run arguments host).1 = (other.run arguments (view host)).1 ∧
      view (native.run arguments host).2 = (other.run arguments (view host)).2)
    (name : String) (arguments : List Value) (span : Span) :
    Projects view id (Evaluation.callNative native name arguments span)
      (Evaluation.callNative other name arguments default) := by
  unfold Evaluation.callNative
  rw [signature]
  refine bind (onHost (fun host => (same _ host).1) fun host => (same _ host).2) ?_
  intro result
  cases result with
  | error reason => exact fail _ span
  | ok value =>
    dsimp only [id]
    split
    · exact pure _
    · exact fail _ span

theorem callResult (name : String) (returns : Ty) (span : Span) (ended : Except Exit Value) :
    Projects view id (Evaluation.callResult name returns span ended)
      (Evaluation.callResult name returns default (bareResult id ended)) := by
  have without : Projects view id
      (if returns.isVoid then Pure.pure Value.void
        else Run.fail (.recoverable (.endedWithoutResult name returns)) span : Run Host Value)
      (if returns.isVoid then Pure.pure Value.void
        else Run.fail (.recoverable (.endedWithoutResult name returns)) default) := by
    split
    · exact pure _
    · exact fail _ span
  rcases ended with (fault | (value | _ | _)) | value
  · exact stop _
  · exact pure _
  · exact without
  · exact without
  · exact without

theorem goesOn (ended : Except Exit Value) :
    Projects view id (Evaluation.goesOn ended) (Evaluation.goesOn (bareResult id ended)) := by
  rcases ended with (fault | (value | _ | _)) | value
  · exact stop _
  · exact stop _
  · exact pure _
  · exact pure _
  · exact pure _

section

variable {inner : Node → ScopeId → Run Host Value} {other : Node → ScopeId → Run Shown Value}

abbrev Nested (view : Host → Shown) (inner : Node → ScopeId → Run Host Value)
    (other : Node → ScopeId → Run Shown Value) : Prop :=
  ∀ node scope, Projects view id (inner node scope) (other (nodeWithoutSpans node) scope)

theorem values (nested : Nested view inner other) (scope : ScopeId) (nodes : List Node) :
    Projects view id (Evaluation.values inner scope nodes)
      (Evaluation.values other scope (nodesWithoutSpans nodes)) := by
  induction nodes with
  | nil => exact pure []
  | cons node rest ih =>
    refine bind (nested node scope) ?_
    intro first
    refine bind ih ?_
    intro others
    exact pure (first :: others)

theorem optionalValue (nested : Nested view inner other) (scope : ScopeId) (value : Option Node) :
    Projects view id (Evaluation.optionalValue inner scope value)
      (Evaluation.optionalValue other scope (optionWithoutSpans value)) := by
  cases value with
  | none => exact pure none
  | some node => exact bind (nested node scope) fun made => pure (some made)

theorem condition (nested : Nested view inner other) (node : Node) (scope : ScopeId) :
    Projects view id (Evaluation.condition inner node scope)
      (Evaluation.condition other (nodeWithoutSpans node) scope) := by
  refine bind (nested node scope) ?_
  obtain ⟨form, ty, span⟩ := node
  intro value
  exact lift (truth value) span

theorem decided (nested : Nested view inner other) (operator : BinaryOp) (left right : Node)
    (scope : ScopeId) :
    Projects view id (Evaluation.decided inner operator left right scope)
      (Evaluation.decided other operator (nodeWithoutSpans left) (nodeWithoutSpans right)
        scope) := by
  refine bind (condition nested left scope) ?_
  intro first
  by_cases decides : (first = true) = (operator = .or)
  · simp only [id, if_pos decides]
    exact pure _
  · simp only [id, if_neg decides]
    exact bind (condition nested right scope) fun second => pure (Value.bool second)

theorem statements (shows : Shows view setup shown) (nested : Nested view inner other)
    (scope : ScopeId) (nodes : List Node) :
    Projects view id (Evaluation.statements setup inner scope nodes)
      (Evaluation.statements shown other scope (nodesWithoutSpans nodes)) := by
  induction nodes with
  | nil => exact pure Value.void
  | cons node rest ih =>
    have ticks : Projects view id (Evaluation.tick setup node.span)
        (Evaluation.tick shown (nodeWithoutSpans node).span) := by
      obtain ⟨form, ty, span⟩ := node
      exact tick shows span
    refine bind ticks ?_
    intro _
    refine bind (nested node scope) ?_
    intro _
    exact ih

theorem callFunction (shows : Shows view setup shown) (nested : Nested view inner other)
    (closure : Closure) (name : String) (arguments : List Value) (span : Span) :
    Projects view id (Evaluation.callFunction setup inner closure name arguments span)
      (Evaluation.callFunction shown other closure.bare name arguments default) := by
  obtain ⟨⟨label, returns, parameters, body⟩, home⟩ := closure
  unfold Evaluation.callFunction
  refine bind depth ?_
  intro depth
  rw [shows.limits]
  by_cases tooDeep : shown.limits.maxDepth ≤ depth
  · simp only [id, if_pos tooDeep]
    exact fail _ span
  · simp only [id, if_neg tooDeep]
    refine bind (settle (deeper (inScope home _ fun frame => ?_))) fun ended =>
      callResult name returns span ended
    have bodies := statements shows nested frame body.statements
    rw [← statements_withoutSpans] at bodies
    exact bodies

theorem invoke (shows : Shows view setup shown) (nested : Nested view inner other) (name : String)
    (arguments : List Value) (span : Span) (scope : ScopeId) :
    Projects view id (Evaluation.invoke setup inner name arguments span scope)
      (Evaluation.invoke shown other name arguments default scope) := by
  unfold Evaluation.invoke
  have related := shows.natives name
  cases isNative : setup.natives.find? name with
  | some native =>
    rw [isNative] at related
    cases isOther : shown.natives.find? name with
    | none =>
      rw [isOther] at related
      cases related
    | some otherNative =>
      rw [isOther] at related
      cases related with
      | some same => exact callNative same.1 same.2 name arguments span
  | none =>
    rw [isNative] at related
    cases isOther : shown.natives.find? name with
    | some otherNative =>
      rw [isOther] at related
      cases related
    | none =>
      refine bind store ?_
      intro store
      rw [Store.function?_bare]
      cases store.function? scope name with
      | none => exact fail _ span
      | some closure =>
        have alive : store.bare.isAlive closure.bare.home = store.isAlive closure.home :=
          Store.isAlive_bare store closure.home
        simp only [Option.map_some, alive]
        by_cases isAlive : store.isAlive closure.home = true
        · simp only [if_pos isAlive]
          exact callFunction shows nested closure name arguments span
        · simp only [if_neg isAlive]
          exact fail _ span

theorem assign (nested : Nested view inner other) (name : String) (operator : AssignOp)
    (value : Option Node) (span : Span) (scope : ScopeId) :
    Projects view id (Evaluation.assign inner name operator value span scope)
      (Evaluation.assign other name operator (optionWithoutSpans value) default scope) := by
  unfold Evaluation.assign
  refine bind (optionalValue nested scope value) ?_
  intro right
  refine bind (variableValue scope name span) ?_
  intro current
  refine bind (lift _ span) ?_
  intro result
  refine bind store ?_
  intro store
  have assigned := Store.assign?_bare store scope name (result.widenTo current.ty)
  simp only [id, ← assigned]
  cases store.assign? scope name (result.widenTo current.ty) with
  | none => exact fail _ span
  | some changed => exact bind (changeStore fun _ => rfl) fun _ => pure _

theorem declare (nested : Nested view inner other) (name : String) (declared : Ty)
    (initializer : Option Node) (scope : ScopeId) :
    Projects view id (Evaluation.declare inner name declared initializer scope)
      (Evaluation.declare other name declared (optionWithoutSpans initializer) scope) := by
  refine bind (optionalValue nested scope initializer) ?_
  intro value
  refine bind (changeStore fun store => Store.define_bare store scope name _) ?_
  intro _
  exact pure Value.void

theorem chain (nested : Nested view inner other) (otherwise : Option Node) (scope : ScopeId)
    (branches : List (Branch Form)) :
    Projects view id (Evaluation.chain inner otherwise scope branches)
      (Evaluation.chain other (optionWithoutSpans otherwise) scope
        (branchesWithoutSpans branches)) := by
  induction branches with
  | nil =>
    cases otherwise with
    | none => exact pure Value.void
    | some node => exact nested node scope
  | cons branch rest ih =>
    cases branch with
    | test guard body span =>
      refine bind (condition nested guard scope) ?_
      intro taken
      cases taken with
      | true => exact nested body scope
      | false => exact ih
    | attempt body span =>
      refine bind (settle (nested body scope)) ?_
      intro ended
      rcases ended with (fault | jump) | value
      · by_cases recovers : fault.isRecoverable = true
        · have recoversBare : fault.bare.isRecoverable = true := recovers
          simp only [bareResult, Exit.bare, if_pos recovers, if_pos recoversBare]
          exact ih
        · have failsBare : ¬ fault.bare.isRecoverable = true := recovers
          simp only [bareResult, Exit.bare, if_neg recovers, if_neg failsBare]
          exact stop _
      · exact stop _
      · exact pure value

theorem rounds (shows : Shows view setup shown) (nested : Nested view inner other) (span : Span)
    (test body : Node) {next : Run Host Unit} {last : Run Shown Unit}
    (nexts : Projects view id next last) (scope : ScopeId) (fuel : Nat) :
    Projects view id (Evaluation.rounds setup inner span test body next scope fuel)
      (Evaluation.rounds shown other default (nodeWithoutSpans test) (nodeWithoutSpans body) last
        scope fuel) := by
  induction fuel with
  | zero => exact exhausted
  | succ fuel ih =>
    refine bind (tick shows span) ?_
    intro _
    refine bind (condition nested test scope) ?_
    intro taken
    cases taken with
    | false => exact pure Value.void
    | true =>
      refine bind (settle (nested body scope)) ?_
      intro ended
      refine bind (goesOn ended) ?_
      intro goes
      cases goes with
      | false => exact pure Value.void
      | true => exact bind nexts fun _ => ih

theorem repeated (shows : Shows view setup shown) (nested : Nested view inner other) (span : Span)
    (body : Node) (scope : ScopeId) (times : Nat) :
    Projects view id (Evaluation.repeated setup inner span body scope times)
      (Evaluation.repeated shown other default (nodeWithoutSpans body) scope times) := by
  induction times with
  | zero => exact pure Value.void
  | succ times ih =>
    refine bind (tick shows span) ?_
    intro _
    refine bind (settle (nested body scope)) ?_
    intro ended
    refine bind (goesOn ended) ?_
    intro goes
    cases goes with
    | false => exact pure Value.void
    | true => exact ih

theorem form (shows : Shows view setup shown) (nested : Nested view inner other) (fuel : Nat)
    (node : Node) (scope : ScopeId) :
    Projects view id (Evaluation.form setup inner fuel node scope)
      (Evaluation.form shown other fuel (nodeWithoutSpans node) scope) := by
  obtain ⟨form, ty, span⟩ := node
  cases form with
  | literal value => exact pure value
  | «variable» name => exact variableValue scope name span
  | unary operator operand =>
    exact bind (nested operand scope) fun value => lift (operator.apply value) span
  | binary left operator right =>
    show Projects view id
      (if operator = .and || operator = .or then _ else _)
      (if operator = .and || operator = .or then _ else _)
    by_cases logical : (operator = .and || operator = .or) = true
    · rw [if_pos logical, if_pos logical]
      exact decided nested operator left right scope
    · rw [if_neg logical, if_neg logical]
      refine bind (nested left scope) fun first => ?_
      exact bind (nested right scope) fun second => lift (operator.apply first second) span
  | block nodes => exact inScope scope .empty fun block => statements shows nested block nodes
  | returning value =>
    refine bind (optionalValue nested scope value) fun result => ?_
    exact stop (.jump (.toCaller (result.getD .void)))
  | breaking => exact stop (.jump .behindLoop)
  | continuing => exact stop (.jump .nextRound)
  | declare name declared initializer => exact declare nested name declared initializer scope
  | assign name operator value => exact assign nested name operator value span scope
  | define function =>
    refine bind (changeStore fun store => ?_) fun _ => pure Value.void
    exact Store.defineFunction_bare store scope ⟨function, scope⟩
  | call name arguments =>
    refine bind (values nested scope arguments) fun results => ?_
    exact invoke shows nested name results span scope
  | index name position =>
    refine bind (nested position scope) fun number => ?_
    refine bind (variableValue scope name span) fun list => ?_
    exact lift (itemAt name list number) span
  | list elements => exact bind (values nested scope elements) fun items => pure _
  | loop initializer test step body =>
    have inside : ∀ header, Projects view id
        (inner initializer header >>= fun _ =>
          Evaluation.rounds setup inner span test body (inner step header >>= fun _ => Pure.pure ())
            header fuel)
        (other (nodeWithoutSpans initializer) header >>= fun _ =>
          Evaluation.rounds shown other default (nodeWithoutSpans test) (nodeWithoutSpans body)
            (other (nodeWithoutSpans step) header >>= fun _ => Pure.pure ()) header fuel) := by
      intro header
      refine bind (nested initializer header) fun _ => ?_
      exact rounds shows nested span test body (bind (nested step header) fun _ => pure ()) header
        fuel
    exact inScope scope .empty inside
  | repeating count body =>
    refine bind (nested count scope) fun number => ?_
    have lifted : Projects view id (Run.lift count.span (repetitions number))
        (Run.lift (nodeWithoutSpans count).span (repetitions number)) := by
      obtain ⟨form, ty, span⟩ := count
      exact lift (repetitions number) span
    exact bind lifted fun times => repeated shows nested span body scope times
  | whileTrue test body => exact rounds shows nested span test body (pure ()) scope fuel
  | chain branches otherwise => exact chain nested otherwise scope branches

end

theorem evaluate (shows : Shows view setup shown) (fuel : Nat) (node : Node) (scope : ScopeId) :
    Projects view id (Evaluation.evaluate setup fuel node scope)
      (Evaluation.evaluate shown fuel (nodeWithoutSpans node) scope) := by
  induction fuel generalizing node scope with
  | zero => exact exhausted
  | succ fuel ih => exact form shows ih fuel node scope

theorem topStatements (shows : Shows view setup shown)
    {inner : Node → ScopeId → Run Host Value} {other : Node → ScopeId → Run Shown Value}
    (nested : Nested view inner other) (scope : ScopeId) (nodes : List Node) (last : Value)
    (machine : Machine Host) :
    Ending.bare view (Evaluation.topStatements setup inner scope last nodes machine) =
      Evaluation.topStatements shown other scope last (nodesWithoutSpans nodes)
        (machine.bare view) := by
  induction nodes generalizing last machine with
  | nil => rfl
  | cons node rest ih =>
    obtain ⟨form, ty, span⟩ := node
    have here : Projects view id (Evaluation.topStatement setup inner scope ⟨form, ty, span⟩)
        (Evaluation.topStatement shown other scope (nodeWithoutSpans ⟨form, ty, span⟩)) :=
      bind (tick shows span) fun _ => nested ⟨form, ty, span⟩ scope
    have first := here machine
    unfold Evaluation.topStatements nodesWithoutSpans
    dsimp only
    rw [← first]
    rcases Evaluation.topStatement setup inner scope ⟨form, ty, span⟩ machine with
      _ | ⟨(fault | (value | _ | _)) | value, after⟩
    · rfl
    · rfl
    · rfl
    · rfl
    · rfl
    · exact ih value after

end Projects

end RobotScript
