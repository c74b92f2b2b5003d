import RobotScript.Proofs.Running.Calls

/-! # Statements run as they may

Each form of statement, given an evaluator of nested nodes that is sound: what it
adds to its scope is what it declares, and it ends early only in the ways that its
place allows. -/
set_option autoImplicit false

namespace RobotScript

open Typing Evaluation

variable {Host : Type} {stage : Stage Host} {inner : Node → ScopeId → Run (Traced Host) Value}
variable {context : Context} {outlook : Outlook} {machine : Machine (Traced Host)} {scope : Nat}

abbrev RunsPlainly (stage : Stage Host) (place : Grammar.Place) (run : Run (Traced Host) Value)
    (machine : Machine (Traced Host)) (ty : Ty) : Prop :=
  Runs stage machine.store.size run machine (fun value _ => value.Is ty) (Exit.Fits place)

abbrev RunsForward (stage : Stage Host) (place : Grammar.Place) (outlook : Outlook) (scope : Nat)
    (node : Node) (run : Run (Traced Host) Value) (machine : Machine (Traced Host)) : Prop :=
  Runs stage scope run machine
    (fun value after => value.Is node.ty ∧ Advances outlook scope node machine after)
    (Exit.Fits place)

theorem RunsPlainly.forward {place : Grammar.Place} {node : Node} {run : Run (Traced Host) Value}
    (runs : RunsPlainly stage place run machine node.ty) (world : World stage machine)
    (inside : scope < machine.store.size) (declares : node.declares = none) :
    RunsForward stage place outlook scope node run machine := by
  refine runs.mono (Nat.le_of_lt inside) ?_ fun _ ends => ends
  intro value after leads typed
  refine ⟨typed, ?_, ?_⟩
  · intro name
    rw [declares, if_neg nofun, leads.below.reach world.rooted inside]
  · intro name closure found
    rw [leads.below.functions scope inside] at found
    exact .inl found

theorem RunsTyped.plainly {run : Run (Traced Host) Value} {ty : Ty}
    (runs : RunsTyped stage run machine ty) (place : Grammar.Place) :
    RunsPlainly stage place run machine ty :=
  runs.mono (Nat.le_refl _) (fun _ _ _ typed => typed) fun _ quiet => quiet.fits place

/-! ## Declarations and definitions -/

theorem Run.bind_bind {α β γ : Type} (first : Run (Traced Host) α)
    (second : α → Run (Traced Host) β) (third : β → Run (Traced Host) γ) :
    (first >>= second) >>= third = first >>= fun value => second value >>= third := by
  funext machine
  change Run.bind (Run.bind first second) third machine =
    Run.bind first (fun value => Run.bind (second value) third) machine
  unfold Run.bind
  rcases first machine with _ | ⟨_ | value, after⟩ <;> rfl

theorem initialValue_is {ty : Ty} {initializer : Option Node} {value : Option Value}
    (fitting : FittingOption initializer value)
    (accepted : ∀ node, initializer = some node → ty.accepts node.ty = true) :
    (initialValue ty value).Is ty := by
  cases initializer with
  | none =>
    cases value with
    | none => exact Value.default_is ty
    | some value => exact fitting.elim
  | some node =>
    cases value with
    | none => exact fitting.elim
    | some value => exact Value.Is.widenTo fitting (accepted node rfl)

theorem Advances.of_updates {next : Machine (Traced Host)} {node : Node} {own : Name}
    {entry : Entry} (updates : Updates machine next scope own entry) (world : World stage machine)
    (inside : scope < machine.store.size) (declares : node.declares = some own)
    (means : outlook.after node own = some entry)
    (functions : ∀ name closure, next.store.functionIn? name scope = some closure →
      machine.store.functionIn? name scope = some closure ∨ node.form = .define closure.function) :
    Advances outlook scope node machine next := by
  refine ⟨?_, functions⟩
  intro name
  rw [updates.reach world.rooted inside, declares]
  by_cases isOwn : name = own
  · rw [if_pos isOwn, isOwn, if_pos rfl, means]
  · rw [if_neg isOwn, if_neg fun same => isOwn (Option.some.inj same).symm]

theorem Advances.behind {between next : Machine (Traced Host)} {node : Node}
    (advances : Advances outlook scope node between next) (world : World stage machine)
    (leads : Leads stage machine.store.size machine between)
    (inside : scope < machine.store.size) : Advances outlook scope node machine next := by
  refine ⟨?_, ?_⟩
  · intro name
    rw [advances.reaches, leads.below.reach world.rooted inside]
  · intro name closure found
    rw [← leads.below.functions scope inside]
    exact advances.functions name closure found

theorem Unkept.later {next : Machine (Traced Host)} {name : Name}
    (unkept : Unkept machine scope name) (leads : Leads stage machine.store.size machine next)
    (inside : scope < machine.store.size) : Unkept next scope name := by
  intro label closure found
  rw [leads.below.functions scope inside] at found
  exact unkept label closure found

theorem declare_runs (sound : Sound stage inner) (place : Grammar.Place) {name : String} {ty : Ty}
    {initializer : Option Node} {span : Span}
    (typed : ∀ value, initializer = some value → Expression context value)
    (accepted : ∀ value, initializer = some value → ty.accepts value.ty = true)
    (ready : ReadyNode stage context outlook machine scope
      ⟨.declare name ty initializer, .void, span⟩)
    (top : scope + 1 = machine.store.size) (unkept : Unkept machine scope (.var name)) :
    RunsForward stage place outlook scope ⟨.declare name ty initializer, .void, span⟩ (do
      let value ← declare inner name ty initializer scope
      Tracing.place scope (.var name) span
      return value) machine := by
  rw [declare, Run.bind_bind]
  refine ((optionalValue_runs sound typed ready).mono (Nat.le_of_lt ready.inside)
    (fun result after leads made => And.intro leads made)
    fun exit quiet => Exit.Quiet.fits quiet place).bind ?_
  rintro value after - ⟨leads, fitting⟩
  have stored := initialValue_is fitting accepted
  have topNow : scope + 1 = after.store.size := leads.size ▸ top
  have insideNow : scope < after.store.size := leads.size ▸ ready.inside
  have updates := Updates.declared after insideNow name (initialValue ty value) span
  rw [stored.ty] at updates
  have advances : Advances outlook scope ⟨.declare name ty initializer, .void, span⟩ after
      (after.declared scope name (initialValue ty value) span) := by
    refine .of_updates updates leads.world insideNow rfl (if_pos rfl) ?_
    intro label closure found
    exact .inl ((Store.functionIn?_define _ _ _ _ label scope).symm.trans found)
  intro result last run
  cases run
  exact ⟨.declared leads.world topNow name stored.wellFormed span (unkept.later leads ready.inside),
    Value.void_is, advances.behind ready.world leads ready.inside⟩

theorem define_runs (place : Grammar.Place) {function : Function} {span : Span}
    (declarable : ∀ parameter ∈ function.parameters, Declarable parameter.ty)
    (distinct : (function.parameters.map (·.name)).Nodup) (isBlock : IsBlock function.body)
    (body : Sequence (Statement ⟨false, some function.returns⟩)
      ((context.withFunction function.name function.signature).entering function.parameters)
      function.body.statements)
    (ready : ReadyNode stage context outlook machine scope ⟨.define function, .void, span⟩)
    (top : scope + 1 = machine.store.size)
    (unkept : Unkept machine scope (.func function.name)) :
    RunsForward stage place outlook scope ⟨.define function, .void, span⟩ (do
      Run.changeStore fun store => store.defineFunction scope ⟨function, scope⟩
      Tracing.place scope (.func function.name) span
      return .void) machine := by
  have updates := Updates.defined machine ready.inside function span
  have advances : Advances outlook scope ⟨.define function, .void, span⟩ machine
      (machine.defined scope function span) := by
    refine .of_updates updates ready.world ready.inside rfl (if_pos rfl) ?_
    intro label closure found
    have here := (Store.functionIn?_defineFunction ready.inside ⟨function, scope⟩ label scope).symm.trans
      found
    split at here
    · cases here
      exact .inr rfl
    · exact .inl here
  -- The function sees itself: it is read in the outlook behind its own definition.
  have understood : Understood stage ((machine.defined scope function span).reach scope) function
      (context.after ⟨.define function, .void, span⟩)
      (outlook.after ⟨.define function, .void, span⟩) := by
    refine ⟨ready.sees.after _, ?_, declarable, distinct, isBlock, body, ?_, ready.links⟩
    · intro name free
      rw [advances.reaches]
      by_cases own : name = .func function.name
      · rw [own]
        exact if_pos rfl
      · have differs : Typed.declares ⟨.define function, .void, span⟩ ≠ some name :=
          fun same => own (Option.some.inj same).symm
        rw [if_neg differs, outlook.after_of_ne differs]
        exact ready.agrees name (List.mem_filter.mpr ⟨free, decide_eq_true own⟩)
    · obtain ⟨name, returns, parameters, body⟩ := function
      exact ready.captureFree
  intro result last run
  cases run
  exact ⟨.defined ready.world top function span unkept understood, Value.void_is, advances⟩

/-! ## Blocks -/

theorem unkept_opened (machine : Machine (Traced Host)) (parent : ScopeId) (vars : Bindings Value)
    (name : Name) : Unkept (machine.opened parent vars) machine.store.size name := by
  intro label closure found
  rw [Machine.functionIn?_opened] at found
  cases found

theorem Ready.opened {free : List Name} {links : List Use} {extents : List Extent}
    (ready : Ready stage context outlook machine scope free links extents)
    (opened : World stage (machine.opened scope .empty)) :
    Ready stage context.push outlook (machine.opened scope .empty) machine.store.size free links
      extents where
  world := opened
  sees := ⟨ready.sees.natives, ready.sees.fits.push⟩
  inside := by
    rw [Machine.opened, Store.size_opened]
    exact Nat.lt_succ_self _
  agrees := by
    rw [Machine.reach_empty ready.world ready.inside opened]
    exact ready.agrees
  links := ready.links
  captureFree := ready.captureFree

theorem Ready.within {free : List Name} {links : List Use} {extent : Extent} {extents : List Extent}
    (ready : Ready stage context outlook machine scope free links (extent :: extents)) :
    Ready stage context outlook machine scope free links extents :=
  { ready with
    captureFree := fun other member => ready.captureFree other (List.mem_cons_of_mem extent member) }

theorem prepared_runs {place : Grammar.Place} {run : Run (Traced Host) Value} {names : List Name}
    {site : Span} {ty : Ty} (world : World stage machine)
    (runs : ∀ after, Leads stage machine.store.size machine after →
      RunsPlainly stage place run after ty) :
    RunsPlainly stage place (do
      Tracing.prepare names site
      run) machine ty := by
  refine (Runs.prepare world names site).bind ?_
  intro _ after leads _
  rw [← leads.size]
  exact runs after leads

theorem block_runs (sound : Sound stage inner) (place : Grammar.Place) {list : List Node}
    {span : Span} (typed : Sequence (Statement place) context.push list)
    (ready : ReadyNode stage context outlook machine scope ⟨.block list, .void, span⟩) :
    RunsPlainly stage place (do
      Tracing.prepare [] span
      Run.inScope scope .empty fun block =>
        statements (Tracing.setup stage.plain) inner block list) machine .void := by
  refine prepared_runs ready.world ?_
  intro after leads
  have now := ready.later leads ready.inside
  refine .inScope now.world now.inside nofun ?_
  intro opened
  have keeps := ready.captureFree ⟨[], list⟩ List.mem_cons_self
  refine statements_runs sound place typed ⟨(Ready.within now).opened opened, ?_, ?_, ?_⟩
  · exact (Store.size_opened _ _ _).symm
  · exact calm_of_keepsMeanings typed (fun _ member => absurd member List.not_mem_nil) keeps
  · intro node member name declares
    exact unkept_opened after scope .empty name

/-! ## Loops -/

section

variable {bound : Nat} {place : Grammar.Place}

theorem goesOn_runs {ended : Except Exit Value} (world : World stage machine)
    (ends : Ended (·.Is .void) (Exit.Fits { place with inLoop := true }) ended) :
    Runs stage bound (goesOn ended) machine (fun _ _ => True) (Exit.Fits place) := by
  rcases ended with (fault | (value | _ | _)) | value
  · exact .stop world ends
  · exact .stop world ends
  · exact .pure world trivial
  · exact .pure world trivial
  · exact .pure world trivial

theorem tick_runs (world : World stage machine) (span : Span) :
    Runs stage bound (tick (Tracing.setup stage.plain) span) machine (fun _ _ => True)
      (Exit.Fits place) :=
  (Runs.tick world span).mono (Nat.le_refl _) (fun _ _ _ here => here)
    fun _ quiet => quiet.fits place

theorem repeated_runs {body : Node} {span : Span} (times : Nat) (world : World stage machine)
    (bodies : ∀ later, Leads stage bound machine later →
      Runs stage bound (inner body scope) later (fun value _ => value.Is .void)
        (Exit.Fits { place with inLoop := true })) :
    Runs stage bound (repeated (Tracing.setup stage.plain) inner span body scope times) machine
      (fun value _ => value.Is .void) (Exit.Fits place) := by
  induction times generalizing machine with
  | zero => exact .pure world Value.void_is
  | succ times ih =>
    refine (tick_runs world span).bind ?_
    intro _ ticked leads _
    refine ((bodies ticked leads).settle).bind ?_
    intro ended behind further ends
    refine (goesOn_runs further.world ends).bind ?_
    intro goes last beyond _
    cases goes with
    | true =>
      have all := (leads.trans further).trans beyond
      exact ih beyond.world fun later reached => bodies later (all.trans reached)
    | false => exact .pure beyond.world Value.void_is

theorem rounds_runs {test body : Node} {span : Span} {next : Run (Traced Host) Unit} (fuel : Nat)
    (world : World stage machine)
    (tests : ∀ later, Leads stage bound machine later →
      Runs stage bound (condition inner test scope) later (fun _ _ => True) Exit.Quiet)
    (bodies : ∀ later, Leads stage bound machine later →
      Runs stage bound (inner body scope) later (fun value _ => value.Is .void)
        (Exit.Fits { place with inLoop := true }))
    (nexts : ∀ later, Leads stage bound machine later →
      Runs stage bound next later (fun _ _ => True) Exit.Quiet) :
    Runs stage bound (rounds (Tracing.setup stage.plain) inner span test body next scope fuel)
      machine (fun value _ => value.Is .void) (Exit.Fits place) := by
  induction fuel generalizing machine with
  | zero => exact .exhausted
  | succ fuel ih =>
    have fits : ∀ exit : Exit, exit.Quiet → exit.Fits place := fun _ quiet => quiet.fits place
    refine (tick_runs world span).bind ?_
    intro _ ticked leads _
    refine ((tests ticked leads).mono (Nat.le_refl _) (fun _ _ _ here => here) fits).bind ?_
    intro taken tested further _
    have upToTest := leads.trans further
    cases taken with
    | false => exact .pure further.world Value.void_is
    | true =>
      refine ((bodies tested upToTest).settle).bind ?_
      intro ended behind beyond ends
      refine (goesOn_runs beyond.world ends).bind ?_
      intro goes gone past _
      have upToEnd := (upToTest.trans beyond).trans past
      cases goes with
      | false => exact .pure past.world Value.void_is
      | true =>
        refine ((nexts gone upToEnd).mono (Nat.le_refl _) (fun _ _ _ here => here) fits).bind ?_
        intro _ stepped last _
        have all := upToEnd.trans last
        exact ih last.world (fun later reached => tests later (all.trans reached))
          (fun later reached => bodies later (all.trans reached))
          fun later reached => nexts later (all.trans reached)

end

theorem repeating_runs (sound : Sound stage inner) (place : Grammar.Place) {count body : Node}
    {span : Span} (typed : Expression context count) (isInt : count.ty = .int)
    (isBlock : IsBlock body)
    (typedRounds : Sequence (Statement { place with inLoop := true }) context.push body.statements)
    (ready : ReadyNode stage context outlook machine scope ⟨.repeating count body, .void, span⟩) :
    RunsPlainly stage place (do
      let number ← inner count scope
      let times ← Run.lift count.span (repetitions number)
      repeated (Tracing.setup stage.plain) inner span body scope times) machine .void := by
  refine ((sound.expression typed ready.first).mono (Nat.le_refl _) (fun _ _ _ here => here)
    fun _ quiet => quiet.fits place).bind ?_
  intro number after leads numberTyped
  rw [isInt] at numberTyped
  obtain ⟨count, rfl⟩ := numberTyped.int
  refine (Runs.pure leads.world trivial : Runs stage _ _ after (fun _ _ => True) _).bind ?_
  intro times behind further _
  refine repeated_runs times further.world ?_
  intro later reached
  have all := (leads.trans further).trans reached
  have body := sound.block { place with inLoop := true } isBlock typedRounds
    (ready.second.later all ready.inside)
  rwa [all.size] at body

theorem whileTrue_runs (sound : Sound stage inner) (place : Grammar.Place) (fuel : Nat)
    {test body : Node} {span : Span} (typed : Expression context test) (isBool : test.ty = .bool)
    (isBlock : IsBlock body)
    (typedRounds : Sequence (Statement { place with inLoop := true }) context.push body.statements)
    (ready : ReadyNode stage context outlook machine scope ⟨.whileTrue test body, .void, span⟩) :
    RunsPlainly stage place
      (rounds (Tracing.setup stage.plain) inner span test body (return ()) scope fuel) machine
      .void := by
  refine rounds_runs fuel ready.world ?_ ?_ ?_
  · intro later leads
    have tested := condition_runs sound typed isBool (ready.first.later leads ready.inside)
    rwa [leads.size] at tested
  · intro later leads
    have body := sound.block { place with inLoop := true } isBlock typedRounds
      (ready.second.later leads ready.inside)
    rwa [leads.size] at body
  · intro later leads
    exact .pure leads.world trivial

theorem loop_runs (sound : Sound stage inner) (place : Grammar.Place) (fuel : Nat)
    {initializer test step body : Node} {span : Span}
    (first : Expression context.push initializer ∨ Declaration context.push initializer)
    (typed : Expression (context.push.after initializer) test) (isBool : test.ty = .bool)
    (stepTyped : Expression (context.push.after initializer) step) (isBlock : IsBlock body)
    (typedRounds : Sequence (Statement { place with inLoop := true })
      (context.push.after initializer).push body.statements)
    (ready : ReadyNode stage context outlook machine scope
      ⟨.loop initializer test step body, .void, span⟩) :
    RunsPlainly stage place (do
      Tracing.prepare [] span
      Run.inScope scope .empty fun header => do
        let _ ← inner initializer header
        let after : Run (Traced Host) Unit := do
          let _ ← inner step header
        rounds (Tracing.setup stage.plain) inner span test body after header fuel)
      machine .void := by
  refine prepared_runs ready.world ?_
  intro after leads
  have now := ready.later leads ready.inside
  refine .inScope now.world now.inside nofun ?_
  intro opened
  have inside := (Ready.within now).opened opened
  have statement : Statement place context.push initializer := by
    rcases first with typed | typed
    · exact .expression typed
    · exact .declaration typed
  refine (sound.statement place statement inside.first (Store.size_opened _ _ _).symm
    fun name _ => unkept_opened after scope .empty name).bind ?_
  rintro value begun further ⟨-, advances⟩
  -- The test, the step and the body see what the initializer has declared.
  have rest := Ready.behind inside.second further advances
  have header : after.store.size < begun.store.size := rest.inside
  have all : RunsPlainly stage place
      (rounds (Tracing.setup stage.plain) inner span test body
        (do let _ ← inner step after.store.size) after.store.size fuel) begun .void := by
    refine rounds_runs fuel further.world ?_ ?_ ?_
    · intro later reached
      have tested := condition_runs sound typed isBool (rest.first.first.later reached header)
      rwa [reached.size] at tested
    · intro later reached
      have body := sound.block { place with inLoop := true } isBlock typedRounds
        (rest.second.later reached header)
      rwa [reached.size] at body
    · intro later reached
      have stepped := sound.expression stepTyped (rest.first.second.later reached header)
      rw [reached.size] at stepped
      refine stepped.bind ?_
      intro _ behind beyond _
      exact .pure beyond.world trivial
  exact all.mono (Nat.le_of_lt header) (fun _ _ _ here => here) fun _ ends => ends

/-! ## Returns and chains -/

theorem returning_runs (sound : Sound stage inner) (place : Grammar.Place) {value : Option Node}
    {span : Span} (typed : ∀ node, value = some node → Expression context node)
    (allowed : ∀ ty, place.returns = some ty → match value with
      | none => ty = .void
      | some node => ty.accepts node.ty = true)
    (ready : ReadyNode stage context outlook machine scope ⟨.returning value, .void, span⟩) :
    RunsPlainly stage place (do
      let value ← optionalValue inner scope value
      Run.stop (.jump (.toCaller (value.getD .void)))) machine .void := by
  refine ((optionalValue_runs sound typed ready).mono (Nat.le_refl _) (fun _ _ _ here => here)
    fun _ quiet => Exit.Quiet.fits quiet place).bind ?_
  intro result after leads fitting
  refine .stop leads.world ?_
  intro ty returns
  have allows := allowed ty returns
  cases value with
  | none =>
    cases result with
    | none =>
      rw [show ty = .void from allows]
      exact Value.void_is
    | some value => exact fitting.elim
  | some node =>
    cases result with
    | none => exact fitting.elim
    | some value => exact Value.Is.widenTo fitting allows

theorem chainStatement_runs (sound : Sound stage inner) (place : Grammar.Place)
    {branches : List (Branch Form)} {otherwise : Option Node} {span : Span}
    (guards : ∀ branch ∈ branches, ∀ guard, branch.guard? = some guard →
      Expression context guard)
    (decide : ∀ branch ∈ branches, ∀ guard, branch.guard? = some guard → guard.ty = .bool)
    (areBlocks : ∀ branch ∈ branches, IsBlock branch.body)
    (bodies : ∀ branch ∈ branches,
      Sequence (Statement place) context.push branch.body.statements)
    (lastIsBlock : ∀ node, otherwise = some node → IsBlock node)
    (last : ∀ node, otherwise = some node →
      Sequence (Statement place) context.push node.statements)
    (ready : ReadyNode stage context outlook machine scope
      ⟨.chain branches otherwise, .void, span⟩) :
    RunsPlainly stage place (chain inner otherwise scope branches) machine .void := by
  refine chain_runs (fun _ quiet => quiet.fits place) ready.world ?_ ?_ ?_ fun _ => Value.void_is
  · intro branch member guard isGuard later leads
    have tested := condition_runs sound (guards branch member guard isGuard)
      (decide branch member guard isGuard)
      (((ready.first.branch member).guard isGuard).later leads ready.inside)
    rwa [leads.size] at tested
  · intro branch member later leads
    have body := sound.block place (areBlocks branch member) (bodies branch member)
      ((ready.first.branch member).body.later leads ready.inside)
    rwa [leads.size] at body
  · rintro node rfl later leads
    have body := sound.block place (lastIsBlock node rfl) (last node rfl)
      (Ready.later ready.second leads ready.inside)
    rwa [leads.size] at body

end RobotScript
