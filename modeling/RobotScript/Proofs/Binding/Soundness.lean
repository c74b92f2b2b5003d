import RobotScript.Proofs.Binding.Calls

/-! # Every node finds what it names

By induction on the fuel, one case for each form: evaluating a node that is ready keeps the
world, and no fault that it ends with says that a function is undefined or dead. -/
set_option autoImplicit false

namespace RobotScript

open Typing Evaluation

variable {Host : Type}

namespace Binding

variable {footing : Footing Host} {inner : Node → ScopeId → Run (Watched Host) Value}
variable {context : Context} {machine : Machine (Watched Host)} {scope : ScopeId} {node : Node}

/-! ## New scopes -/

theorem inScope_steady {α : Type} {body : ScopeId → Run (Watched Host) α}
    (inside : scope < machine.store.size)
    (runs : ∀ later, Leads footing machine.store.size machine later →
      Runs footing later.store.size (body later.store.size) (later.entered scope .empty)
        fun _ _ => True) :
    Steady footing machine (Run.inScope scope .empty body) :=
  .of_runs fun later leads => .inScope leads.world (leads.size ▸ inside) fun _ => runs later leads

theorem block_ready {place : Grammar.Place} {list : List Node} {ty : Ty} {span : Span}
    (typed : Sequence (Statement place) context.push list)
    (ready : ReadyNode footing context machine scope ⟨.block list, ty, span⟩) :
    ReadySequence footing context.push (machine.entered scope .empty) machine.store.size list where
  ready := ready.opened.mono (List.Subset.refl _) (List.subset_cons_self _ _)
  top := (Store.size_opened _ _ _).symm
  calm asked :=
    calm_of_keepsMeanings typed (fun _ member => absurd member List.not_mem_nil)
      (ready.captureFree asked ⟨[], list⟩ List.mem_cons_self)
  unkept _ _ _ name _ := unkept_opened machine.store (some scope) .empty name

theorem loop_runs (sound : Sound footing inner) (fuel : Nat)
    {initializer condition step body : Node} {ty : Ty} {span : Span}
    (situated : Situated context ⟨.loop initializer condition step body, ty, span⟩)
    (ready : ReadyNode footing context machine scope
      ⟨.loop initializer condition step body, ty, span⟩) :
    Runs footing machine.store.size (do
      let _ ← inner initializer machine.store.size
      rounds (Watching.setup footing.plain) inner span condition body
        (do let _ ← inner step machine.store.size) machine.store.size fuel)
      (machine.entered scope .empty) fun _ _ => True := by
  obtain ⟨first, others⟩ := situated.loop
  have header := ready.opened
  have top : machine.store.size + 1 = (machine.entered scope .empty).store.size :=
    (Store.size_opened _ _ _).symm
  have starts : ReadyNode footing context.push (machine.entered scope .empty) machine.store.size
      initializer :=
    header.mono (List.subset_append_left ..)
      (List.Subset.trans (List.subset_append_left ..) (List.subset_cons_self _ _))
  refine (sound.statement first starts top
    fun _ name _ => unkept_opened machine.store (some scope) .empty name).bind ?_
  intro _ started leads advances
  -- What comes behind the initializer is evaluated round after round in the same view.
  have behind : Ready footing (context.push.after initializer) started machine.store.size
      (nodeFree condition ++ nodeFree step ++ nodeFree body)
      (nodeExtents [] condition ++ nodeExtents [] step ++ nodeExtents [] body) :=
    Ready.behind (header.mono (List.subset_append_right ..)
      (List.Subset.trans (List.subset_append_right ..) (List.subset_cons_self _ _))) leads advances
  have part (part : Node) (member : part ∈ [condition, step, body])
      (free : nodeFree part ⊆ nodeFree condition ++ nodeFree step ++ nodeFree body)
      (extents : nodeExtents [] part ⊆
        nodeExtents [] condition ++ nodeExtents [] step ++ nodeExtents [] body) :
      Steady footing started (inner part machine.store.size) :=
    .of_runs fun later further =>
      sound.settled (others part member) ((behind.mono free extents).later further behind.inside)
  have conditions := part condition List.mem_cons_self
    (List.Subset.trans (List.subset_append_left ..) (List.subset_append_left ..))
    (List.Subset.trans (List.subset_append_left ..) (List.subset_append_left ..))
  have steps := part step (List.mem_cons_of_mem _ List.mem_cons_self)
    (List.Subset.trans (List.subset_append_right ..) (List.subset_append_left ..))
    (List.Subset.trans (List.subset_append_right ..) (List.subset_append_left ..))
  have bodies := part body
    (List.mem_cons_of_mem _ (List.mem_cons_of_mem _ List.mem_cons_self))
    (List.subset_append_right ..) (List.subset_append_right ..)
  exact ((rounds_steady span fuel conditions bodies (steps.bind fun _ => .pure ())).here
    leads.world).mono (Nat.le_of_lt behind.inside) fun _ _ _ _ => trivial

/-! ## Nodes that declare nothing -/

theorem note_steady (node : Node) (scope : ScopeId)
    (noCall : ∀ name arguments, node.form ≠ .call name arguments) :
    Steady footing machine (Watching.note node scope) :=
  fun _ leads => (Runs.note leads.world node scope
    fun name arguments isCall => absurd isCall (noCall name arguments)).still

theorem form_steady (sound : Sound footing inner) (fuel : Nat) (situated : Situated context node)
    (declares : node.declares = none) (noCall : ∀ name arguments, node.form ≠ .call name arguments)
    (ready : ReadyNode footing context machine scope node)
    (parts : ∀ part ∈ node.parts, Steady footing machine (inner part scope)) :
    Steady footing machine
      (Evaluation.form (Watching.setup footing.plain) inner fuel node scope) := by
  have inside := ready.inside
  obtain ⟨form, ty, span⟩ := node
  cases form with
  | call name arguments => exact absurd rfl (noCall name arguments)
  | declare | define => cases declares
  | literal value => exact .pure value
  | «variable» name => exact variableValue_steady ready situated.variable span
  | unary operator operand =>
    exact (parts operand List.mem_cons_self).bind fun value => .lift span (.unary operator value)
  | binary left operator right =>
    have first := parts left List.mem_cons_self
    have second := parts right (List.mem_cons_of_mem left List.mem_cons_self)
    unfold Evaluation.form
    dsimp only
    split
    · exact decided_steady operator first second
    · exact first.bind fun one => second.bind fun two => .lift span (.binary operator one two)
  | block list =>
    unfold Evaluation.form
    refine inScope_steady inside fun later leads => ?_
    obtain ⟨place, typed⟩ := situated.sequence
    exact statements_runs sound typed (block_ready typed (ready.later leads inside))
  | returning value => exact (optionalValue_steady parts).bind fun result => .jump _
  | breaking => exact .jump _
  | continuing => exact .jump _
  | assign name operator value => exact assign_steady ready situated.assign operator span parts
  | index name position =>
    refine (parts position List.mem_cons_self).bind fun number => ?_
    exact (variableValue_steady ready situated.index span).bind fun list =>
      .lift span (.itemAt name list number)
  | list elements =>
    exact fun later leads => (values_steady parts later leads).still.bind fun _ _ further _ =>
      .pure further.world trivial
  | loop initializer condition step body =>
    unfold Evaluation.form
    exact inScope_steady inside fun later leads =>
      loop_runs sound fuel situated (ready.later leads inside)
  | repeating count body =>
    refine (parts count List.mem_cons_self).bind fun number => ?_
    refine (Steady.lift count.span (.repetitions number)).bind fun times => ?_
    exact repeated_steady span times (parts body (List.mem_cons_of_mem count List.mem_cons_self))
  | whileTrue condition body =>
    exact rounds_steady span fuel (parts condition List.mem_cons_self)
      (parts body (List.mem_cons_of_mem condition List.mem_cons_self)) (.pure ())
  | chain branches otherwise => exact chain_steady parts

theorem parts_steady (sound : Sound footing inner) (situated : Situated context node)
    (ready : ReadyNode footing context machine scope node) :
    ∀ part ∈ node.parts, Steady footing machine (inner part scope) :=
  fun _ member => .of_runs fun _ leads =>
    sound.settled (situated.parts member) ((ready.part member).later leads ready.inside)

theorem form_settled (sound : Sound footing inner) (fuel : Nat) (settled : Settled context node)
    (ready : ReadyNode footing context machine scope node) :
    RunsStill footing (Watching.form footing.plain inner fuel node scope) machine := by
  obtain ⟨situated, declares⟩ := settled
  have parts := parts_steady sound situated ready
  by_cases isCall : ∃ name arguments, node.form = .call name arguments
  · obtain ⟨form, ty, span⟩ := node
    obtain ⟨name, arguments, rfl⟩ := isCall
    exact call_runs sound situated ready parts
  · have noCall (name : String) (arguments : List Node) (same : node.form = .call name arguments) :=
      isCall ⟨name, arguments, same⟩
    rw [Watching.form_eq noCall]
    exact ((note_steady node scope noCall).bind fun _ =>
      form_steady sound fuel situated declares noCall ready parts).here ready.world

/-! ## Declarations -/

theorem declare_runs {name : String} {declared ty : Ty} {initializer : Option Node} {span : Span}
    (parts : ∀ part ∈ initializer.toList, Steady footing machine (inner part scope))
    (ready : ReadyNode footing context machine scope
      ⟨.declare name declared initializer, ty, span⟩)
    (top : scope + 1 = machine.store.size)
    (unkept : footing.faithful → machine.store.Unkept scope (.var name)) :
    ∀ later, Leads footing machine.store.size machine later →
      Runs footing scope (declare inner name declared initializer scope) later fun _ after =>
        Advances scope ⟨.declare name declared initializer, ty, span⟩ machine.store after.store := by
  intro later leads
  refine ((optionalValue_steady parts later leads).leading (Nat.le_of_lt ready.inside)).bind ?_
  intro value between _ further
  have reached := leads.trans further
  have stores := Leads.declared reached.world (reached.size ▸ top) name
    (initialValue declared value) fun asked => (unkept asked).carry reached.below ready.inside
  refine (Runs.changeStore stores).bind ?_
  intro _ behind beyond same
  refine .pure beyond.world ?_
  rw [same]
  exact (Store.binds_define (reached.size ▸ ready.inside) name _).behind reached.size reached.below

theorem define_runs {function : Function} {ty : Ty} {span : Span} {place : Grammar.Place}
    (typed : Statement place context ⟨.define function, ty, span⟩)
    (ready : ReadyNode footing context machine scope ⟨.define function, ty, span⟩)
    (top : scope + 1 = machine.store.size)
    (unkept : footing.faithful → machine.store.Unkept scope (.func function.name)) :
    ∀ later, Leads footing machine.store.size machine later →
      Runs footing scope (do
        Run.changeStore fun store => store.defineFunction scope ⟨function, scope⟩
        return Value.void) later fun _ after =>
          Advances scope ⟨.define function, ty, span⟩ machine.store after.store := by
  intro later reached
  have now := ready.later reached ready.inside
  have binds := Store.binds_defineFunction now.inside ⟨function, scope⟩
  have hidden (label : String) (other : function.name ≠ label)
      (member : .func label ∈ definitionFree function) :
      .func label ∈ nodeFree ⟨.define function, ty, span⟩ := by
    refine List.mem_filter.mpr ⟨member, decide_eq_true ?_⟩
    rintro ⟨⟩
    exact other rfl
  have understood : Understood footing (later.store.defineFunction scope ⟨function, scope⟩) scope
      function (context.withFunction function.name function.signature) := by
    have sees := now.sees.withFunction binds now.world.rooted now.inside hidden
    cases typed with
    | expression typed => cases typed
    | declaration typed => cases typed
    | define returnable declarable distinct notNative fresh isBlock body =>
      refine ⟨sees, isBlock, body, fun asked => ?_⟩
      have captureFree := ready.captureFree asked
      obtain ⟨name, returns, parameters, body⟩ := function
      exact captureFree
  have stores := Leads.defined now.world (reached.size ▸ top) function
    (fun asked => (unkept asked).carry reached.below ready.inside) understood
  refine (Runs.changeStore stores).bind ?_
  intro _ behind further same
  refine .pure further.world ?_
  rw [same]
  exact binds.behind reached.size reached.below

theorem form_statement (sound : Sound footing inner) (fuel : Nat) {place : Grammar.Place}
    (typed : Statement place context node)
    (ready : ReadyNode footing context machine scope node) (top : scope + 1 = machine.store.size)
    (unkept : footing.faithful → ∀ name, node.declares = some name →
      machine.store.Unkept scope name) :
    Runs footing scope (Watching.form footing.plain inner fuel node scope) machine
      fun _ after => Advances scope node machine.store after.store := by
  cases declares : node.declares with
  | none =>
    have still := form_settled sound fuel ⟨.statement typed, declares⟩ ready
    refine still.mono (Nat.le_of_lt ready.inside) fun _ after leads _ => ?_
    exact .of_none declares (leads.below.mono (Nat.le_of_eq top))
  | some name =>
    have unkept (asked : footing.faithful) := unkept asked name declares
    have noCall (label : String) (arguments : List Node) (same : node.form = .call label arguments) :
        False := by
      rw [Typed.declares, same] at declares
      cases declares
    rw [Watching.form_eq noCall]
    refine (((note_steady node scope noCall).here ready.world).leading
      (Nat.le_of_lt ready.inside)).bind ?_
    intro _ noted _ leads
    obtain ⟨form, ty, span⟩ := node
    cases form with
    | declare label declared initializer =>
      cases declares
      have parts := parts_steady sound (.statement typed) ready
      exact declare_runs parts ready top unkept noted leads
    | define function =>
      cases declares
      exact define_runs typed ready top unkept noted leads
    | _ => cases declares

/-- The evaluator keeps the world in which names are bound. -/
theorem evaluate_sound (footing : Footing Host) (fuel : Nat) :
    Sound footing (Watching.evaluate footing.plain fuel) := by
  induction fuel with
  | zero => exact ⟨fun _ _ => .exhausted, fun _ _ _ _ => .exhausted⟩
  | succ fuel ih =>
    exact ⟨fun settled ready => form_settled ih fuel settled ready,
      fun typed ready top unkept => form_statement ih fuel typed ready top unkept⟩

end Binding

end RobotScript
