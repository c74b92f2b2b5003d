import RobotScript.Proofs.Binding.Steady
import RobotScript.Proofs.Scoping.Visible

/-! # Calls find what they name

The statements of a scope run one after the other, each in view of what the ones before it
declared. A call of a function of the script finds a function in a scope that is held; its
body runs in a new scope around which lies the home of the function, from where it sees
what it was read with. -/
set_option autoImplicit false

namespace RobotScript

open Typing Evaluation

variable {Host : Type}

/-! ## Parameters -/

theorem Bindings.foldl_insert_isSome {α : Type} (start : Bindings α) (entries : List (String × α))
    (name : String) :
    ((entries.foldl (fun bindings entry => bindings.insert entry.1 entry.2) start).find?
      name).isSome = true ↔
      (start.find? name).isSome = true ∨ name ∈ entries.map Prod.fst := by
  induction entries generalizing start with
  | nil => simp
  | cons entry rest ih =>
    rw [List.foldl_cons, ih, find?_insert, List.map_cons, List.mem_cons]
    by_cases here : entry.1 = name
    · simp [here]
    · simp [here, Ne.symm here]

theorem boundParameters_isSome {parameters : List Parameter} {values : List Value}
    (length : values.length = parameters.length) {name : String}
    (member : .var name ∈ Parameter.names parameters) :
    ((boundParameters parameters values).find? name).isSome = true := by
  have names : (List.zipWith (fun parameter argument =>
      (parameter.name, argument.widenTo parameter.ty)) parameters values).map Prod.fst =
      parameters.map (·.name) := by
    clear member
    induction parameters generalizing values with
    | nil => cases values <;> rfl
    | cons parameter rest ih =>
      cases values with
      | nil => cases length
      | cons value others => exact congrArg (parameter.name :: ·) (ih (Nat.succ.inj length))
  rw [boundParameters, Bindings.ofList, Bindings.foldl_insert_isSome, names]
  obtain ⟨parameter, isParameter, ⟨⟩⟩ := List.mem_map.mp member
  exact .inr (List.mem_map_of_mem isParameter)

namespace Binding

variable {footing : Footing Host} {inner : Node → ScopeId → Run (Watched Host) Value}
variable {context : Context} {machine : Machine (Watched Host)} {scope : ScopeId}

/-! ## Statements in sequence -/

theorem statements_runs (sound : Sound footing inner) {place : Grammar.Place} {list : List Node}
    (typed : Sequence (Statement place) context list)
    (ready : ReadySequence footing context machine scope list) :
    Runs footing scope (statements (Watching.setup footing.plain) inner scope list) machine
      fun _ _ => True := by
  induction list generalizing machine context with
  | nil => exact .pure ready.ready.world trivial
  | cons node rest ih =>
    have ticks : RunsStill footing (tick (Watching.setup footing.plain) node.span) machine :=
      .tick ready.ready.world node.span
    refine (ticks.leading (Nat.le_of_lt ready.ready.inside)).bind ?_
    intro _ next _ leads
    have now := ready.later leads
    refine (sound.statement typed.head now.head now.top
      fun asked => now.unkept asked node List.mem_cons_self).bind ?_
    intro value behind further advances
    exact ih typed.tail (now.tail further advances)

/-! ## Function bodies -/

theorem Sees.entering {function : Function} {home : ScopeId} {values : List Value}
    (sees : Sees footing machine.store home context (definitionFree function))
    (rooted : machine.store.Rooted) (inside : home < machine.store.size)
    (length : footing.faithful → values.length = function.parameters.length) :
    Sees footing (machine.entered home (boundParameters function.parameters values)).store
      machine.store.size (context.entering function.parameters) (nodeFree function.body) where
  natives := (Context.entering_natives context function.parameters).trans sees.natives
  functions name signature notNative found := by
    rw [Context.entering_natives] at notNative
    rw [Context.signature?_entering] at found
    obtain ⟨closure, stored, means⟩ := sees.functions name signature notNative found
    refine ⟨closure, (Store.function?_opened rooted inside _ name).trans stored, ?_⟩
    intro asked used
    refine means asked ?_
    rw [definitionFree]
    refine List.mem_filter.mpr ⟨used, decide_eq_true fun member => ?_⟩
    obtain ⟨_, _, same⟩ := List.mem_map.mp member
    cases same
  values asked name ty found := by
    refine (Store.get?_opened rooted inside _ name).trans ?_
    rcases Context.variableType?_entering found with isParameter | outer
    · rw [boundParameters_isSome (length asked) isParameter, Bool.true_or]
    · rw [sees.values asked name ty outer, Bool.or_true]

theorem body_ready {function : Function} {home : ScopeId} {values : List Value}
    (world : World footing machine) (inside : home < machine.store.size)
    (understood : Understood footing machine.store home function context)
    (length : footing.faithful → values.length = function.parameters.length) :
    ReadySequence footing (context.entering function.parameters)
      (machine.entered home (boundParameters function.parameters values)) machine.store.size
      function.body.statements := by
  have sees := Sees.entering understood.sees world.rooted inside length
  obtain ⟨name, returns, parameters, ⟨form, ty, span⟩⟩ := function
  obtain ⟨list, rfl, rfl⟩ := understood.isBlock
  have size : (machine.entered home (boundParameters parameters values)).store.size =
      machine.store.size + 1 := Store.size_opened _ _ _
  have whole (asked : footing.faithful) :=
    understood.captureFree asked ⟨Parameter.names parameters, list⟩ List.mem_cons_self
  refine ⟨⟨world.entered inside _, sees, size ▸ Nat.lt_succ_self _, ?_⟩, size.symm, ?_, ?_⟩
  · exact fun asked extent member =>
      understood.captureFree asked extent (List.mem_cons_of_mem _ member)
  · exact fun asked =>
      calm_of_keepsMeanings understood.body (context.entering_declared parameters) (whole asked)
  · exact fun _ _ _ name _ => unkept_opened machine.store (some home) _ name

theorem callResult_runs {name : String} {returns : Ty} {span : Span} {bound : Nat}
    {ended : Except Exit Value} (world : World footing machine)
    (ends : Ended footing (fun _ => True) ended) :
    Runs footing bound (callResult name returns span ended) machine fun _ _ => True := by
  have without : Runs footing bound (if returns.isVoid then Pure.pure Value.void
      else Run.fail (.recoverable (.endedWithoutResult name returns)) span) machine
      fun _ _ => True := by
    split
    · exact .pure world trivial
    · exact .fail world span trivial
  rcases ended with (fault | (value | _ | _)) | value
  · exact .fault world ends
  · exact .pure world trivial
  · exact without
  · exact without
  · exact without

theorem callFunction_runs (sound : Sound footing inner) {closure : Closure} {name : String}
    {values : List Value} {span : Span} (world : World footing machine)
    (inside : closure.home < machine.store.size)
    (understood : Understood footing machine.store closure.home closure.function context)
    (length : footing.faithful → values.length = closure.function.parameters.length) :
    RunsStill footing
      (callFunction (Watching.setup footing.plain) inner closure name values span) machine := by
  refine (Runs.depth world).bind ?_
  rintro depth _ - rfl
  split
  · exact .fail world span trivial
  · have deeper : World footing machine.deeper :=
      (Leads.elsewhere world 0 rfl rfl : Leads footing 0 machine machine.deeper).world
    have body : RunsStill footing (Run.inScope closure.home
        (boundParameters closure.function.parameters values) fun frame =>
          statements (Watching.setup footing.plain) inner frame closure.function.body.statements)
        machine.deeper :=
      .inScope deeper inside fun _ =>
        statements_runs sound understood.body (body_ready deeper inside understood length)
    refine (Runs.deeper world body).settle.bind ?_
    intro ended after leads ends
    exact callResult_runs leads.world ends

/-! ## The call of a name -/

theorem callNative_runs {native : Native Host} {name : String} {values : List Value} {span : Span}
    {bound : Nat} (world : World footing machine) :
    Runs footing bound
      (callNative (native.beside fun _ _ visits => visits) name values span) machine
      fun _ _ => True := by
  refine (Runs.onHost world fun _ => rfl).bind ?_
  intro result after leads _
  cases result with
  | error reason => exact .fail leads.world span trivial
  | ok value =>
    dsimp only
    split
    · exact .pure leads.world trivial
    · exact .fail leads.world span trivial

/-- The function that a call names is found; if the run is faithful, it takes as many
arguments as there are. -/
def Callable (footing : Footing Host) (machine : Machine (Watched Host)) (scope : ScopeId)
    (name : String) (arguments : Nat) : Prop :=
  footing.plain.natives.find? name = none → ∃ closure,
    machine.store.function? scope name = some closure ∧
      (footing.faithful → arguments = closure.function.parameters.length)

theorem Sees.callable {free : List Name} (sees : Sees footing machine.store scope context free)
    {name : String} {signature : Signature} {arguments : List Node}
    (found : context.signature? name = some signature)
    (taken : Takes signature.parameters arguments) (used : .func name ∈ free) :
    Callable footing machine scope name arguments.length := by
  intro isNative
  have notNative : context.natives.find? name = none := by
    rw [sees.natives, Bindings.find?_map, isNative]
    rfl
  obtain ⟨closure, stored, means⟩ := sees.functions name signature notNative found
  refine ⟨closure, stored, fun asked => ?_⟩
  rw [← means asked used] at taken
  exact (taken.length_eq.symm.trans (List.length_map _) : _)

theorem invoke_runs (sound : Sound footing inner) {name : String} {values : List Value}
    {span : Span} (world : World footing machine)
    (callable : Callable footing machine scope name values.length) :
    RunsStill footing (invoke (Watching.setup footing.plain) inner name values span scope)
      machine := by
  unfold invoke
  rw [Watching.find?_setup]
  cases isNative : footing.plain.natives.find? name with
  | some native => exact callNative_runs world
  | none =>
    obtain ⟨closure, found, length⟩ := callable isNative
    obtain ⟨home, -, stored⟩ := Store.exists_of_function? found
    obtain ⟨isHome, context, understood⟩ := world.closures home name closure stored
    have inside : closure.home < machine.store.size := isHome ▸ Store.functionIn?_lt stored
    have alive : machine.store.isAlive closure.home = true := by
      rw [Store.isAlive, world.held closure.home inside, Bool.true_or]
    refine .reading ?_
    rw [found]
    dsimp only
    rw [if_pos alive]
    exact callFunction_runs sound world inside (isHome ▸ understood) length

theorem call_runs (sound : Sound footing inner) {name : String} {arguments : List Node} {ty : Ty}
    {span : Span} (situated : Situated context ⟨.call name arguments, ty, span⟩)
    (ready : ReadyNode footing context machine scope ⟨.call name arguments, ty, span⟩)
    (parts : ∀ node ∈ arguments, Steady footing machine (inner node scope)) :
    RunsStill footing (do
      let values ← values inner scope arguments
      Watching.note ⟨.call name arguments, ty, span⟩ scope
      invoke (Watching.setup footing.plain) inner name values span scope) machine := by
  obtain ⟨signature, found, taken⟩ := situated.call
  refine (values_steady parts machine (.refl ready.world _)).bind ?_
  intro values between leads length
  have now := ready.later leads ready.inside
  have callable := now.sees.callable found taken List.mem_cons_self
  rw [← leads.size]
  refine (Runs.note now.world _ scope ?_).bind ?_
  · rintro _ _ ⟨⟩ isNative
    obtain ⟨closure, stored, -⟩ := callable isNative
    exact ⟨now.inside, closure, stored⟩
  · intro _ noted further same
    rw [← further.size]
    refine invoke_runs sound further.world ?_
    rw [Callable, same, length]
    exact callable

end Binding

end RobotScript
