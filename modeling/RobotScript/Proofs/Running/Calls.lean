import RobotScript.Proofs.Running.Frames
import RobotScript.Proofs.Running.Sequences
import RobotScript.Proofs.Running.Uses

/-! # Calls

A call of a native gives it the arguments that its signature asks for. A call of a
function of the script finds the definition that the call was checked against, and
its body runs with its names meaning what they meant where it was read: the
parameters are bound in a new scope around which lies the scope of the definition. -/
set_option autoImplicit false

namespace RobotScript

open Typing Evaluation

variable {Host : Type} {stage : Stage Host} {inner : Node → ScopeId → Run (Traced Host) Value}
variable {context : Context} {outlook : Outlook} {machine : Machine (Traced Host)} {scope : Nat}

/-! ## Arguments -/

theorem widened_arguments {types : List Ty} {nodes : List Node} {values : List Value}
    (taken : List.Forall₂ (fun ty (node : Node) => ty.accepts node.ty = true) types nodes)
    (fitting : Fitting nodes values) :
    List.Forall₂ (fun ty (value : Value) => (value.widenTo ty).Is ty) types values := by
  induction taken generalizing values with
  | nil =>
    cases fitting
    exact .nil
  | cons accepted _ ih =>
    cases fitting with
    | cons typed others => exact .cons (typed.widenTo accepted) (ih others)

theorem prepared_admitted {parameters : Parameters} {nodes : List Node} {values : List Value}
    (taken : Takes parameters nodes) (fitting : Fitting nodes values) :
    parameters.Admits (prepared parameters values) := by
  cases parameters with
  | exactly types =>
    have fit := widened_arguments taken fitting
    clear taken fitting
    induction fit with
    | nil => exact .nil
    | cons typed _ ih => exact .cons typed ih
  | anyNumber =>
    intro value member
    obtain ⟨node, isNode, typed⟩ := fitting.of_mem member
    refine ⟨typed.wellFormed, ?_⟩
    rw [typed.ty]
    exact taken node isNode

/-! ## Natives -/

theorem callNative_runs {native : Native Host} {name : String} {nodes : List Node}
    {values : List Value} {span : Span} {bound : Nat}
    (isNative : stage.plain.natives.find? name = some native) (world : World stage machine)
    (taken : Takes native.signature.parameters nodes) (fitting : Fitting nodes values) :
    Runs stage bound (callNative (Tracing.native native) name values span) machine
      (fun value _ => value.Is native.signature.returns) Exit.Quiet := by
  have admitted := prepared_admitted taken fitting
  have asked : Runs stage bound (Run.onHost ((Tracing.native native).run
      (prepared native.signature.parameters values))) machine
      (fun result _ => ∀ value, result = .ok value → value.WellFormed) Exit.Quiet := by
    refine .onHost world rfl ?_ ?_
    · exact stage.keeps name native isNative _ machine.host.1 admitted world.holds
    · intro _ value isValue
      exact stage.honest name native isNative _ machine.host.1 value _ (Prod.ext isValue rfl)
  refine asked.bind ?_
  intro result after leads wellFormed
  cases result with
  | error reason => exact .fail leads.world trivial
  | ok value =>
    dsimp only
    split
    · rename_i sameTy
      exact .pure leads.world ⟨sameTy, Value.widenTo_wellFormed (wellFormed value rfl) _⟩
    · exact .fail leads.world trivial

/-! ## Functions of the script -/

theorem body_ready {function : Function} {home : Nat} {values : List Value}
    (world : World stage machine) (inside : home < machine.store.size)
    (understood : Understood stage (machine.reach home) function context outlook)
    (opened : World stage (machine.opened home (boundParameters function.parameters values)))
    (sites : ∀ name, machine.ledger.sites machine.store.size name =
      if name ∈ Parameter.names function.parameters then some function.body.span else none)
    (fit : List.Forall₂ (fun (parameter : Parameter) (value : Value) =>
      (value.widenTo parameter.ty).Is parameter.ty) function.parameters values) :
    ReadySequence stage (context.entering function.parameters)
      (outlook.entering function.body.span function.parameters)
      (machine.opened home (boundParameters function.parameters values)) machine.store.size
      function.body.statements := by
  obtain ⟨name, returns, parameters, ⟨form, ty, span⟩⟩ := function
  obtain ⟨list, rfl, rfl⟩ := understood.isBlock
  have keeps := understood.captureFree ⟨Parameter.names parameters, list⟩ List.mem_cons_self
  have size : (machine.opened home (boundParameters parameters values)).store.size =
      machine.store.size + 1 := Store.size_opened _ _ _
  refine ⟨⟨opened, ⟨?_, ?_⟩, ?_, ?_, ?_, ?_⟩, size.symm, ?_, ?_⟩
  · exact (Context.entering_natives context parameters).trans understood.sees.natives
  · exact understood.sees.fits.entering span parameters
  · exact size ▸ Nat.lt_succ_self _
  · exact frame_agrees world inside opened sites fit understood.agrees
  · exact understood.links
  · intro extent member
    exact understood.captureFree extent (List.mem_cons_of_mem _ member)
  · exact calm_of_keepsMeanings understood.body (context.entering_declared parameters) keeps
  · intro node member declared declares label closure found
    rw [Machine.functionIn?_opened] at found
    cases found

theorem boundParameters_wellFormed {parameters : List Parameter} {values : List Value}
    (fit : List.Forall₂ (fun (parameter : Parameter) (value : Value) =>
      (value.widenTo parameter.ty).Is parameter.ty) parameters values) :
    ∀ name value, (boundParameters parameters values).find? name = some value →
      value.WellFormed := by
  intro name value found
  have binds := boundParameters_binds .blank default fit name
  rw [found] at binds
  exact binds.1

theorem callResult_runs {name : String} {returns : Ty} {span : Span} {bound : Nat}
    {ended : Except Exit Value} (world : World stage machine)
    (ends : Ended (·.Is .void) (Exit.Fits ⟨false, some returns⟩) ended) :
    Runs stage bound (callResult name returns span ended) machine
      (fun value _ => value.Is returns) Exit.Quiet := by
  have without : Runs stage bound (if returns.isVoid then Pure.pure Value.void
      else Run.fail (.recoverable (.endedWithoutResult name returns)) span) machine
      (fun value _ => value.Is returns) Exit.Quiet := by
    split
    · rename_i isVoid
      rw [of_decide_eq_true isVoid]
      exact .pure world Value.void_is
    · exact .fail world trivial
  rcases ended with (fault | (value | _ | _)) | value
  · exact .stop world ends
  · exact .pure world (ends returns rfl)
  · exact without
  · exact without
  · exact without

theorem callFunction_runs (sound : Sound stage inner) {closure : Closure} {name : String}
    {values : List Value} {span : Span} (world : World stage machine)
    (inside : closure.home < machine.store.size)
    (understood : Understood stage (machine.reach closure.home) closure.function context outlook)
    (sites : ∀ name, machine.ledger.sites machine.store.size name =
      if name ∈ Parameter.names closure.function.parameters then
        some closure.function.body.span else none)
    (fit : List.Forall₂ (fun (parameter : Parameter) (value : Value) =>
      (value.widenTo parameter.ty).Is parameter.ty) closure.function.parameters values) :
    RunsTyped stage (callFunction (Tracing.setup stage.plain) inner closure name values span)
      machine closure.function.returns := by
  refine (Runs.depth world).bind ?_
  rintro depth _ - rfl
  split
  · exact .fail world trivial
  · have body : ∀ entered, Leads stage machine.store.size machine entered →
        entered.ledger = machine.ledger →
        Runs stage machine.store.size (Run.inScope closure.home
          (boundParameters closure.function.parameters values) fun frame =>
            statements (Tracing.setup stage.plain) inner frame closure.function.body.statements)
          entered (fun value _ => value.Is .void)
          (Exit.Fits ⟨false, some closure.function.returns⟩) := by
      intro entered leads sameLedger
      have insideNow : closure.home < entered.store.size := leads.size ▸ inside
      have understoodNow :
          Understood stage (entered.reach closure.home) closure.function context outlook := by
        rw [leads.below.reach world.rooted inside]
        exact understood
      rw [← sameLedger, ← leads.size] at sites
      rw [← leads.size]
      refine .inScope leads.world insideNow (boundParameters_wellFormed fit) ?_
      intro opened
      exact statements_runs sound _ understood.body
        (body_ready leads.world insideNow understoodNow opened sites fit)
    refine ((Runs.deeper world body).settle).bind ?_
    intro ended after leads ends
    exact callResult_runs leads.world ends

/-! ## The call of a name -/

/-- The machine on which a function of the script is about to be called. -/
structure Announced (machine : Machine (Traced Host)) (scope : Nat) (name : String)
    (signature : Signature) (closure : Closure) : Prop where
  found : machine.store.function? scope name = some closure
  stored : ∃ home, machine.store.functionIn? name home = some closure
  signature : closure.function.signature = signature
  sites : ∀ name, machine.ledger.sites machine.store.size name =
    if name ∈ Parameter.names closure.function.parameters then
      some closure.function.body.span else none

theorem announce_runs {node : Node} {name : String} {signature : Signature} {site : Option Span}
    (notNative : stage.plain.natives.find? name = none) (world : World stage machine)
    (inside : scope < machine.store.size)
    (reaches : Reaches stage machine scope node (.func name) ⟨.func signature, site⟩) :
    Runs stage machine.store.size (Tracing.announce stage.plain node scope name) machine
      (fun _ after => ∃ closure, Announced after scope name signature closure) Exit.Quiet := by
  unfold Tracing.announce
  rw [notNative]
  refine (note_runs world reaches).bind ?_
  intro _ noted leads _
  have later := reaches.later world leads inside
  obtain ⟨home, closure, found, stored, means⟩ := Machine.function?_of_reach later.reached
  refine (Runs.store leads.world).bind ?_
  rintro store _ - ⟨rfl, rfl⟩
  rw [found, ← leads.size]
  refine (Runs.prepare leads.world _ _).mono (Nat.le_refl _) ?_ fun _ quiet => quiet
  rintro _ after - ⟨sameStore, sites⟩
  refine ⟨closure, ?_, ⟨home, ?_⟩, (Meaning.func.inj means).symm, ?_⟩
  · rw [sameStore, found]
  · rw [sameStore, stored]
  · rw [sameStore]
    exact sites

theorem isAlive_of_world (world : World stage machine) {home : Nat}
    (inside : home < machine.store.size) : machine.store.isAlive home = true := by
  rw [Store.isAlive, world.held home inside, Bool.true_or]

theorem invoke_runs (sound : Sound stage inner) {name : String} {nodes : List Node}
    {values : List Value} {signature : Signature} {span : Span} {closure : Closure}
    (notNative : stage.plain.natives.find? name = none) (world : World stage machine)
    (announced : Announced machine scope name signature closure)
    (taken : Takes signature.parameters nodes) (fitting : Fitting nodes values) :
    RunsTyped stage (invoke (Tracing.setup stage.plain) inner name values span scope) machine
      signature.returns := by
  obtain ⟨home, stored⟩ := announced.stored
  obtain ⟨isHome, context, outlook, understood⟩ := world.closures home name closure stored
  have inside : closure.home < machine.store.size := isHome ▸ Store.functionIn?_lt stored
  have fit : List.Forall₂ (fun (parameter : Parameter) (value : Value) =>
      (value.widenTo parameter.ty).Is parameter.ty) closure.function.parameters values := by
    rw [← announced.signature] at taken
    exact List.forall₂_map_left_iff.mp (widened_arguments taken fitting)
  have notTraced : (Tracing.setup stage.plain).natives.find? name = none := by
    rw [Tracing.setup, Setup.beside, Bindings.find?_map, notNative]
    rfl
  unfold invoke
  rw [notTraced]
  refine (Runs.store world).bind ?_
  rintro store _ - ⟨rfl, rfl⟩
  rw [announced.found]
  dsimp only
  rw [isAlive_of_world world inside, if_pos rfl, ← announced.signature]
  exact callFunction_runs sound world inside (isHome ▸ understood) announced.sites fit

theorem call_runs (sound : Sound stage inner) {name : String} {arguments : List Node}
    {signature : Signature} {span : Span} (found : context.signature? name = some signature)
    (typed : ∀ argument ∈ arguments, Expression context argument)
    (taken : Takes signature.parameters arguments)
    (ready : ReadyNode stage context outlook machine scope
      ⟨.call name arguments, signature.returns, span⟩) :
    RunsTyped stage (do
      let values ← values inner scope arguments
      Tracing.announce stage.plain ⟨.call name arguments, signature.returns, span⟩ scope name
      invoke (Tracing.setup stage.plain) inner name values span scope) machine
      signature.returns := by
  have nativeTable := ready.sees.natives
  refine (values_runs sound typed ready.rest).bind ?_
  intro values after leads fitting
  cases isNative : stage.plain.natives.find? name with
  | some native =>
    -- Natives are found first, both where the call is read and where it is run.
    have isSignature : native.signature = signature := by
      have inTable : context.natives.find? name = some native.signature := by
        rw [nativeTable, Bindings.find?_map, isNative]
        rfl
      rw [Context.signature?, inTable] at found
      exact Option.some.inj found
    have isTraced : (Tracing.setup stage.plain).natives.find? name =
        some (Tracing.native native) := by
      rw [Tracing.setup, Setup.beside, Bindings.find?_map, isNative]
      rfl
    unfold Tracing.announce invoke
    rw [isNative, isTraced]
    subst isSignature
    refine (Runs.pure leads.world trivial : Runs stage _ _ after (fun _ _ => True) _).bind ?_
    intro _ next further _
    exact callNative_runs isNative further.world taken fitting
  | none =>
    have notNative : context.natives.find? name = none := by
      rw [nativeTable, Bindings.find?_map, isNative]
      rfl
    obtain ⟨site, means⟩ := ready.sees.fits.functions name signature notNative found
    have reaches := (Ready.reaches ready means ⟨rfl, taken⟩).later ready.world leads ready.inside
    have inside := leads.size ▸ ready.inside
    rw [← leads.size]
    refine (announce_runs isNative leads.world inside reaches).bind ?_
    rintro _ next further ⟨closure, announced⟩
    rw [← further.size]
    exact invoke_runs sound isNative further.world announced taken fitting

end RobotScript
