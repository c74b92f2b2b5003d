import RobotScript.Proofs.Binding.Ready

/-! # Steady runs

A run is steady from a machine on if, from wherever runs that leave all scopes alone may
have led, it leaves them alone as well. Steady runs are put together like runs, with no
machine in between to speak of; what an expression and a loop do follows from their
parts. -/
set_option autoImplicit false

namespace RobotScript

open Typing Evaluation

variable {Host : Type}

namespace Binding

variable {α β : Type} {footing : Footing Host} {machine : Machine (Watched Host)}

/-- Whatever has run since, and left all scopes alone, this run leaves them alone. -/
def Steady (footing : Footing Host) (machine : Machine (Watched Host)) (run : Run (Watched Host) α) :
    Prop :=
  ∀ later, Leads footing machine.store.size machine later →
    Runs footing machine.store.size run later fun _ _ => True

namespace Steady

variable {run : Run (Watched Host) α}

theorem here (steady : Steady footing machine run) (world : World footing machine) :
    RunsStill footing run machine := steady machine (.refl world _)

theorem of_runs (runs : ∀ later, Leads footing machine.store.size machine later →
    RunsStill footing run later) : Steady footing machine run := by
  intro later leads
  have still := runs later leads
  rwa [RunsStill, leads.size] at still

theorem pure (value : α) : Steady footing machine (Pure.pure value) :=
  fun _ leads => .pure leads.world trivial

theorem exhausted : Steady footing machine (Run.exhausted : Run (Watched Host) α) :=
  fun _ _ => .exhausted

theorem jump (target : Jump) :
    Steady footing machine (Run.stop (.jump target) : Run (Watched Host) α) :=
  fun _ leads => .jump leads.world target

theorem fault {fault : Fault} (isBound : fault.cause.Bound footing.faithful) :
    Steady footing machine (Run.stop (.fault fault) : Run (Watched Host) α) :=
  fun _ leads => .fault leads.world isBound

theorem lift (span : Span) {outcome : Except Cause α} (onValues : OnValues outcome) :
    Steady footing machine (Run.lift span outcome) :=
  fun _ leads => .lift leads.world span onValues fun _ _ => trivial

theorem tick (span : Span) : Steady footing machine (tick (Watching.setup footing.plain) span) :=
  fun _ leads => .tick leads.world span

theorem bind {next : α → Run (Watched Host) β} (first : Steady footing machine run)
    (second : ∀ value, Steady footing machine (next value)) :
    Steady footing machine (run >>= next) :=
  fun later leads => (first later leads).bind fun value between further _ =>
    second value between (leads.trans further)

theorem recover {next : Except Exit α → Run (Watched Host) β} (body : Steady footing machine run)
    (results : ∀ value, Steady footing machine (next (.ok value)))
    (jumps : ∀ jump, Steady footing machine (next (.error (.jump jump))))
    (faults : ∀ fault : Fault, fault.cause.Bound footing.faithful →
      Steady footing machine (next (.error (.fault fault)))) :
    Steady footing machine (run.settle >>= next) := by
  intro later leads
  refine (body later leads).settle.bind ?_
  intro ended between further ends
  have reached := leads.trans further
  rcases ended with (fault | jump) | value
  · exact faults fault ends between reached
  · exact jumps jump between reached
  · exact results value between reached

end Steady

/-! ## Parts of a node -/

section

variable {inner : Node → ScopeId → Run (Watched Host) Value} {scope : ScopeId}

theorem values_steady {nodes : List Node}
    (parts : ∀ node ∈ nodes, Steady footing machine (inner node scope)) :
    ∀ later, Leads footing machine.store.size machine later →
      Runs footing machine.store.size (values inner scope nodes) later
        fun results _ => results.length = nodes.length := by
  induction nodes with
  | nil => exact fun later leads => .pure leads.world rfl
  | cons node rest ih =>
    intro later leads
    refine (parts node List.mem_cons_self later leads).bind ?_
    intro value between further _
    have others := ih (fun other member => parts other (List.mem_cons_of_mem node member)) between
      (leads.trans further)
    refine others.bind ?_
    intro results behind beyond length
    exact .pure beyond.world (congrArg (· + 1) length)

theorem optionalValue_steady {value : Option Node}
    (parts : ∀ node ∈ value.toList, Steady footing machine (inner node scope)) :
    Steady footing machine (optionalValue inner scope value) := by
  cases value with
  | none => exact .pure none
  | some node =>
    exact (parts node (List.mem_singleton_self node)).bind fun result => .pure (some result)

theorem condition_steady {node : Node} (part : Steady footing machine (inner node scope)) :
    Steady footing machine (condition inner node scope) :=
  part.bind fun value => .lift node.span (.truth value)

theorem decided_steady (operator : BinaryOp) {left right : Node}
    (first : Steady footing machine (inner left scope))
    (second : Steady footing machine (inner right scope)) :
    Steady footing machine (decided inner operator left right scope) := by
  refine (condition_steady first).bind fun result => ?_
  split
  · exact .pure _
  · exact (condition_steady second).bind fun last => .pure _

theorem chain_steady {branches : List (Branch Form)} {otherwise : Option Node}
    (parts : ∀ node ∈ branches.flatMap Branch.parts ++ otherwise.toList,
      Steady footing machine (inner node scope)) :
    Steady footing machine (chain inner otherwise scope branches) := by
  induction branches with
  | nil =>
    cases otherwise with
    | none => exact .pure Value.void
    | some node => exact parts node (List.mem_singleton_self node)
  | cons branch rest ih =>
    rw [List.flatMap_cons, List.append_assoc] at parts
    have others := ih fun node member => parts node (List.mem_append_right branch.parts member)
    have here (node : Node) (member : node ∈ branch.parts) :=
      parts node (List.mem_append_left _ member)
    cases branch with
    | test guard body span =>
      refine (condition_steady (here guard List.mem_cons_self)).bind fun taken => ?_
      cases taken with
      | true => exact here body (List.mem_cons_of_mem guard List.mem_cons_self)
      | false => exact others
    | attempt body span =>
      refine (here body List.mem_cons_self).recover (fun value => .pure value) (fun target => .jump target)
        fun reason isBound => ?_
      dsimp only
      split
      · exact others
      · exact .fault isBound

/-! ## Loops -/

theorem round_steady {body : Node} (part : Steady footing machine (inner body scope))
    {next : Run (Watched Host) Value} (further : Steady footing machine next) :
    Steady footing machine (do
      if ← goesOn (← (inner body scope).settle) then next else return .void) := by
  refine part.recover (fun value => further) ?_ ?_
  · intro target
    cases target with
    | toCaller value => exact .jump _
    | behindLoop => exact .pure _
    | nextRound => exact further
  · exact fun reason isBound => .fault isBound

theorem rounds_steady (span : Span) {test body : Node} {next : Run (Watched Host) Unit} (fuel : Nat)
    (tests : Steady footing machine (inner test scope))
    (bodies : Steady footing machine (inner body scope)) (nexts : Steady footing machine next) :
    Steady footing machine
      (rounds (Watching.setup footing.plain) inner span test body next scope fuel) := by
  induction fuel with
  | zero => exact .exhausted
  | succ fuel ih =>
    refine (Steady.tick span).bind fun _ => (condition_steady tests).bind fun taken => ?_
    cases taken with
    | false => exact .pure _
    | true => exact round_steady bodies (nexts.bind fun _ => ih)

theorem repeated_steady (span : Span) {body : Node} (times : Nat)
    (bodies : Steady footing machine (inner body scope)) :
    Steady footing machine
      (repeated (Watching.setup footing.plain) inner span body scope times) := by
  induction times with
  | zero => exact .pure _
  | succ times ih => exact (Steady.tick span).bind fun _ => round_steady bodies ih

/-! ## Variables -/

variable {context : Context} {free : List Name} {extents : List Extent}

theorem Ready.variable (ready : Ready footing context machine scope free extents) {name : String}
    (declared : ∃ ty, context.variableType? name = some ty) (asked : footing.faithful)
    {later : Machine (Watched Host)} (leads : Leads footing machine.store.size machine later) :
    (later.store.get? scope name).isSome = true := by
  obtain ⟨ty, found⟩ := declared
  rw [leads.below.get? ready.world.rooted ready.inside]
  exact ready.sees.values asked name ty found

theorem variableValue_steady (ready : Ready footing context machine scope free extents)
    {name : String} (declared : ∃ ty, context.variableType? name = some ty) (span : Span) :
    Steady footing machine (variableValue scope name span) := by
  intro later leads
  refine .reading ?_
  cases found : later.store.get? scope name with
  | some value => exact .pure leads.world trivial
  | none =>
    refine .fail leads.world span fun asked => ?_
    have seen := ready.variable declared asked leads
    rw [found] at seen
    cases seen

theorem owner?_of_get? {store : Store} {name : String} (seen : (store.get? scope name).isSome = true) :
    (store.owner? scope name).isSome = true := by
  obtain ⟨owner, member, isBound⟩ := Store.get?_isSome.mp seen
  rw [Store.owner?, List.find?_isSome]
  exact ⟨owner, member, isBound⟩

theorem assign_steady (ready : Ready footing context machine scope free extents) {name : String}
    (declared : ∃ ty, context.variableType? name = some ty) (operator : AssignOp)
    {value : Option Node} (span : Span)
    (parts : ∀ node ∈ value.toList, Steady footing machine (inner node scope)) :
    Steady footing machine (assign inner name operator value span scope) := by
  refine (optionalValue_steady parts).bind fun right => ?_
  refine (variableValue_steady ready declared span).bind fun current => ?_
  refine (Steady.lift span (.updated name operator current right)).bind fun result => ?_
  intro later leads
  refine .reading ?_
  cases assigned : later.store.assign? scope name (result.widenTo current.ty) with
  | none =>
    refine .fail leads.world span fun asked => ?_
    have owned := owner?_of_get? (ready.variable declared asked leads)
    rw [Option.map_eq_none_iff.mp assigned] at owned
    cases owned
  | some stored =>
    obtain ⟨owner, owns, rfl⟩ := Store.assign?_eq_some assigned
    have isBound := List.find?_some (p := fun id => (later.store.variableIn? name id).isSome) owns
    refine (Runs.changeStore (.assigned leads.world _ isBound _)).bind ?_
    intro _ behind further _
    exact .pure further.world trivial

end

end Binding

end RobotScript
