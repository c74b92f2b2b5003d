import RobotScript.Proofs.Running.Expressions

/-! # Uses of variables

Reading a variable, reading an item of a list and assigning. Each is noted with
what it reaches, which is the declaration that its outlook has for it. -/
set_option autoImplicit false

namespace RobotScript

open Typing Evaluation

variable {Host : Type} {stage : Stage Host} {inner : Node → ScopeId → Run (Traced Host) Value}
variable {context : Context} {outlook : Outlook} {machine : Machine (Traced Host)} {scope : Nat}

/-- What a use of a name needs, besides what its parts need. -/
structure Reaches (stage : Stage Host) (machine : Machine (Traced Host)) (scope : Nat)
    (node : Node) (name : Name) (entry : Entry) : Prop where
  reached : machine.reach scope name = some entry
  linked : ⟨node, some entry⟩ ∈ stage.links
  fits : Use.Fits ⟨node, some entry⟩

theorem Ready.reaches {free : List Name} {links : List Use} {extents : List Extent} {node : Node}
    {name : Name} {entry : Entry}
    (ready : Ready stage context outlook machine scope (name :: free)
      (⟨node, outlook name⟩ :: links) extents)
    (means : outlook name = some entry) (fits : Use.Fits ⟨node, some entry⟩) :
    Reaches stage machine scope node name entry where
  reached := (ready.agrees name List.mem_cons_self).trans means
  linked := means ▸ ready.links List.mem_cons_self
  fits := fits

theorem Reaches.later {after : Machine (Traced Host)} {node : Node} {name : Name} {entry : Entry}
    {bound : Nat} (reaches : Reaches stage machine scope node name entry) (world : World stage machine)
    (leads : Leads stage bound machine after) (below : scope < bound) :
    Reaches stage after scope node name entry :=
  { reaches with reached := by rw [leads.below.reach world.rooted below, reaches.reached] }

theorem note_runs {bound : Nat} {node : Node} {name : Name} {entry : Entry} {bad : Exit → Prop}
    (world : World stage machine) (reaches : Reaches stage machine scope node name entry) :
    Runs stage bound (Tracing.note node scope name) machine (fun _ _ => True) bad := by
  refine (Runs.note world ?_ ?_).mono (Nat.le_refl bound) (fun _ _ _ _ => trivial) fun _ ends => ends
  · rw [reaches.reached]
    exact reaches.linked
  · rw [reaches.reached]
    exact reaches.fits

theorem variableValue_runs {bound : Nat} {name : String} {ty : Ty} {site : Option Span}
    {span : Span} (world : World stage machine)
    (reached : machine.reach scope (.var name) = some ⟨.var ty, site⟩) :
    Runs stage bound (variableValue scope name span) machine
      (fun value after => value.Is ty ∧ machine = after) Exit.Quiet := by
  obtain ⟨owner, value, read, -, bound', means⟩ := Machine.get?_of_reach reached
  obtain rfl : ty = value.ty := Meaning.var.inj means
  refine (Runs.store world).bind ?_
  rintro store after leads ⟨rfl, rfl⟩
  rw [read]
  exact .pure world ⟨⟨rfl, world.wellFormed owner name value bound'⟩, rfl⟩

theorem variable_runs {name : String} {ty : Ty} {span : Span}
    (found : context.variableType? name = some ty)
    (ready : ReadyNode stage context outlook machine scope ⟨.variable name, ty, span⟩) :
    RunsTyped stage (do
      Tracing.note ⟨.variable name, ty, span⟩ scope (.var name)
      variableValue scope name span) machine ty := by
  obtain ⟨site, means⟩ := ready.sees.fits.vars name ty found
  have reaches := Ready.reaches ready means rfl
  refine (note_runs ready.world reaches).bind ?_
  intro _ after leads _
  have later := reaches.later ready.world leads ready.inside
  exact (variableValue_runs leads.world later.reached).mono (Nat.le_refl _)
    (fun value behind _ here => here.1) fun _ ends => ends

theorem noting_runs (sound : Sound stage inner) {node child : Node} {name : Name} {entry : Entry}
    (typed : Expression context child)
    (ready : ReadyNode stage context outlook machine scope child)
    (reaches : Reaches stage machine scope node name entry) :
    RunsTyped stage (Tracing.noting inner node scope name child scope) machine child.ty := by
  refine (sound.expression typed ready).bind ?_
  intro value after leads valueTyped
  have later := reaches.later ready.world leads ready.inside
  refine (note_runs leads.world later).bind ?_
  intro _ behind further _
  exact .pure further.world valueTyped

theorem itemAt_computes {name : String} {list position : Value} {ty : Ty} (typed : list.Is ty)
    (isList : ty.isList = true) (positionTyped : position.Is .int) :
    Computes (·.Is ty.element) (itemAt name list position) := by
  obtain ⟨items, rfl, itemsTyped⟩ := typed.list isList
  obtain ⟨number, rfl⟩ := positionTyped.int
  simp only [itemAt, Value.asInt?]
  split
  · exact computes_recoverable _
  · split
    · rename_i item found
      exact itemsTyped item (List.mem_of_getElem? found)
    · exact computes_recoverable _

theorem index_runs (sound : Sound stage inner) {name : String} {position : Node} {ty : Ty}
    {span : Span} (found : context.variableType? name = some ty) (isList : ty.isList = true)
    (typed : Expression context position) (isInt : position.ty = .int)
    (ready : ReadyNode stage context outlook machine scope
      ⟨.index name position, ty.element, span⟩) :
    RunsTyped stage (do
      let position ←
        Tracing.noting inner ⟨.index name position, ty.element, span⟩ scope (.var name) position scope
      let list ← variableValue scope name span
      Run.lift span (itemAt name list position)) machine ty.element := by
  obtain ⟨site, means⟩ := ready.sees.fits.vars name ty found
  have reaches := Ready.reaches ready means ⟨isList, rfl⟩
  refine (noting_runs sound typed ready.rest reaches).bind ?_
  intro number after leads numberTyped
  rw [isInt] at numberTyped
  have later := reaches.later ready.world leads ready.inside
  refine (variableValue_runs leads.world later.reached).bind ?_
  rintro list behind - ⟨listTyped, rfl⟩
  exact .lift leads.world (itemAt_computes listTyped isList numberTyped) (fun _ made => made)
    fun _ => trivial

/-! ## Assignments -/

def Storable (ty : Ty) (result : Value) : Prop :=
  ∃ source, result.Is source ∧ ty.accepts source = true

theorem Run.changeStore_runs {change : Store → Store} {bound : Nat} {bad : Exit → Prop}
    (leads : Leads stage bound machine { machine with store := change machine.store }) :
    Runs stage bound (Run.changeStore change) machine (fun _ _ => True) bad := by
  intro result after run
  cases run
  exact ⟨leads, trivial⟩

theorem assign_runs {wrapped : Node → ScopeId → Run (Traced Host) Value} {name : String}
    {operator : AssignOp} {value : Option Node} {ty : Ty} {site : Option Span} {span : Span}
    (inside : scope < machine.store.size) (world : World stage machine)
    (reached : machine.reach scope (.var name) = some ⟨.var ty, site⟩)
    (right : Runs stage machine.store.size (optionalValue wrapped scope value) machine
      (fun right _ => ∀ current : Value, current.Is ty →
        Computes (Storable ty) (updated name operator current right)) Exit.Quiet) :
    RunsTyped stage (assign wrapped name operator value span scope) machine ty := by
  refine right.bind ?_
  intro result after leads computes
  have reachedLater : after.reach scope (.var name) = some ⟨.var ty, site⟩ := by
    rw [leads.below.reach world.rooted inside, reached]
  refine (variableValue_runs leads.world reachedLater).bind ?_
  rintro current _ - ⟨currentTyped, rfl⟩
  refine (Runs.lift leads.world (computes current currentTyped) (fun _ made => ⟨made, rfl⟩)
    fun _ => trivial : Runs stage machine.store.size _ after
      (fun made behind => Storable ty made ∧ after = behind) Exit.Quiet).bind ?_
  rintro made _ - ⟨⟨source, madeTyped, accepted⟩, rfl⟩
  have storedTyped : (made.widenTo current.ty).Is ty := by
    rw [currentTyped.ty]
    exact madeTyped.widenTo accepted
  obtain ⟨owner, old, -, owns, bound, means⟩ := Machine.get?_of_reach reachedLater
  obtain rfl : ty = old.ty := Meaning.var.inj means
  refine (Runs.store leads.world).bind ?_
  rintro store _ - ⟨rfl, rfl⟩
  rw [Store.assign?, owns]
  have changes := Leads.assigned leads.world machine.store.size bound storedTyped.ty
    storedTyped.wellFormed
  refine (Run.changeStore_runs changes).bind ?_
  intro _ behind further _
  exact .pure further.world storedTyped

theorem set_runs (sound : Sound stage inner) {name : String} {value : Node} {ty : Ty} {span : Span}
    (found : context.variableType? name = some ty) (typed : Expression context value)
    (accepted : ty.accepts value.ty = true)
    (ready : ReadyNode stage context outlook machine scope
      ⟨.assign name .set (some value), ty, span⟩) :
    RunsTyped stage (assign
      (Tracing.noting inner ⟨.assign name .set (some value), ty, span⟩ scope (.var name))
      name .set (some value) span scope) machine ty := by
  obtain ⟨site, means⟩ := ready.sees.fits.vars name ty found
  have reaches := Ready.reaches ready means rfl
  refine assign_runs ready.inside ready.world reaches.reached ?_
  refine (noting_runs sound typed ready.rest reaches).bind ?_
  intro made after leads madeTyped
  refine .pure leads.world ?_
  intro current _
  exact ⟨value.ty, madeTyped, accepted⟩

theorem combine_runs (sound : Sound stage inner) {name : String} {operator : BinaryOp}
    {value : Node} {ty result : Ty} {span : Span} (found : context.variableType? name = some ty)
    (typed : Expression context value) (applies : operator.result? ty value.ty = some result)
    (accepted : ty.accepts result = true)
    (ready : ReadyNode stage context outlook machine scope
      ⟨.assign name (.compound operator) (some value), ty, span⟩) :
    RunsTyped stage (assign
      (Tracing.noting inner ⟨.assign name (.compound operator) (some value), ty, span⟩ scope
        (.var name))
      name (.compound operator) (some value) span scope) machine ty := by
  obtain ⟨site, means⟩ := ready.sees.fits.vars name ty found
  have reaches := Ready.reaches ready means rfl
  refine assign_runs ready.inside ready.world reaches.reached ?_
  refine (noting_runs sound typed ready.rest reaches).bind ?_
  intro made after leads madeTyped
  refine .pure leads.world ?_
  intro current currentTyped
  exact (BinaryOp.apply_computes currentTyped madeTyped applies).mono
    fun _ resultTyped => ⟨result, resultTyped, accepted⟩

theorem count_computes {name : String} {operator : AssignOp} {current : Value} {ty : Ty}
    (counting : operator = .increment ∨ operator = .decrement) (numeric : ty.isNumeric = true)
    (typed : current.Is ty) : Computes (Storable ty) (updated name operator current none) := by
  have widest : ty.widest .int = ty := by
    rcases Ty.isNumeric_iff.mp numeric with rfl | rfl <;> rfl
  have accepts : ty.accepts ty = true := by
    rcases Ty.isNumeric_iff.mp numeric with rfl | rfl <;> rfl
  have storable : ∀ result : Value, result.Is (ty.widest .int) → Storable ty result :=
    fun result resultTyped => ⟨ty, widest ▸ resultTyped, accepts⟩
  rcases counting with rfl | rfl
  · exact (addOrJoin_computes typed (Value.int_is 1) numeric rfl).mono storable
  · exact (arithmetic_computes .subtract (fun _ _ => exactly_computes _ _) _ typed
      (Value.int_is 1) numeric rfl).mono storable

theorem count_runs {name : String} {operator : AssignOp} {ty : Ty} {span : Span}
    (found : context.variableType? name = some ty)
    (counting : operator = .increment ∨ operator = .decrement) (numeric : ty.isNumeric = true)
    (ready : ReadyNode stage context outlook machine scope
      ⟨.assign name operator none, ty, span⟩) :
    RunsTyped stage (do
      Tracing.note ⟨.assign name operator none, ty, span⟩ scope (.var name)
      assign inner name operator none span scope) machine ty := by
  obtain ⟨site, means⟩ := ready.sees.fits.vars name ty found
  have reaches := Ready.reaches ready means rfl
  refine (note_runs ready.world reaches).bind ?_
  intro _ after leads _
  have later := reaches.later ready.world leads ready.inside
  have assigned : RunsTyped stage (assign inner name operator none span scope) after ty := by
    refine assign_runs (leads.size ▸ ready.inside) leads.world later.reached ?_
    refine .pure leads.world ?_
    intro current currentTyped
    exact count_computes counting numeric currentTyped
  rw [RunsTyped, leads.size] at assigned
  exact assigned

end RobotScript
