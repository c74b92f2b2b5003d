import RobotScript.Proofs.Running.Ready

/-! # The scope of a function body

When a function is called its parameters are bound in a new scope around which lies
the home of the function. What a name reaches from there is what the outlook of the
body has for it, if from the home it reaches what the outlook of the definition
had. -/
set_option autoImplicit false

namespace RobotScript

open Evaluation

variable {Host : Type} {stage : Stage Host} {machine : Machine (Traced Host)}

/-- Variables bound at the place `site`, which `inner` adds to `outlook`. -/
def BindsAs (outlook : Outlook) (site : Span) (bindings : Bindings Value) (inner : Outlook)
    (names : List Name) : Prop :=
  ∀ label, match bindings.find? label with
    | some value =>
      value.WellFormed ∧ .var label ∈ names ∧ inner (.var label) = some ⟨.var value.ty, some site⟩
    | none => .var label ∉ names ∧ inner (.var label) = outlook (.var label)

theorem BindsAs.insert {outlook inner : Outlook} {site : Span} {bindings : Bindings Value}
    {names : List Name} (binds : BindsAs outlook site bindings inner names) (label : String)
    {value : Value} {ty : Ty} (typed : value.Is ty) :
    BindsAs outlook site (bindings.insert label value)
      (inner.declare (.var label) ⟨.var ty, some site⟩) (names ++ [.var label]) := by
  intro other
  rw [Bindings.find?_insert]
  by_cases same : label = other
  · subst same
    rw [if_pos rfl, ← typed.ty]
    exact ⟨typed.wellFormed, List.mem_append_right _ (List.mem_singleton.mpr rfl), if_pos rfl⟩
  · have otherName : Name.var other ≠ .var label := fun equal => same (Name.var.inj equal).symm
    have before := binds other
    rw [if_neg same]
    cases found : bindings.find? other with
    | some stored =>
      rw [found] at before
      exact ⟨before.1, List.mem_append_left _ before.2.1, (if_neg otherName).trans before.2.2⟩
    | none =>
      rw [found] at before
      refine ⟨?_, (if_neg otherName).trans before.2⟩
      intro member
      rcases List.mem_append.mp member with old | new
      · exact before.1 old
      · exact otherName (List.mem_singleton.mp new)

theorem BindsAs.parameters {outlook inner : Outlook} {site : Span} {bindings : Bindings Value}
    {names : List Name} {parameters : List Parameter} {values : List Value}
    (binds : BindsAs outlook site bindings inner names)
    (fit : List.Forall₂ (fun (parameter : Parameter) (value : Value) =>
      (value.widenTo parameter.ty).Is parameter.ty) parameters values) :
    BindsAs outlook site
      ((List.zipWith (fun parameter argument => (parameter.name, argument.widenTo parameter.ty))
        parameters values).foldl (fun bindings entry => bindings.insert entry.1 entry.2) bindings)
      (inner.entering site parameters) (names ++ Parameter.names parameters) := by
  induction fit generalizing bindings inner names with
  | nil =>
    have same : names ++ Parameter.names [] = names := List.append_nil names
    rw [same]
    exact binds
  | @cons parameter value parameters values typed _ ih =>
    have further := ih (binds.insert parameter.name typed)
    rwa [List.append_assoc] at further

theorem boundParameters_binds (outlook : Outlook) (site : Span) {parameters : List Parameter}
    {values : List Value}
    (fit : List.Forall₂ (fun (parameter : Parameter) (value : Value) =>
      (value.widenTo parameter.ty).Is parameter.ty) parameters values) :
    BindsAs outlook site (boundParameters parameters values) (outlook.entering site parameters)
      (Parameter.names parameters) := by
  have blank : BindsAs outlook site .empty outlook [] := fun _ => ⟨List.not_mem_nil, rfl⟩
  exact blank.parameters fit

theorem Outlook.entering_func (outlook : Outlook) (site : Span) (parameters : List Parameter)
    (label : String) : outlook.entering site parameters (.func label) = outlook (.func label) := by
  unfold entering
  induction parameters generalizing outlook with
  | nil => rfl
  | cons parameter rest ih => exact ih _

namespace Machine

theorem parent?_opened (machine : Machine (Traced Host)) (parent : ScopeId)
    (vars : Bindings Value) :
    (machine.opened parent vars).store.parent? machine.store.size = some parent :=
  Store.parent?_opened machine.store parent vars

theorem functionIn?_opened (machine : Machine (Traced Host)) (parent : ScopeId)
    (vars : Bindings Value) (label : String) :
    (machine.opened parent vars).store.functionIn? label machine.store.size = none :=
  Store.functionIn?_opened machine.store (some parent) vars label

theorem variableIn?_opened (machine : Machine (Traced Host)) (parent : ScopeId)
    (vars : Bindings Value) (label : String) :
    (machine.opened parent vars).store.variableIn? label machine.store.size =
      vars.find? label :=
  Store.variableIn?_opened machine.store (some parent) vars label

end Machine

theorem Machine.reach_opened (world : World stage machine) {parent : Nat}
    (inside : parent < machine.store.size) {vars : Bindings Value}
    (opened : World stage (machine.opened parent vars)) (name : Name) :
    (machine.opened parent vars).reach machine.store.size name =
      ((machine.opened parent vars).entryIn? name machine.store.size).or
        (machine.reach parent name) := by
  have new : machine.store.size < (machine.opened parent vars).store.size := by
    rw [Machine.opened, Store.size_opened]
    exact Nat.lt_succ_self _
  rw [Machine.reach_eq opened.rooted new, Machine.parent?_opened, Option.bind_some,
    (Below.opened machine parent vars).reach world.rooted inside]

theorem Machine.reach_empty (world : World stage machine) {parent : Nat}
    (inside : parent < machine.store.size)
    (opened : World stage (machine.opened parent .empty)) :
    (machine.opened parent .empty).reach machine.store.size = machine.reach parent := by
  funext name
  rw [Machine.reach_opened world inside opened]
  cases name with
  | var label => rw [Machine.entryIn?, Machine.variableIn?_opened]; rfl
  | func label => rw [Machine.entryIn?, Machine.functionIn?_opened]; rfl

/-- From a prepared new scope with the parameters, names reach what the outlook of
the body has for them. -/
theorem frame_agrees (world : World stage machine) {home : Nat}
    (inside : home < machine.store.size) {outlook : Outlook} {site : Span}
    {parameters : List Parameter} {values : List Value} {free : List Name}
    (opened : World stage (machine.opened home (boundParameters parameters values)))
    (sites : ∀ name, machine.ledger.sites machine.store.size name =
      if name ∈ Parameter.names parameters then some site else none)
    (fit : List.Forall₂ (fun (parameter : Parameter) (value : Value) =>
      (value.widenTo parameter.ty).Is parameter.ty) parameters values)
    (agrees : Agrees (machine.reach home) outlook
      (free.filter fun name => name ∉ Parameter.names parameters)) :
    Agrees ((machine.opened home (boundParameters parameters values)).reach machine.store.size)
      (outlook.entering site parameters) free := by
  intro name member
  rw [Machine.reach_opened world inside opened]
  cases name with
  | func label =>
    have unbound : Name.func label ∉ Parameter.names parameters := by
      intro bound
      obtain ⟨parameter, -, isFunc⟩ := List.mem_map.mp bound
      cases isFunc
    rw [Machine.entryIn?, Machine.functionIn?_opened, outlook.entering_func]
    exact agrees _ (List.mem_filter.mpr ⟨member, decide_eq_true unbound⟩)
  | var label =>
    have binds := boundParameters_binds outlook site fit label
    rw [Machine.entryIn?, Machine.variableIn?_opened]
    cases found : (boundParameters parameters values).find? label with
    | some value =>
      rw [found] at binds
      obtain ⟨-, bound, means⟩ := binds
      rw [means, Option.map_some, Option.some_or]
      have here : (machine.opened home (boundParameters parameters values)).ledger.sites
          machine.store.size (.var label) = some site := (sites _).trans (if_pos bound)
      rw [here]
    | none =>
      rw [found] at binds
      obtain ⟨unbound, means⟩ := binds
      rw [means]
      exact agrees _ (List.mem_filter.mpr ⟨member, decide_eq_true unbound⟩)

end RobotScript
