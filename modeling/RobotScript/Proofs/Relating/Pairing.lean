import RobotScript.Proofs.Relating.Partings
import RobotScript.Proofs.Tree.Within

/-! # Relations that the steps of an evaluator keep

A relation between the runs of two evaluators may be kept by the steps that runs are made
of: values and exits, sequence, recovery, scopes and the few places where an evaluator asks
its setup. The forms are gone through once, here. `Stepwise` leaves calls out, which an
evaluator may treat in its own way; a `Pairing` is kept by calls as well, so that what it
says it says of the whole evaluator (`Pairing.evaluate`).

The two runs need not number their scopes in the same way. Nodes may be restricted to those
that are `apt` for the scopes in which they are evaluated; in scopes that are `fresh` every
node is. Scopes may be restricted to those that are `near` to each other: only from these is
anything looked up, and the homes of every function that is found from them have to be
near to each other too. -/
set_option autoImplicit false

namespace RobotScript

open Evaluation

variable {Host Other : Type}

/-! ## Relations -/

abbrev Relation (Host Other : Type) : Type 1 :=
  ∀ α : Type, Run Host α → Run Other α → Prop

/-- The first of two runs may have this much fuel and the second that: the same, or
more if nothing is said of a run that has none left. -/
def Relation.Allows (Rel : Relation Host Other) (fuel most : Nat) : Prop :=
  fuel = most ∨ fuel ≤ most ∧ ∀ {α : Type} {first : Run Host α} {second : Run Other α},
    Rel α first second → Rel α Run.exhausted second

namespace Relation.Allows

variable {Rel : Relation Host Other} {fuel most : Nat}

theorem refl (Rel : Relation Host Other) (fuel : Nat) : Rel.Allows fuel fuel := .inl rfl

theorem zero (allowed : Rel.Allows fuel 0) : fuel = 0 := by
  rcases allowed with same | ⟨less, -⟩
  · exact same
  · exact Nat.le_zero.mp less

theorem pred (allowed : Rel.Allows (fuel + 1) (most + 1)) : Rel.Allows fuel most := by
  rcases allowed with same | ⟨less, fewer⟩
  · exact .inl (Nat.succ.inj same)
  · exact .inr ⟨Nat.le_of_succ_le_succ less, fewer⟩

theorem fewer (allowed : Rel.Allows 0 (most + 1)) {α : Type} {first : Run Host α}
    {second : Run Other α} (related : Rel α first second) : Rel α Run.exhausted second := by
  rcases allowed with ⟨⟨⟩⟩ | ⟨-, fewer⟩
  exact fewer related

end Relation.Allows

/-- What is true of runs is true of those that single steps make of them, calls apart. -/
structure Stepwise (setup : Setup Host) (other : Setup Other) (Rel : Relation Host Other)
    (Apt : ScopeId → ScopeId → Node → Prop) (Fresh Near : ScopeId → ScopeId → Prop) : Prop where
  parts : ∀ scope twin node, Apt scope twin node → ∀ part ∈ node.parts, Apt scope twin part
  fresh : ∀ scope twin node, Fresh scope twin → Apt scope twin node
  near : ∀ scope twin node, Apt scope twin node → Near scope twin
  exhausted : ∀ {α : Type}, Rel α Run.exhausted Run.exhausted
  pure : ∀ {α : Type} (value : α), Rel α (Pure.pure value) (Pure.pure value)
  stop : ∀ {α : Type} (exit : Exit), exit.IsOwn → Rel α (Run.stop exit) (Run.stop exit)
  bind : ∀ {α β : Type} {first : Run Host α} {second : Run Other α} {next : α → Run Host β}
    {last : α → Run Other β}, Rel α first second → (∀ value, Rel β (next value) (last value)) →
    Rel β (first >>= next) (second >>= last)
  recover : ∀ {α β : Type} {body : Run Host α} {shown : Run Other α}
    {next : Except Exit α → Run Host β} {last : Except Exit α → Run Other β}, Rel α body shown →
    HandsOn next → HandsOn last → (∀ result, Caught result → Rel β (next result) (last result)) →
    Rel β (body.settle >>= next) (shown.settle >>= last)
  inScope : ∀ (parent around : ScopeId) (vars : Bindings Value) {body : ScopeId → Run Host Value}
    {shown : ScopeId → Run Other Value}, Near parent around →
    (∀ id twin, Fresh id twin → Rel Value (body id) (shown twin)) →
    Rel Value (Run.inScope parent vars body) (Run.inScope around vars shown)
  tick : ∀ span, Rel Unit (tick setup span) (tick other span)
  variableValue : ∀ (scope twin : ScopeId) (name : String) (span : Span), Near scope twin →
    Rel Value (variableValue scope name span) (variableValue twin name span)
  overwritten : ∀ (name : String) (span : Span) (scope twin : ScopeId) (stored : Value),
    Near scope twin →
    Rel Value (overwritten name span scope stored) (overwritten name span twin stored)
  define : ∀ (scope twin : ScopeId) (name : String) (declared : Ty) (initializer : Option Node)
    (span : Span) (ty : Ty) (value : Value),
    Apt scope twin ⟨.declare name declared initializer, ty, span⟩ →
    Rel Unit (Run.changeStore fun store => store.define scope name value)
      (Run.changeStore fun store => store.define twin name value)
  defineFunction : ∀ (scope twin : ScopeId) (function : Function) (span : Span) (ty : Ty),
    Apt scope twin ⟨.define function, ty, span⟩ →
    Rel Unit (Run.changeStore fun store => store.defineFunction scope ⟨function, scope⟩)
      (Run.changeStore fun store => store.defineFunction twin ⟨function, twin⟩)

structure Pairing (setup : Setup Host) (other : Setup Other) (Rel : Relation Host Other)
    (Apt : ScopeId → ScopeId → Node → Prop) (Fresh Near : ScopeId → ScopeId → Prop) : Prop extends
    Stepwise setup other Rel Apt Fresh Near where
  deeper : ∀ {body : Run Host Value} {shown : Run Other Value}, Rel Value body shown →
    Rel Value (Run.deeper body) (Run.deeper shown)
  admitted : ∀ (span : Span) {next : Run Host Value} {last : Run Other Value},
    Rel Value next last → Rel Value (admitted setup span next) (admitted other span last)
  natives : ∀ name, Option.Rel (fun (native : Native Host) (twin : Native Other) =>
    ∀ arguments span, Rel Value (callNative native name arguments span)
      (callNative twin name arguments span)) (setup.natives.find? name) (other.natives.find? name)
  resolved : ∀ (name : String) (span : Span) (scope twin : ScopeId)
    {next : Closure → Run Host Value} {last : Closure → Run Other Value}, Near scope twin →
    (∀ function home around, Near home around →
      Rel Value (next ⟨function, home⟩) (last ⟨function, around⟩)) →
    Rel Value (resolved name span scope next) (resolved name span twin last)

variable {setup : Setup Host} {other : Setup Other} {Rel : Relation Host Other}
variable {Apt : ScopeId → ScopeId → Node → Prop} {Fresh Near : ScopeId → ScopeId → Prop}
variable {inner : Node → ScopeId → Run Host Value} {shown : Node → ScopeId → Run Other Value}
variable {scope twin : ScopeId}

def Paired (Rel : Relation Host Other) (Apt : ScopeId → ScopeId → Node → Prop)
    (inner : Node → ScopeId → Run Host Value) (shown : Node → ScopeId → Run Other Value) : Prop :=
  ∀ node scope twin, Apt scope twin node → Rel Value (inner node scope) (shown node twin)

/-! ## Forms, calls apart -/

namespace Stepwise

theorem fail (stepwise : Stepwise setup other Rel Apt Fresh Near) {α : Type} {cause : Cause}
    (own : cause.IsOwn) (span : Span) : Rel α (Run.fail cause span) (Run.fail cause span) :=
  stepwise.stop (.fault ⟨cause, span⟩) own

theorem lift (stepwise : Stepwise setup other Rel Apt Fresh Near) {α : Type}
    {outcome : Except Cause α} (own : FailsOwn outcome) (span : Span) :
    Rel α (Run.lift span outcome) (Run.lift span outcome) := by
  cases outcome with
  | ok value => exact stepwise.pure value
  | error cause => exact stepwise.fail (own cause rfl) span

section

variable (stepwise : Stepwise setup other Rel Apt Fresh Near) (nested : Paired Rel Apt inner shown)

include stepwise nested

theorem values {nodes : List Node} (apt : ∀ node ∈ nodes, Apt scope twin node) :
    Rel (List Value) (Evaluation.values inner scope nodes)
      (Evaluation.values shown twin nodes) := by
  induction nodes with
  | nil => exact stepwise.pure []
  | cons node rest ih =>
    refine stepwise.bind (nested node scope twin (apt node List.mem_cons_self)) fun first => ?_
    refine stepwise.bind (ih fun other member => apt other (List.mem_cons_of_mem node member)) ?_
    exact fun others => stepwise.pure (first :: others)

theorem optionalValue {value : Option Node} (apt : ∀ node ∈ value.toList, Apt scope twin node) :
    Rel (Option Value) (Evaluation.optionalValue inner scope value)
      (Evaluation.optionalValue shown twin value) := by
  cases value with
  | none => exact stepwise.pure none
  | some node =>
    refine stepwise.bind (nested node scope twin (apt node (List.mem_singleton_self node))) ?_
    exact fun result => stepwise.pure (some result)

theorem condition {node : Node} (apt : Apt scope twin node) :
    Rel Bool (Evaluation.condition inner node scope) (Evaluation.condition shown node twin) :=
  stepwise.bind (nested node scope twin apt) fun value =>
    stepwise.lift (OnValues.truth value).failsOwn node.span

theorem decided (operator : BinaryOp) {left right : Node} (leftApt : Apt scope twin left)
    (rightApt : Apt scope twin right) :
    Rel Value (Evaluation.decided inner operator left right scope)
      (Evaluation.decided shown operator left right twin) := by
  refine stepwise.bind (stepwise.condition nested leftApt) fun first => ?_
  split
  · exact stepwise.pure (Value.bool first)
  · refine stepwise.bind (stepwise.condition nested rightApt) fun second => ?_
    exact stepwise.pure (Value.bool second)

theorem statements {nodes : List Node} (apt : ∀ node ∈ nodes, Apt scope twin node) :
    Rel Value (Evaluation.statements setup inner scope nodes)
      (Evaluation.statements other shown twin nodes) := by
  induction nodes with
  | nil => exact stepwise.pure Value.void
  | cons node rest ih =>
    refine stepwise.bind (stepwise.tick node.span) fun _ => ?_
    refine stepwise.bind (nested node scope twin (apt node List.mem_cons_self)) fun _ => ?_
    exact ih fun other member => apt other (List.mem_cons_of_mem node member)

omit nested in
theorem callResult (name : String) (returns : Ty) (span : Span) {result : Except Exit Value}
    (caught : Caught result) :
    Rel Value (Evaluation.callResult name returns span result)
      (Evaluation.callResult name returns span result) := by
  have ended : Rel Value
      (if returns.isVoid then Pure.pure Value.void
        else Run.fail (.recoverable (.endedWithoutResult name returns)) span)
      (if returns.isVoid then Pure.pure Value.void
        else Run.fail (.recoverable (.endedWithoutResult name returns)) span) := by
    split
    · exact stepwise.pure Value.void
    · exact stepwise.fail (.recoverable _) span
  rcases result with (fault | (value | _ | _)) | value
  · exact stepwise.stop _ caught.isOwn
  · exact stepwise.pure (value.widenTo returns)
  · exact ended
  · exact ended
  · exact ended

theorem body {home around : ScopeId} (isNear : Near home around) (vars : Bindings Value)
    (nodes : List Node) :
    Rel Value
      (Run.inScope home vars fun frame => Evaluation.statements setup inner frame nodes)
      (Run.inScope around vars fun frame => Evaluation.statements other shown frame nodes) := by
  refine stepwise.inScope home around vars isNear fun frame twin isFresh => ?_
  exact stepwise.statements nested fun node _ => stepwise.fresh frame twin node isFresh

theorem assign (isNear : Near scope twin) (name : String) (operator : AssignOp) {right : Option Node}
    (span : Span) (apt : ∀ node ∈ right.toList, Apt scope twin node) :
    Rel Value (Evaluation.assign inner name operator right span scope)
      (Evaluation.assign shown name operator right span twin) := by
  refine stepwise.bind (stepwise.optionalValue nested apt) fun result => ?_
  refine stepwise.bind (stepwise.variableValue scope twin name span isNear) fun current => ?_
  have onValues := OnValues.updated name operator current result
  refine stepwise.bind (stepwise.lift onValues.failsOwn span) ?_
  exact fun value => stepwise.overwritten name span scope twin (value.widenTo current.ty) isNear

theorem chain {branches : List (Branch Form)} {otherwise : Option Node}
    (apt : ∀ node ∈ branches.flatMap Branch.parts ++ otherwise.toList, Apt scope twin node) :
    Rel Value (Evaluation.chain inner otherwise scope branches)
      (Evaluation.chain shown otherwise twin branches) := by
  induction branches with
  | nil =>
    cases otherwise with
    | none => exact stepwise.pure Value.void
    | some node => exact nested node scope twin (apt node (List.mem_singleton_self node))
  | cons branch rest ih =>
    have others := ih fun node member => apt node (by
      rw [List.flatMap_cons, List.append_assoc]
      exact List.mem_append_right branch.parts member)
    have here : ∀ node ∈ branch.parts, Apt scope twin node := fun node member => apt node (by
      rw [List.flatMap_cons, List.append_assoc]
      exact List.mem_append_left _ member)
    cases branch with
    | test guard body span =>
      refine stepwise.bind (stepwise.condition nested (here guard List.mem_cons_self)) ?_
      intro taken
      cases taken with
      | true => exact nested body scope twin (here body (List.mem_cons_of_mem _ List.mem_cons_self))
      | false => exact others
    | attempt body span =>
      refine stepwise.recover (nested body scope twin (here body List.mem_cons_self)) ?_ ?_ ?_
      · intro fault fatal
        simp only [fatal, Bool.false_eq_true, if_false]
      · intro fault fatal
        simp only [fatal, Bool.false_eq_true, if_false]
      · intro result caught
        rcases result with (fault | target) | value
        · have recovers : fault.isRecoverable = true := caught
          simp only [recovers, if_true]
          exact others
        · exact stepwise.stop _ trivial
        · exact stepwise.pure value

omit nested in
theorem goesOn {result : Except Exit Value} (caught : Caught result) :
    Rel Bool (Evaluation.goesOn result) (Evaluation.goesOn result) := by
  rcases result with (fault | (value | _ | _)) | value
  · exact stepwise.stop _ caught.isOwn
  · exact stepwise.stop _ trivial
  · exact stepwise.pure false
  · exact stepwise.pure true
  · exact stepwise.pure true

theorem round {body : Node} (apt : Apt scope twin body) {next : Run Host Value}
    {last : Run Other Value} (further : Rel Value next last) :
    Rel Value
      (do if ← Evaluation.goesOn (← (inner body scope).settle) then next else return .void)
      (do if ← Evaluation.goesOn (← (shown body twin).settle) then last else return .void) := by
  refine stepwise.recover (nested body scope twin apt) (fun _ _ => rfl) (fun _ _ => rfl) ?_
  intro result caught
  refine stepwise.bind (stepwise.goesOn caught) fun goes => ?_
  cases goes with
  | true => exact further
  | false => exact stepwise.pure Value.void

theorem rounds (span : Span) {test body : Node} (testApt : Apt scope twin test)
    (bodyApt : Apt scope twin body) {next : Run Host Unit} {last : Run Other Unit}
    (further : Rel Unit next last) {fuel most : Nat} (allowed : Rel.Allows fuel most) :
    Rel Value (Evaluation.rounds setup inner span test body next scope fuel)
      (Evaluation.rounds other shown span test body last twin most) := by
  induction most generalizing fuel with
  | zero =>
    obtain rfl := allowed.zero
    exact stepwise.exhausted
  | succ most ih =>
    have step {fuel : Nat} (allowed : Rel.Allows fuel most) : Rel Value
        (Evaluation.rounds setup inner span test body next scope (fuel + 1))
        (Evaluation.rounds other shown span test body last twin (most + 1)) := by
      refine stepwise.bind (stepwise.tick span) fun _ => ?_
      refine stepwise.bind (stepwise.condition nested testApt) fun taken => ?_
      cases taken with
      | false => exact stepwise.pure Value.void
      | true =>
        exact stepwise.round nested bodyApt (stepwise.bind further fun _ => ih allowed)
    cases fuel with
    | zero => exact allowed.fewer (step (.refl Rel most))
    | succ fuel => exact step allowed.pred

theorem repeated (span : Span) {body : Node} (apt : Apt scope twin body) (times : Nat) :
    Rel Value (Evaluation.repeated setup inner span body scope times)
      (Evaluation.repeated other shown span body twin times) := by
  induction times with
  | zero => exact stepwise.pure Value.void
  | succ times ih =>
    refine stepwise.bind (stepwise.tick span) fun _ => ?_
    exact stepwise.round nested apt ih

/-- Nodes that are no calls, and calls that are known to be related. -/
theorem form {fuel most : Nat} (allowed : Rel.Allows fuel most) {node : Node}
    (apt : Apt scope twin node)
    (called : ∀ name arguments, node.form = .call name arguments →
      Rel Value (Evaluation.call setup inner name arguments node.span scope)
        (Evaluation.call other shown name arguments node.span twin)) :
    Rel Value (Evaluation.form setup inner fuel node scope)
      (Evaluation.form other shown most node twin) := by
  have parts := stepwise.parts scope twin node apt
  have isNear := stepwise.near scope twin node apt
  obtain ⟨form, ty, span⟩ := node
  cases form with
  | literal value => exact stepwise.pure value
  | «variable» name => exact stepwise.variableValue scope twin name span isNear
  | unary operator operand =>
    refine stepwise.bind (nested operand scope twin (parts operand List.mem_cons_self)) fun value => ?_
    exact stepwise.lift (OnValues.unary operator value).failsOwn span
  | binary left operator right =>
    have leftApt := parts left List.mem_cons_self
    have rightApt := parts right (List.mem_cons_of_mem left List.mem_cons_self)
    unfold Evaluation.form
    dsimp only
    split
    · exact stepwise.decided nested operator leftApt rightApt
    · refine stepwise.bind (nested left scope twin leftApt) fun first => ?_
      refine stepwise.bind (nested right scope twin rightApt) fun second => ?_
      exact stepwise.lift (OnValues.binary operator first second).failsOwn span
  | block nodes =>
    exact stepwise.body nested isNear .empty nodes
  | returning value =>
    refine stepwise.bind (stepwise.optionalValue nested parts) fun result => ?_
    exact stepwise.stop _ trivial
  | breaking => exact stepwise.stop _ trivial
  | continuing => exact stepwise.stop _ trivial
  | declare name declared initializer =>
    refine stepwise.bind (stepwise.optionalValue nested parts) fun value => ?_
    refine stepwise.bind ?_ fun _ => stepwise.pure Value.void
    exact stepwise.define scope twin name declared initializer span ty _ apt
  | assign name operator value => exact stepwise.assign nested isNear name operator span parts
  | define function =>
    refine stepwise.bind ?_ fun _ => stepwise.pure Value.void
    exact stepwise.defineFunction scope twin function span ty apt
  | call name arguments => exact called name arguments rfl
  | index name position =>
    refine stepwise.bind (nested position scope twin (parts position List.mem_cons_self)) ?_
    intro number
    refine stepwise.bind (stepwise.variableValue scope twin name span isNear) fun list => ?_
    exact stepwise.lift (OnValues.itemAt name list number).failsOwn span
  | list elements =>
    refine stepwise.bind (stepwise.values nested parts) fun items => ?_
    exact stepwise.pure _
  | loop initializer test step body =>
    -- The header is a fresh pair of scopes, so every node may be evaluated there.
    have inside : ∀ header around, Fresh header around → Rel Value
        (inner initializer header >>= fun _ =>
          Evaluation.rounds setup inner span test body (inner step header >>= fun _ => Pure.pure ())
            header fuel)
        (shown initializer around >>= fun _ =>
          Evaluation.rounds other shown span test body (shown step around >>= fun _ => Pure.pure ())
            around most) := by
      intro header around isFresh
      have apt := fun node => stepwise.fresh header around node isFresh
      refine stepwise.bind (nested initializer header around (apt initializer)) fun _ => ?_
      refine stepwise.rounds nested span (apt test) (apt body) ?_ allowed
      exact stepwise.bind (nested step header around (apt step)) fun _ => stepwise.pure ()
    exact stepwise.inScope scope twin .empty isNear inside
  | repeating count body =>
    have countApt := parts count List.mem_cons_self
    have bodyApt := parts body (List.mem_cons_of_mem count List.mem_cons_self)
    refine stepwise.bind (nested count scope twin countApt) fun number => ?_
    have onValues := OnValues.repetitions number
    refine stepwise.bind (stepwise.lift onValues.failsOwn count.span) fun times => ?_
    exact stepwise.repeated nested span bodyApt times
  | whileTrue test body =>
    exact stepwise.rounds nested span (parts test List.mem_cons_self)
      (parts body (List.mem_cons_of_mem test List.mem_cons_self)) (stepwise.pure ()) allowed
  | chain branches otherwise => exact stepwise.chain nested parts

theorem script {nodes : List Node} (apt : ∀ node ∈ nodes, Apt scope twin node) (last : Value) :
    Rel Value (Evaluation.script setup inner scope last nodes)
      (Evaluation.script other shown twin last nodes) := by
  induction nodes generalizing last with
  | nil => exact stepwise.pure last
  | cons node rest ih =>
    have first : Rel Value (topStatement setup inner scope node)
        (topStatement other shown twin node) :=
      stepwise.bind (stepwise.tick node.span) fun _ =>
        nested node scope twin (apt node List.mem_cons_self)
    have others := ih fun other member => apt other (List.mem_cons_of_mem node member)
    refine stepwise.recover first (fun _ _ => rfl) (fun _ _ => rfl) fun result caught => ?_
    refine stepwise.bind ?_ others
    rcases result with exit | value
    · refine stepwise.stop _ ?_
      rcases exit with fault | (value | _ | _)
      · exact Fault.isOwn_of_isRecoverable caught
      · trivial
      · trivial
      · trivial
    · exact stepwise.pure value

end

end Stepwise

/-! ## All forms -/

namespace Pairing

section

variable (pairing : Pairing setup other Rel Apt Fresh Near) (nested : Paired Rel Apt inner shown)

include pairing nested

theorem callFunction {home around : ScopeId} (isNear : Near home around) (function : Function)
    (name : String) (arguments : List Value) (span : Span) :
    Rel Value (Evaluation.callFunction setup inner ⟨function, home⟩ name arguments span)
      (Evaluation.callFunction other shown ⟨function, around⟩ name arguments span) := by
  have body := pairing.body nested isNear (boundParameters function.parameters arguments)
    function.body.statements
  exact pairing.admitted span (pairing.recover (pairing.deeper body) (fun _ _ => rfl)
    (fun _ _ => rfl) fun result caught => pairing.callResult name function.returns span caught)

theorem invoke (isNear : Near scope twin) (name : String) (arguments : List Value) (span : Span) :
    Rel Value (Evaluation.invoke setup inner name arguments span scope)
      (Evaluation.invoke other shown name arguments span twin) := by
  have related := pairing.natives name
  unfold Evaluation.invoke
  cases found : setup.natives.find? name with
  | none =>
    rw [found] at related
    cases isOther : other.natives.find? name with
    | some match_ =>
      rw [isOther] at related
      cases related
    | none =>
      exact pairing.resolved name span scope twin isNear fun function home around homeNear =>
        pairing.callFunction nested homeNear function name arguments span
  | some native =>
    rw [found] at related
    cases isOther : other.natives.find? name with
    | none =>
      rw [isOther] at related
      cases related
    | some match_ =>
      rw [isOther] at related
      cases related with
      | some same => exact same arguments span

theorem form {fuel most : Nat} (allowed : Rel.Allows fuel most) {node : Node}
    (apt : Apt scope twin node) :
    Rel Value (Evaluation.form setup inner fuel node scope)
      (Evaluation.form other shown most node twin) := by
  refine pairing.toStepwise.form nested allowed apt fun name arguments isCall => ?_
  have parts := pairing.parts scope twin node apt
  rw [Typed.parts, isCall] at parts
  exact pairing.bind (pairing.values nested parts) fun results =>
    pairing.invoke nested (pairing.near scope twin node apt) name results node.span

end

/-- What a pairing says, it says of the evaluators of the two setups. -/
theorem evaluate (pairing : Pairing setup other Rel Apt Fresh Near) {fuel most : Nat}
    (allowed : Rel.Allows fuel most) :
    Paired Rel Apt (Evaluation.evaluate setup fuel) (Evaluation.evaluate other most) := by
  induction most generalizing fuel with
  | zero =>
    obtain rfl := allowed.zero
    exact fun _ _ _ _ => pairing.exhausted
  | succ most ih =>
    have step {fuel : Nat} (allowed : Rel.Allows fuel most) :
        Paired Rel Apt (Evaluation.evaluate setup (fuel + 1))
          (Evaluation.evaluate other (most + 1)) :=
      fun _ _ _ apt => pairing.form (ih allowed) allowed apt
    cases fuel with
    | zero =>
      exact fun node scope twin apt => allowed.fewer (step (.refl Rel most) node scope twin apt)
    | succ fuel => exact step allowed.pred

end Pairing

end RobotScript
