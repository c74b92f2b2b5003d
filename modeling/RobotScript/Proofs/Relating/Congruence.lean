import RobotScript.Proofs.Relating.Pairing

/-! # Relations that the evaluator keeps

A congruence relates the runs of two evaluators that number their scopes in the same way,
and is kept by the steps that runs are made of. Whatever such a relation says, it says of
the whole evaluator (`Congruence.evaluate`): each property of runs needs no more than one
fact for each kind of step.

Nodes may be restricted to those that are `apt` for the scope in which they are
evaluated; in a scope that is `fresh` every node is. Scopes may be restricted to those
that are `near`: only from these is anything looked up, and the home of every function
that is found from them has to be one of them. -/
set_option autoImplicit false

namespace RobotScript

open Evaluation

variable {Host Other : Type}

structure Congruence (setup : Setup Host) (other : Setup Other) (Rel : Relation Host Other)
    (Apt : ScopeId → Node → Prop) (Fresh Near : ScopeId → Prop) : Prop where
  parts : ∀ scope node, Apt scope node → ∀ part ∈ node.parts, Apt scope part
  fresh : ∀ scope node, Fresh scope → Apt scope node
  near : ∀ scope node, Apt scope node → Near scope
  exhausted : ∀ {α : Type}, Rel α Run.exhausted Run.exhausted
  pure : ∀ {α : Type} (value : α), Rel α (Pure.pure value) (Pure.pure value)
  stop : ∀ {α : Type} (exit : Exit), exit.IsOwn → Rel α (Run.stop exit) (Run.stop exit)
  bind : ∀ {α β : Type} {first : Run Host α} {second : Run Other α} {next : α → Run Host β}
    {last : α → Run Other β}, Rel α first second → (∀ value, Rel β (next value) (last value)) →
    Rel β (first >>= next) (second >>= last)
  recover : ∀ {α β : Type} {body : Run Host α} {shown : Run Other α}
    {next : Except Exit α → Run Host β} {last : Except Exit α → Run Other β}, Rel α body shown →
    HandsOn next → HandsOn last → (∀ result, Caught result → Rel β (next result) (last result)) →
    Rel β (body.settle >>= next) (shown.settle >>= last)
  inScope : ∀ (parent : ScopeId) (vars : Bindings Value) {body : ScopeId → Run Host Value}
    {shown : ScopeId → Run Other Value}, Near parent →
    (∀ id, Fresh id → Rel Value (body id) (shown id)) →
    Rel Value (Run.inScope parent vars body) (Run.inScope parent vars shown)
  deeper : ∀ {body : Run Host Value} {shown : Run Other Value}, Rel Value body shown →
    Rel Value (Run.deeper body) (Run.deeper shown)
  tick : ∀ span, Rel Unit (tick setup span) (tick other span)
  admitted : ∀ (span : Span) {next : Run Host Value} {last : Run Other Value},
    Rel Value next last → Rel Value (admitted setup span next) (admitted other span last)
  natives : ∀ name, Option.Rel (fun (native : Native Host) (twin : Native Other) =>
    ∀ arguments span, Rel Value (callNative native name arguments span)
      (callNative twin name arguments span)) (setup.natives.find? name) (other.natives.find? name)
  resolved : ∀ (name : String) (span : Span) (scope : ScopeId) {next : Closure → Run Host Value}
    {last : Closure → Run Other Value}, Near scope →
    (∀ closure, Near closure.home → Rel Value (next closure) (last closure)) →
    Rel Value (resolved name span scope next) (resolved name span scope last)
  variableValue : ∀ (scope : ScopeId) (name : String) (span : Span), Near scope →
    Rel Value (variableValue scope name span) (variableValue scope name span)
  overwritten : ∀ (name : String) (span : Span) (scope : ScopeId) (stored : Value), Near scope →
    Rel Value (overwritten name span scope stored) (overwritten name span scope stored)
  define : ∀ (scope : ScopeId) (name : String) (declared : Ty) (initializer : Option Node)
    (span : Span) (ty : Ty) (value : Value),
    Apt scope ⟨.declare name declared initializer, ty, span⟩ →
    Rel Unit (Run.changeStore fun store => store.define scope name value)
      (Run.changeStore fun store => store.define scope name value)
  defineFunction : ∀ (scope : ScopeId) (function : Function) (span : Span) (ty : Ty),
    Apt scope ⟨.define function, ty, span⟩ →
    Rel Unit (Run.changeStore fun store => store.defineFunction scope ⟨function, scope⟩)
      (Run.changeStore fun store => store.defineFunction scope ⟨function, scope⟩)

namespace Congruence

variable {setup : Setup Host} {other : Setup Other} {Rel : Relation Host Other}
variable {Apt : ScopeId → Node → Prop} {Fresh Near : ScopeId → Prop}

theorem pairing (congruence : Congruence setup other Rel Apt Fresh Near) :
    Pairing setup other Rel (fun scope twin node => scope = twin ∧ Apt scope node)
      (fun scope twin => scope = twin ∧ Fresh scope)
      (fun scope twin => scope = twin ∧ Near scope) where
  parts := by
    rintro scope _ node ⟨rfl, apt⟩ part member
    exact ⟨rfl, congruence.parts scope node apt part member⟩
  fresh := by
    rintro scope _ node ⟨rfl, isFresh⟩
    exact ⟨rfl, congruence.fresh scope node isFresh⟩
  near := by
    rintro scope _ node ⟨rfl, apt⟩
    exact ⟨rfl, congruence.near scope node apt⟩
  exhausted := congruence.exhausted
  pure := congruence.pure
  stop := congruence.stop
  bind := congruence.bind
  recover := congruence.recover
  inScope := by
    rintro parent _ vars body shown ⟨rfl, isNear⟩ bodies
    exact congruence.inScope parent vars isNear fun id isFresh => bodies id id ⟨rfl, isFresh⟩
  tick := congruence.tick
  variableValue := by
    rintro scope _ name span ⟨rfl, isNear⟩
    exact congruence.variableValue scope name span isNear
  overwritten := by
    rintro name span scope _ stored ⟨rfl, isNear⟩
    exact congruence.overwritten name span scope stored isNear
  define := by
    rintro scope _ name declared initializer span ty value ⟨rfl, apt⟩
    exact congruence.define scope name declared initializer span ty value apt
  defineFunction := by
    rintro scope _ function span ty ⟨rfl, apt⟩
    exact congruence.defineFunction scope function span ty apt
  deeper := congruence.deeper
  admitted := congruence.admitted
  natives := congruence.natives
  resolved := by
    rintro name span scope _ next last ⟨rfl, isNear⟩ runs
    exact congruence.resolved name span scope isNear fun closure homeNear =>
      runs closure.function closure.home closure.home ⟨rfl, homeNear⟩

section

variable {inner : Node → ScopeId → Run Host Value} {shown : Node → ScopeId → Run Other Value}
variable {scope : ScopeId}

def Nested (Rel : Relation Host Other) (Apt : ScopeId → Node → Prop)
    (inner : Node → ScopeId → Run Host Value) (shown : Node → ScopeId → Run Other Value) : Prop :=
  ∀ node scope, Apt scope node → Rel Value (inner node scope) (shown node scope)

theorem Nested.paired (nested : Nested Rel Apt inner shown) :
    Paired Rel (fun scope twin node => scope = twin ∧ Apt scope node) inner shown := by
  rintro node scope _ ⟨rfl, apt⟩
  exact nested node scope apt

variable (congruence : Congruence setup other Rel Apt Fresh Near) (nested : Nested Rel Apt inner shown)

include congruence nested

theorem values {nodes : List Node} (apt : ∀ node ∈ nodes, Apt scope node) :
    Rel (List Value) (Evaluation.values inner scope nodes)
      (Evaluation.values shown scope nodes) :=
  congruence.pairing.values nested.paired fun node member => ⟨rfl, apt node member⟩

theorem optionalValue {value : Option Node} (apt : ∀ node ∈ value.toList, Apt scope node) :
    Rel (Option Value) (Evaluation.optionalValue inner scope value)
      (Evaluation.optionalValue shown scope value) :=
  congruence.pairing.optionalValue nested.paired fun node member => ⟨rfl, apt node member⟩

theorem statements {nodes : List Node} (apt : ∀ node ∈ nodes, Apt scope node) :
    Rel Value (Evaluation.statements setup inner scope nodes)
      (Evaluation.statements other shown scope nodes) :=
  congruence.pairing.statements nested.paired fun node member => ⟨rfl, apt node member⟩

theorem callFunction {closure : Closure} (isNear : Near closure.home) (name : String)
    (arguments : List Value) (span : Span) :
    Rel Value (Evaluation.callFunction setup inner closure name arguments span)
      (Evaluation.callFunction other shown closure name arguments span) :=
  congruence.pairing.callFunction nested.paired ⟨rfl, isNear⟩ closure.function name arguments span

theorem invoke (isNear : Near scope) (name : String) (arguments : List Value) (span : Span) :
    Rel Value (Evaluation.invoke setup inner name arguments span scope)
      (Evaluation.invoke other shown name arguments span scope) :=
  congruence.pairing.invoke nested.paired ⟨rfl, isNear⟩ name arguments span

theorem form {fuel most : Nat} (allowed : Rel.Allows fuel most) {node : Node} (apt : Apt scope node) :
    Rel Value (Evaluation.form setup inner fuel node scope)
      (Evaluation.form other shown most node scope) :=
  congruence.pairing.form nested.paired allowed ⟨rfl, apt⟩

end

theorem evaluate (congruence : Congruence setup other Rel Apt Fresh Near) {fuel most : Nat}
    (allowed : Rel.Allows fuel most) :
    Nested Rel Apt (Evaluation.evaluate setup fuel) (Evaluation.evaluate other most) :=
  fun node scope apt => congruence.pairing.evaluate allowed node scope scope ⟨rfl, apt⟩

theorem script (congruence : Congruence setup other Rel Apt Fresh Near) {fuel most : Nat}
    (allowed : Rel.Allows fuel most) {scope : ScopeId} {nodes : List Node}
    (apt : ∀ node ∈ nodes, Apt scope node) (last : Value) :
    Rel Value (Evaluation.script setup (Evaluation.evaluate setup fuel) scope last nodes)
      (Evaluation.script other (Evaluation.evaluate other most) scope last nodes) :=
  congruence.pairing.script (congruence.pairing.evaluate allowed)
    (fun node member => ⟨rfl, apt node member⟩) last

end Congruence

end RobotScript
