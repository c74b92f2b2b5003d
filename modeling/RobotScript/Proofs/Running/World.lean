import RobotScript.Proofs.Running.Chains
import RobotScript.Proofs.Scoping.Calm
import RobotScript.Proofs.Tracing.Trace
import RobotScript.Proofs.Typing.Values

/-! # The world of a run

What holds of the machine at every point of a run of a well-typed script without
capture. Its heart is that every stored function is understood: whatever its body
uses reaches, from the scope in which the function was defined, the declaration
that the body was read with. `Leads` is how a part of a run may change the machine:
the scopes stay, and all but the innermost ones bind what they bound. -/
set_option autoImplicit false

namespace RobotScript

open Typing

/-- The surroundings of a run: the natives keep to their signatures and, like the
watch, keep a property of the host. -/
structure Stage (Host : Type) where
  plain : Setup Host
  links : List Use
  holds : Host → Prop
  honest : ∀ name native, plain.natives.find? name = some native →
    ∀ arguments host value after, native.run arguments host = (.ok value, after) →
      value.WellFormed
  keeps : ∀ name native, plain.natives.find? name = some native →
    ∀ arguments host, native.signature.parameters.Admits arguments → holds host →
      holds (native.run arguments host).2
  watches : ∀ watch, plain.watch = some watch →
    ∀ steps host, holds host → holds (watch steps host).2

variable {Host : Type} {stage : Stage Host}

/-- What the context and the outlook of a place in a script have to do with each
other and with the natives. -/
structure Stage.Sees (stage : Stage Host) (context : Context) (outlook : Outlook) : Prop where
  natives : context.natives = stage.plain.natives.map (·.signature)
  fits : Matches context outlook

/-- The names reach the declarations that the outlook has for them. -/
def Agrees (reach : Name → Option Entry) (outlook : Outlook) (names : List Name) : Prop :=
  ∀ name ∈ names, reach name = outlook name

/-- A function that was read with this context and this outlook, and for which
names still mean the same. -/
structure Understood (stage : Stage Host) (reach : Name → Option Entry) (function : Function)
    (context : Context) (outlook : Outlook) : Prop where
  sees : stage.Sees context outlook
  agrees : Agrees reach outlook (definitionFree function)
  declarable : ∀ parameter ∈ function.parameters, Declarable parameter.ty
  distinct : (function.parameters.map (·.name)).Nodup
  isBlock : IsBlock function.body
  body : Sequence (Statement ⟨false, some function.returns⟩)
    (context.entering function.parameters) function.body.statements
  captureFree : CaptureFree (Parameter.names function.parameters) function.body
  links : definitionLinks outlook function ⊆ stage.links

structure World (stage : Stage Host) (machine : Machine (Traced Host)) : Prop where
  rooted : machine.store.Rooted
  held : ∀ id < machine.store.size, machine.store.isHeld id = true
  wellFormed : ∀ id name value, machine.store.variableIn? name id = some value → value.WellFormed
  closures : ∀ id name closure, machine.store.functionIn? name id = some closure →
    closure.home = id ∧
      ∃ context outlook, Understood stage (machine.reach id) closure.function context outlook
  holds : stage.holds machine.host.1
  uses : ∀ use ∈ machine.ledger.uses, use ∈ stage.links ∧ use.Fits

structure Below (bound : Nat) (before after : Machine (Traced Host)) : Prop where
  sizes : ∀ id < bound, id < before.store.size ↔ id < after.store.size
  parents : ∀ id < bound, after.store.parent? id = before.store.parent? id
  functions : ∀ id < bound, ∀ name,
    after.store.functionIn? name id = before.store.functionIn? name id
  entries : ∀ id < bound, ∀ name, after.entryIn? name id = before.entryIn? name id

namespace Below

variable {bound : Nat} {first second third : Machine (Traced Host)}

theorem refl (bound : Nat) (machine : Machine (Traced Host)) : Below bound machine machine :=
  ⟨fun _ _ => Iff.rfl, fun _ _ => rfl, fun _ _ _ => rfl, fun _ _ _ => rfl⟩

theorem trans (one : Below bound first second) (two : Below bound second third) :
    Below bound first third :=
  ⟨fun id below => (one.sizes id below).trans (two.sizes id below),
    fun id below => (two.parents id below).trans (one.parents id below),
    fun id below name => (two.functions id below name).trans (one.functions id below name),
    fun id below name => (two.entries id below name).trans (one.entries id below name)⟩

theorem mono {lower : Nat} (changes : Below bound first second) (less : lower ≤ bound) :
    Below lower first second :=
  ⟨fun id below => changes.sizes id (Nat.lt_of_lt_of_le below less),
    fun id below => changes.parents id (Nat.lt_of_lt_of_le below less),
    fun id below => changes.functions id (Nat.lt_of_lt_of_le below less),
    fun id below => changes.entries id (Nat.lt_of_lt_of_le below less)⟩

theorem reach (changes : Below bound first second) (rooted : first.store.Rooted) {id : Nat}
    (below : id < bound) : second.reach id = first.reach id := by
  funext name
  unfold Machine.reach
  rw [Store.chain_congr changes.sizes changes.parents below]
  apply Store.findSome?_congr
  intro other member
  have older := Store.mem_chain rooted member
  exact changes.entries other (Nat.lt_of_le_of_lt older below) name

end Below

namespace Machine

theorem reach_eq {machine : Machine (Traced Host)} (rooted : machine.store.Rooted) {id : Nat}
    (inside : id < machine.store.size) (name : Name) :
    machine.reach id name =
      (machine.entryIn? name id).or
        ((machine.store.parent? id).bind fun parent => machine.reach parent name) :=
  Store.findSome?_chain rooted inside _

end Machine

/-! ## How a run may change the world -/

/-- The world is kept, the scopes are the same ones, and those before `bound`
bind what they bound. -/
structure Leads (stage : Stage Host) (bound : Nat) (before after : Machine (Traced Host)) :
    Prop where
  world : World stage after
  size : after.store.size = before.store.size
  below : Below bound before after

namespace Leads

variable {bound : Nat} {first second third : Machine (Traced Host)}

theorem refl (world : World stage first) (bound : Nat) : Leads stage bound first first :=
  ⟨world, rfl, .refl bound first⟩

theorem trans (one : Leads stage bound first second) (two : Leads stage bound second third) :
    Leads stage bound first third :=
  ⟨two.world, two.size.trans one.size, one.below.trans two.below⟩

theorem mono {lower : Nat} (leads : Leads stage bound first second) (less : lower ≤ bound) :
    Leads stage lower first second := ⟨leads.world, leads.size, leads.below.mono less⟩

end Leads

def Ended {α : Type} (good : α → Prop) (bad : Exit → Prop) : Except Exit α → Prop
  | .ok value => good value
  | .error exit => bad exit

def Runs {α : Type} (stage : Stage Host) (bound : Nat) (run : Run (Traced Host) α)
    (machine : Machine (Traced Host)) (good : α → Machine (Traced Host) → Prop)
    (bad : Exit → Prop) : Prop :=
  ∀ result after, run machine = some (result, after) →
    Leads stage bound machine after ∧ Ended (fun value => good value after) bad result

end RobotScript
