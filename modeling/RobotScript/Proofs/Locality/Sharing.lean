import Mathlib.Data.List.Find
import RobotScript.Proofs.Locality.Regions
import RobotScript.Proofs.Relating.Lockstep

/-! # Stores that share a region

Two stores that have the same scopes in a region which no chain leaves look the same from
within: the same names are found, with the same values. A run that starts in the region
goes the same way on both. -/
set_option autoImplicit false

namespace RobotScript

open Evaluation

namespace Store

variable {store other : Store} {region : ScopeId → Prop}

/-! ## Lookups from a shared region -/

/-- The stores have the same scopes in a region, and no chain leaves it. -/
structure Shared (region : ScopeId → Prop) (store other : Store) : Prop where
  scopes : ∀ id, region id → other.scope? id = store.scope? id
  closed : ∀ id, region id → ∀ around ∈ store.chain id, region around

theorem mem_chain_of_parent {id parent : ScopeId} (isParent : store.parent? id = some parent)
    (older : parent < id) : parent ∈ store.chain id := by
  obtain ⟨scope, isScope, isOuter⟩ := Option.bind_eq_some_iff.mp isParent
  have inside : id < store.size := scope?_isSome.mp (Option.isSome_of_mem isScope)
  rw [chain, isScope]
  dsimp only
  rw [isOuter]
  dsimp only
  rw [if_pos older]
  exact List.mem_cons_of_mem id (mem_chain_self (Nat.lt_trans older inside))

namespace Shared

variable (shared : Shared region store other) {id : ScopeId} (within : region id)

include shared within

theorem chain : other.chain id = store.chain id := by
  induction id using Nat.strongRecOn with
  | ind id ih =>
    refine chain_step ?_ ?_ fun parent older isParent => ?_
    · rw [← scope?_isSome, ← scope?_isSome, shared.scopes id within]
    · rw [parent?, parent?, shared.scopes id within]
    · exact ih parent older (shared.closed id within parent (mem_chain_of_parent isParent older))

theorem get? (name : String) : other.get? id name = store.get? id name := by
  rw [Store.get?, Store.get?, shared.chain within]
  refine findSome?_congr fun around member => ?_
  rw [variableIn?, variableIn?, shared.scopes around (shared.closed id within around member)]

theorem function? (name : String) : other.function? id name = store.function? id name := by
  rw [Store.function?, Store.function?, shared.chain within]
  refine findSome?_congr fun around member => ?_
  rw [functionIn?, functionIn?, shared.scopes around (shared.closed id within around member)]

theorem owner? (name : String) : other.owner? id name = store.owner? id name := by
  rw [Store.owner?, Store.owner?, shared.chain within]
  refine List.find?_congr fun around member => ?_
  rw [variableIn?, variableIn?, shared.scopes around (shared.closed id within around member)]

end Shared

structure AlikeAround (scope : ScopeId) (store other : Store) : Prop where
  size : other.size = store.size
  scopes : ∀ id ∈ store.chain scope, other.scope? id = store.scope? id

namespace AlikeAround

variable {scope : ScopeId} (alike : AlikeAround scope store other)

include alike

theorem shared : Shared (· ∈ store.chain scope) store other where
  scopes := alike.scopes
  closed _ member _ around := chain_subset member around

theorem chain : other.chain scope = store.chain scope := by
  rcases Nat.lt_or_ge scope store.size with inside | outside
  · exact alike.shared.chain (mem_chain_self inside)
  · rw [chain_of_size_le outside, chain_of_size_le (alike.size ▸ outside)]

theorem nearby {id : ScopeId} : other.Nearby scope id ↔ store.Nearby scope id := by
  rw [Nearby, Nearby, alike.chain, alike.size]

end AlikeAround

end Store

/-! ## Runs beside each other -/

variable {Host : Type} {first second : Store} {scope : ScopeId} {count : Nat}

/-- Two machines on which a run in a scope, begun on the stores `first` and `second`, has
come to the same point; each now has `count` scopes. -/
structure Machine.Beside (first second : Store) (scope : ScopeId) (count : Nat)
    (machine twin : Machine Host) : Prop where
  one : Store.Since first scope machine.store
  two : Store.Since second scope twin.store
  size : machine.store.size = count
  sizeToo : twin.store.size = count
  scopes : ∀ id, first.Nearby scope id → twin.store.scope? id = machine.store.scope? id
  depth : twin.depth = machine.depth
  outside : twin.outside = machine.outside

/-- However many scopes are open, the runs go in lockstep and leave as many. -/
def Alongside (Host : Type) (first second : Store) (scope : ScopeId) : Relation Host Host :=
  fun α run other => ∀ count, Lockstep (Machine.Beside first second scope count) α run other

namespace Machine.Beside

section

variable {machine twin : Machine Host} (beside : Machine.Beside first second scope count machine twin)

include beside

theorem shared : Store.Shared (first.Nearby scope) machine.store twin.store where
  scopes := beside.scopes
  closed _ near _ around := beside.one.nearby_of_mem_chain near around

theorem deeper : Machine.Beside first second scope count machine.deeper twin.deeper :=
  { beside with depth := congrArg (· + 1) beside.depth }

theorem shallower : Machine.Beside first second scope count machine.shallower twin.shallower :=
  { beside with depth := congrArg (· - 1) beside.depth }

theorem changed {one two : Store} (since : Store.Since first scope one)
    (sinceToo : Store.Since second scope two) (size : one.size = machine.store.size)
    (sizeToo : two.size = twin.store.size)
    (scopes : ∀ id, twin.store.scope? id = machine.store.scope? id → two.scope? id = one.scope? id) :
    Machine.Beside first second scope count { machine with store := one }
      { twin with store := two } where
  one := since
  two := sinceToo
  size := size.trans beside.size
  sizeToo := sizeToo.trans beside.sizeToo
  scopes id near := scopes id (beside.scopes id near)
  depth := beside.depth
  outside := beside.outside

variable (alike : Store.AlikeAround scope first second)

include alike

theorem define {id : ScopeId} (near : first.Nearby scope id) (name : String) (value : Value) :
    Machine.Beside first second scope count
      { machine with store := machine.store.define id name value }
      { twin with store := twin.store.define id name value } := by
  refine beside.changed (beside.one.define near name value)
    (beside.two.define (alike.nearby.mpr near) name value) (Store.size_define ..)
    (Store.size_define ..) fun other same => ?_
  rw [Store.scope?_define, Store.scope?_define, same]

theorem defineFunction {id : ScopeId} (near : first.Nearby scope id) (function : Function) :
    Machine.Beside first second scope count
      { machine with store := machine.store.defineFunction id ⟨function, id⟩ }
      { twin with store := twin.store.defineFunction id ⟨function, id⟩ } := by
  refine beside.changed (beside.one.defineFunction near function)
    (beside.two.defineFunction (alike.nearby.mpr near) function) (Store.size_defineFunction ..)
    (Store.size_defineFunction ..) fun other same => ?_
  rw [Store.scope?_defineFunction, Store.scope?_defineFunction, same]

theorem entered {parent : ScopeId} (near : first.Nearby scope parent) (vars : Bindings Value) :
    Machine.Beside first second scope (count + 1) (machine.entered parent vars)
      (twin.entered parent vars) where
  one := beside.one.opened near vars
  two := beside.two.opened (alike.nearby.mpr near) vars
  size := (Store.size_opened ..).trans (congrArg (· + 1) beside.size)
  sizeToo := (Store.size_opened ..).trans (congrArg (· + 1) beside.sizeToo)
  scopes id isNear := by
    rw [Machine.entered, Machine.entered, Store.scope?_opened, Store.scope?_opened,
      beside.size, beside.sizeToo, beside.scopes id isNear]
  depth := beside.depth
  outside := beside.outside

end

theorem left {machine twin : Machine Host}
    (beside : Machine.Beside first second scope (count + 1) machine twin)
    (alike : Store.AlikeAround scope first second) (more : first.size ≤ count) :
    Machine.Beside first second scope count machine.left twin.left where
  one := beside.one.closed (beside.size ▸ Nat.lt_succ_of_le more)
  two := beside.two.closed (beside.sizeToo ▸ alike.size ▸ Nat.lt_succ_of_le more)
  size := (Store.size_closed _).trans (congrArg (· - 1) beside.size)
  sizeToo := (Store.size_closed _).trans (congrArg (· - 1) beside.sizeToo)
  scopes id near := by
    rw [Machine.left, Machine.left, Store.scope?_closed_eq, Store.scope?_closed_eq, beside.size,
      beside.sizeToo, beside.scopes id near]
  depth := beside.depth
  outside := beside.outside

theorem sharesOutside : SharesOutside (@Machine.Beside Host first second scope count) where
  same _ _ beside := beside.outside
  keeps _ _ beside _ _ := { beside with outside := rfl }

end Machine.Beside

namespace Alongside

variable (alike : Store.AlikeAround scope first second)

include alike

theorem inScope {parent : ScopeId} (near : first.Nearby scope parent) (vars : Bindings Value)
    {body shown : ScopeId → Run Host Value}
    (bodies : ∀ id, first.size ≤ id → Alongside Host first second scope Value (body id) (shown id)) :
    Alongside Host first second scope Value (Run.inScope parent vars body)
      (Run.inScope parent vars shown) := by
  intro count machine twin beside
  have more : first.size ≤ count := beside.size ▸ beside.one.size
  refine (bodies count more (count + 1)).wrapped (fun _ _ both => both.entered alike near vars)
    (fun _ _ both => both.left alike more) beside ?_ ?_
  · rw [Run.inScope_eq, beside.size]
  · rw [Run.inScope_eq, beside.sizeToo]

variable (alive : first.isAlive scope = true) (aliveToo : second.isAlive scope = true)

include alive aliveToo

theorem resolved (name : String) (span : Span) {id : ScopeId} (near : first.Nearby scope id)
    {next last : Closure → Run Host Value}
    (runs : ∀ closure, first.Nearby scope closure.home →
      Alongside Host first second scope Value (next closure) (last closure)) :
    Alongside Host first second scope Value (resolved name span id next)
      (resolved name span id last) := by
  refine fun count => .reading fun machine twin beside => ?_
  rw [beside.shared.function? near name]
  cases found : machine.store.function? id name with
  | none => exact .stop _
  | some closure =>
    obtain ⟨home, around⟩ := beside.one.home near found
    have aroundToo : closure.home ∈ twin.store.chain id := (beside.shared.chain near).symm ▸ around
    dsimp only
    rw [beside.one.isAlive alive near around,
      beside.two.isAlive aliveToo (alike.nearby.mpr near) aroundToo, if_pos rfl, if_pos rfl]
    exact runs closure home count

omit alive aliveToo alike

theorem variableValue {id : ScopeId} (near : first.Nearby scope id) (name : String) (span : Span) :
    Alongside Host first second scope Value (variableValue id name span)
      (variableValue id name span) := by
  refine fun count => .reading fun machine twin beside => ?_
  rw [beside.shared.get? near name]
  cases machine.store.get? id name with
  | none => exact .stop _
  | some value => exact .pure value

include alike

theorem overwritten {id : ScopeId} (near : first.Nearby scope id) (name : String) (span : Span)
    (stored : Value) :
    Alongside Host first second scope Value (overwritten name span id stored)
      (overwritten name span id stored) := by
  refine fun count => .reading fun machine twin beside => ?_
  unfold Store.assign?
  rw [beside.shared.owner? near name]
  cases owns : machine.store.owner? id name with
  | none => exact .stop _
  | some owner =>
    have isNear : first.Nearby scope owner :=
      beside.one.nearby_of_mem_chain near (List.mem_of_find?_eq_some owns)
    have written := beside.define alike isNear name stored
    refine .bind (fun one two both => ?_) fun _ => .pure stored
    exact .inr ⟨.ok (), _, _, rfl, rfl,
      { written with depth := both.depth, outside := both.outside }⟩

include alive aliveToo

/-- What a run in a scope does, it does alike on both stores. -/
theorem congruence (setup : Setup Host) :
    Congruence setup setup (Alongside Host first second scope)
      (fun id _ => first.Nearby scope id) (fun id => first.size ≤ id) (first.Nearby scope) where
  parts := fun _ _ near _ _ => near
  fresh := fun _ _ later => .inr later
  near := fun _ _ near => near
  exhausted := fun _ => .exhausted
  pure := fun value _ => .pure value
  stop := fun exit _ _ => .stop exit
  bind := fun one two count => .bind (one count) fun value => two value count
  recover := fun runs handsOn handsOnToo handles count =>
    .recover (runs count) handsOn handsOnToo fun result caught => handles result caught count
  inScope := fun parent vars _ _ near bodies => inScope alike near vars bodies
  deeper := fun runs count =>
    .deeper (runs count) (fun _ _ beside => beside.deeper) fun _ _ beside => beside.shallower
  tick := fun span _ => Machine.Beside.sharesOutside.tick setup span
  admitted := by
    intro span next last runs count
    refine .bind (.depth fun _ _ beside => beside.depth) fun number => ?_
    split
    · exact .stop _
    · exact runs count
  natives := by
    intro name
    cases setup.natives.find? name with
    | none => exact .none
    | some native =>
      refine .some fun arguments span count => ?_
      exact Machine.Beside.sharesOutside.callNative native name arguments span
  resolved := fun name span _ _ _ near runs => resolved alike alive aliveToo name span near runs
  variableValue := fun _ name span near => variableValue near name span
  overwritten := fun name span _ stored near => overwritten alike near name span stored
  define := fun _ name _ _ _ _ value near _ =>
    .changeStore fun _ _ beside => beside.define alike near name value
  defineFunction := fun _ function _ _ near _ =>
    .changeStore fun _ _ beside => beside.defineFunction alike near function

end Alongside

end RobotScript
