import RobotScript.Proofs.Locality.Sharing

/-! # Evaluation is local

A node that is evaluated in a scope changes no scope that was there but that one and those
around it, and what comes of it depends on no other. The same holds of a function that is
called: it deals with its home and what lies around that, whoever calls it. -/
set_option autoImplicit false

namespace RobotScript

open Evaluation

variable {Host : Type}

namespace Store

variable {store : Store} {scope : ScopeId}

/-- A store as it comes of evaluating trees from fresh roots: at any time a root or a scope
in another is opened, a node is evaluated in a scope that is alive, however that ends, or a
scope is let go. -/
inductive Produced : Store → Prop
  | empty : Produced .empty
  | root {store : Store} (before : Produced store) : Produced (store.opened none .empty)
  | inner {store : Store} {parent : ScopeId} (vars : Bindings Value) (before : Produced store)
      (alive : store.isAlive parent = true) : Produced (store.opened (some parent) vars)
  | evaluated {Host : Type} {setup : Setup Host} {fuel : Nat} {node : Node} {scope : ScopeId}
      {machine after : Machine Host} {result : Except Exit Value}
      (before : Produced machine.store) (alive : machine.store.isAlive scope = true)
      (ran : evaluate setup fuel node scope machine = some (result, after)) :
      Produced after.store
  | released {store : Store} (id : ScopeId) (before : Produced store) :
      Produced (store.released id)

/-- Scopes may have been changed around a scope, but no others, and none were added. -/
structure ChangedAround (scope : ScopeId) (before after : Store) : Prop where
  size : after.size = before.size
  others : ∀ id, id ∉ before.chain scope → after.scope? id = before.scope? id

/-- Begun on a store, the run changes scopes around `scope` only. On any other store with the
same scopes around `scope`, whatever its other scopes are, it ends in the same way, with the
same steps and the same host, and leaves the same scopes around `scope`. -/
def Local (store : Store) (scope : ScopeId) (run : Run Host Value) : Prop :=
  ∀ other, store.AlikeAround scope other → other.isAlive scope = true → ∀ host steps depth,
    run ⟨store, host, steps, depth⟩ = none ∧ run ⟨other, host, steps, depth⟩ = none ∨
      ∃ result after twin, run ⟨store, host, steps, depth⟩ = some (result, after) ∧
        run ⟨other, host, steps, depth⟩ = some (result, { after with store := twin }) ∧
        store.ChangedAround scope after.store ∧ other.ChangedAround scope twin ∧
        after.store.AlikeAround scope twin

/-! ## From lockstep -/

theorem lt_size_of_isAlive (alive : store.isAlive scope = true) : scope < store.size := by
  obtain ⟨holder, -, member⟩ := isAlive_iff.mp alive
  exact lt_size_of_mem_chain member

theorem AlikeAround.refl (scope : ScopeId) (store : Store) : AlikeAround scope store store :=
  ⟨rfl, fun _ _ => rfl⟩

theorem Since.changedAround {first : Store} (since : Since first scope store)
    (size : store.size = first.size) : ChangedAround scope first store where
  size := size
  others id away := by
    rcases Nat.lt_or_ge id first.size with inside | outside
    · exact since.beyond id fun near => near.elim away (Nat.not_le.mpr inside)
    · rw [scope?_of_size_le outside, scope?_of_size_le (size ▸ outside)]

theorem Since.homed {first : Store} (since : Since first scope store) (homed : first.Homed) :
    store.Homed := by
  intro name id closure stored
  by_cases near : first.Nearby scope id
  · exact since.homes name id closure near stored
  · rw [functionIn?, since.beyond id near] at stored
    exact homed name id closure stored

theorem Homed.beside (homed : store.Homed) {other : Store} (alike : store.AlikeAround scope other)
    (host : Host) (steps depth : Nat) :
    Machine.Beside store other scope store.size ⟨store, host, steps, depth⟩
      ⟨other, host, steps, depth⟩ := by
  refine ⟨.start fun name id _ => homed name id, .start fun name id around closure stored => ?_,
    rfl, alike.size, fun id near => ?_, rfl, rfl⟩
  · rw [alike.chain] at around
    rw [functionIn?, alike.scopes id around] at stored
    exact homed name id closure stored
  · rcases near with around | outside
    · exact alike.scopes id around
    · rw [scope?_of_size_le outside, scope?_of_size_le (alike.size ▸ outside)]

/-- A run is local if it goes alike on all stores that are alike around its scope. -/
theorem Homed.local (homed : store.Homed) (alive : store.isAlive scope = true)
    {run : Run Host Value}
    (runs : ∀ other, store.AlikeAround scope other → other.isAlive scope = true →
      Alongside Host store other scope Value run run) : store.Local scope run := by
  intro other alike aliveToo host steps depth
  rcases runs other alike aliveToo store.size _ _ (homed.beside alike host steps depth) with
    none | ⟨result, after, last, ran, shown, still⟩
  · exact .inl none
  · have same : last = { after with store := last.store } := by
      obtain ⟨_, _, _, _⟩ := after
      obtain ⟨_, _, _, _⟩ := last
      obtain ⟨⟩ := still.depth
      obtain ⟨⟩ := still.outside
      rfl
    have inside := lt_size_of_isAlive alive
    refine .inr ⟨result, after, last.store, ran, same ▸ shown, still.one.changedAround still.size,
      still.two.changedAround (still.sizeToo.trans alike.size.symm), ?_, fun id around => ?_⟩
    · exact still.sizeToo.trans still.size.symm
    · exact still.scopes id (.inl (still.one.chain inside ▸ around))

/-! ## Whatever is evaluated -/

variable (setup : Setup Host) (fuel : Nat)

theorem Homed.evaluate (homed : store.Homed) (alive : store.isAlive scope = true) (node : Node) :
    store.Local scope (Evaluation.evaluate setup fuel node scope) := by
  refine homed.local alive fun other alike aliveToo => ?_
  exact (Alongside.congruence alike alive aliveToo setup).evaluate (.refl _ fuel) node scope
    (.inl (mem_chain_self (lt_size_of_isAlive alive)))

theorem Homed.callFunction (homed : store.Homed) {closure : Closure}
    (alive : store.isAlive closure.home = true) (name : String) (arguments : List Value)
    (span : Span) :
    store.Local closure.home
      (Evaluation.callFunction setup (Evaluation.evaluate setup fuel) closure name arguments
        span) := by
  refine homed.local alive fun other alike aliveToo => ?_
  have congruence := Alongside.congruence alike alive aliveToo setup
  exact congruence.callFunction (congruence.evaluate (.refl _ fuel))
    (.inl (mem_chain_self (lt_size_of_isAlive alive))) name arguments span

theorem Homed.of_evaluate {setup : Setup Host} {fuel : Nat} {node : Node}
    {machine after : Machine Host} {result : Except Exit Value} (homed : machine.store.Homed)
    (alive : machine.store.isAlive scope = true)
    (ran : Evaluation.evaluate setup fuel node scope machine = some (result, after)) :
    after.store.Homed := by
  have alongside := (Alongside.congruence (.refl scope machine.store) alive alive setup).evaluate
    (.refl _ fuel) node scope (.inl (mem_chain_self (lt_size_of_isAlive alive)))
  have beside := homed.beside (.refl scope machine.store) machine.host machine.steps machine.depth
  rcases alongside _ _ _ beside with ⟨none, -⟩ | ⟨_, _, _, again, -, still⟩
  · rw [ran] at none
    cases none
  · rw [ran] at again
    cases again
    exact still.one.homed homed

theorem functionIn?_released (id : ScopeId) (name : String) (other : ScopeId) :
    (store.released id).functionIn? name other = store.functionIn? name other := by
  rw [functionIn?, functionIn?, scope?, released, Array.getElem?_modify]
  split
  · change ((store.scope? other).map _).bind _ = _
    cases store.scope? other <;> rfl
  · rfl

theorem Produced.homed (produced : Produced store) : store.Homed := by
  induction produced with
  | empty => rintro name id closure ⟨⟩
  | root _ ih => exact fun name id closure stored => ih name id closure (functionIn?_of_opened stored)
  | inner _ _ _ ih =>
    exact fun name id closure stored => ih name id closure (functionIn?_of_opened stored)
  | evaluated _ alive ran ih => exact ih.of_evaluate alive ran
  | released other _ ih =>
    exact fun name id closure stored => ih name id closure (functionIn?_released other name id ▸ stored)

end Store

/-- From any store that evaluation has produced and in any scope of it that is alive, each node
is evaluated locally; and a function that is found there runs locally to its home, whichever
scope it is called from. -/
theorem evaluation_local (setup : Setup Host) (fuel : Nat) {store : Store}
    (produced : store.Produced) {scope : ScopeId} (alive : store.isAlive scope = true) :
    (∀ node, store.Local scope (evaluate setup fuel node scope)) ∧
      ∀ name closure, store.function? scope name = some closure → ∀ arguments span,
        store.Local closure.home
          (callFunction setup (evaluate setup fuel) closure name arguments span) := by
  refine ⟨fun node => produced.homed.evaluate setup fuel alive node, ?_⟩
  intro name closure found arguments span
  have around := produced.homed.home_mem_chain found
  exact produced.homed.callFunction setup fuel (Store.isAlive_of_mem_chain alive around) name
    arguments span

def seeing : Function :=
  ⟨"seen", .int, [], .statement (.block [.statement
    (.returning (some ⟨.variable "x", .int, default⟩)) default]) default⟩

/-- A root with an `x` and a function that reads it, and a scope in it with its own `x`. -/
def obscured : Store :=
  ((Store.withRoot.define 0 "x" (.int 1)).defineFunction 0 ⟨seeing, 0⟩).opened (some 0)
    (.ofList [("x", .int 2)])

theorem obscured_produced : obscured.Produced := by
  let setup : Setup Unit := ⟨.ofList [], .standard, none⟩
  let declared := Store.withRoot.define 0 "x" (.int 1)
  have declares : evaluate setup 2
      (.statement (.declare "x" .int (some ⟨.literal (.int 1), .int, default⟩)) default) 0
      (.ready .withRoot ()) = some (.ok .void, .ready declared ()) := rfl
  have defines : evaluate setup 1 (.statement (.define seeing) default) 0 (.ready declared ()) =
      some (.ok .void, .ready (declared.defineFunction 0 ⟨seeing, 0⟩) ()) := rfl
  have root : Store.withRoot.Produced := .root .empty
  exact .inner _ (.evaluated (.evaluated root rfl declares) rfl defines) rfl

/-- The function is called from the scope inside, whose `x` it cannot see. -/
theorem obscured_local :
    obscured.Produced ∧ obscured.isAlive 1 = true ∧
      obscured.function? 1 "seen" = some ⟨seeing, 0⟩ ∧
      ∀ arguments span, obscured.Local 0 (callFunction (⟨.ofList [], .standard, none⟩ : Setup Unit)
        (evaluate ⟨.ofList [], .standard, none⟩ 9) ⟨seeing, 0⟩ "seen" arguments span) := by
  have alive : obscured.isAlive 1 = true := rfl
  have found : obscured.function? 1 "seen" = some ⟨seeing, 0⟩ := by
    have chain : obscured.chain 1 = [1, 0] := by decide +kernel
    rw [Store.function?, chain]
    rfl
  exact ⟨obscured_produced, alive, found,
    (evaluation_local _ 9 obscured_produced alive).2 "seen" _ found⟩

end RobotScript
