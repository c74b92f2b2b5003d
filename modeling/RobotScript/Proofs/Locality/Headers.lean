import RobotScript.Proofs.Entering.Consistency
import RobotScript.Proofs.Locality.Evaluation
import RobotScript.Proofs.Locality.Inserting
import RobotScript.Proofs.Soundness
import RobotScript.Proofs.Typing.Quiet

/-! # An empty scope around a loop

A `loop` runs in a scope for what its initializer declares, a `while` has none. If nothing
is declared the scope stays empty, and what runs in it runs as it would around it: with the
same result, steps and host, and once the scope is closed, with the same store. -/
set_option autoImplicit false

namespace RobotScript

open Evaluation Typing

variable {Host : Type} {first : Store} {scope : ScopeId} {count : Nat}

/-! ## Runs that are one scope apart -/

/-- Two machines on which a run in a scope, begun on the store `first`, and one in an empty
scope inside it have come to the same point; the first now has `count` scopes. -/
structure Machine.Apart (first : Store) (scope : ScopeId) (count : Nat)
    (machine twin : Machine Host) : Prop where
  one : Store.Since first scope machine.store
  two : Store.Since first scope twin.store
  size : machine.store.size = count
  inserted : Store.Inserted first scope machine.store twin.store
  depth : twin.depth = machine.depth
  outside : twin.outside = machine.outside

def Apart (Host : Type) (first : Store) (scope : ScopeId) : Relation Host Host :=
  fun α run other => ∀ count, Lockstep (Machine.Apart first scope count) α run other

def Opened (first : Store) (id twin : ScopeId) : Prop := first.size ≤ id ∧ twin = id + 1

/-- A node that is evaluated in both runs: in scopes that they have opened, or else one
that binds nothing there. -/
def Evaluable (first : Store) (scope id twin : ScopeId) (node : Node) : Prop :=
  Opened first id twin ∨ first.Meets scope id twin ∧ Quiet node

theorem Opened.meets {id twin : ScopeId} (opened : Opened first id twin) :
    first.Meets scope id twin := by
  obtain ⟨later, rfl⟩ := opened
  exact .new later

namespace Machine.Apart

variable {machine twin : Machine Host} (apart : Machine.Apart first scope count machine twin)

include apart

theorem deeper : Machine.Apart first scope count machine.deeper twin.deeper :=
  { apart with depth := congrArg (· + 1) apart.depth }

theorem shallower : Machine.Apart first scope count machine.shallower twin.shallower :=
  { apart with depth := congrArg (· - 1) apart.depth }

theorem define {id : ScopeId} (near : first.Nearby scope id) (name : String) (value : Value) :
    Machine.Apart first scope count
      { machine with store := machine.store.define id name value }
      { twin with store := twin.store.define (first.moved id) name value } where
  one := apart.one.define near name value
  two := apart.two.define (Store.Meets.near_moved near) name value
  size := (Store.size_define ..).trans apart.size
  inserted := apart.inserted.define near name value
  depth := apart.depth
  outside := apart.outside

theorem defineFunction {id : ScopeId} (near : first.Nearby scope id) (function : Function) :
    Machine.Apart first scope count
      { machine with store := machine.store.defineFunction id ⟨function, id⟩ }
      { twin with store :=
          twin.store.defineFunction (first.moved id) ⟨function, first.moved id⟩ } where
  one := apart.one.defineFunction near function
  two := apart.two.defineFunction (Store.Meets.near_moved near) function
  size := (Store.size_defineFunction ..).trans apart.size
  inserted := apart.inserted.defineFunction near function
  depth := apart.depth
  outside := apart.outside

theorem entered (inside : scope < first.size) {parent around : ScopeId}
    (meets : first.Meets scope parent around) (vars : Bindings Value) :
    Machine.Apart first scope (count + 1) (machine.entered parent vars)
      (twin.entered around vars) where
  one := apart.one.opened (meets.near inside).1 vars
  two := apart.two.opened (meets.near inside).2 vars
  size := (Store.size_opened ..).trans (congrArg (· + 1) apart.size)
  inserted := apart.inserted.opened meets apart.one.size vars
  depth := apart.depth
  outside := apart.outside

omit apart in
theorem left (apart : Machine.Apart first scope (count + 1) machine twin)
    (more : first.size ≤ count) : Machine.Apart first scope count machine.left twin.left := by
  have less : first.size < machine.store.size := apart.size ▸ Nat.lt_succ_of_le more
  refine ⟨apart.one.closed less, apart.two.closed ?_, ?_, apart.inserted.closed less, apart.depth,
    apart.outside⟩
  · rw [apart.inserted.size]
    exact Nat.lt_succ_of_lt less
  · rw [Machine.left, Store.size_closed, apart.size, Nat.add_sub_cancel]

omit apart in
theorem sharesOutside : SharesOutside (@Machine.Apart Host first scope count) where
  same _ _ apart := apart.outside
  keeps _ _ apart _ _ := { apart with outside := rfl }

end Machine.Apart

namespace Apart

variable (inside : scope < first.size)

include inside

theorem inScope {parent around : ScopeId} (meets : first.Meets scope parent around)
    (vars : Bindings Value) {body shown : ScopeId → Run Host Value}
    (bodies : ∀ id twin, Opened first id twin →
      Apart Host first scope Value (body id) (shown twin)) :
    Apart Host first scope Value (Run.inScope parent vars body)
      (Run.inScope around vars shown) := by
  intro count machine twin apart
  have more : first.size ≤ count := apart.size ▸ apart.one.size
  have sizes : twin.store.size = count + 1 := by rw [apart.inserted.size, apart.size]
  refine (bodies count (count + 1) ⟨more, rfl⟩ (count + 1)).wrapped
    (fun _ _ both => both.entered inside meets vars) (fun _ _ both => both.left more) apart ?_ ?_
  · rw [Run.inScope_eq, apart.size]
  · rw [Run.inScope_eq, sizes]

theorem resolved (alive : first.isAlive scope = true) (name : String) (span : Span)
    {id twin : ScopeId} (meets : first.Meets scope id twin) {next last : Closure → Run Host Value}
    (runs : ∀ function home around, first.Meets scope home around →
      Apart Host first scope Value (next ⟨function, home⟩) (last ⟨function, around⟩)) :
    Apart Host first scope Value (resolved name span id next) (resolved name span twin last) := by
  refine fun count => .reading fun mine yours apart => ?_
  have found := apart.inserted.function? apart.one apart.two inside meets name
  have mineHome {closure : Closure} (isFound : mine.store.function? id name = some closure) :=
    (apart.one.home (meets.near inside).1 isFound).2
  have yoursHome {closure : Closure} (isFound : yours.store.function? twin name = some closure) :=
    (apart.two.home (meets.near inside).2 isFound).2
  generalize mine.store.function? id name = closure at found mineHome
  generalize yours.store.function? twin name = other at found yoursHome
  cases found with
  | none => exact .stop _
  | @some closure other same =>
    obtain ⟨function, home⟩ := closure
    obtain ⟨functionToo, around⟩ := other
    obtain ⟨rfl, homes⟩ := same
    dsimp only
    rw [apart.one.isAlive alive (meets.near inside).1 (mineHome rfl),
      apart.two.isAlive alive (meets.near inside).2 (yoursHome rfl), if_pos rfl, if_pos rfl]
    exact runs _ home around homes count

theorem variableValue {id twin : ScopeId} (meets : first.Meets scope id twin) (name : String)
    (span : Span) :
    Apart Host first scope Value (variableValue id name span) (variableValue twin name span) := by
  refine fun count => .reading fun mine yours apart => ?_
  rw [apart.inserted.get? apart.one apart.two inside meets name]
  cases mine.store.get? id name with
  | none => exact .stop _
  | some value => exact .pure value

theorem overwritten {id twin : ScopeId} (meets : first.Meets scope id twin) (name : String)
    (span : Span) (stored : Value) :
    Apart Host first scope Value (overwritten name span id stored)
      (overwritten name span twin stored) := by
  refine fun count => .reading fun mine yours apart => ?_
  have owners := apart.inserted.owner? apart.one apart.two inside meets name
  unfold Store.assign?
  generalize mine.store.owner? id name = owner at owners
  generalize yours.store.owner? twin name = other at owners
  cases owners with
  | none => exact .stop _
  | some same =>
    obtain ⟨near, rfl⟩ := same
    have written := apart.define near name stored
    refine .bind (fun one two both => ?_) fun _ => .pure stored
    exact .inr ⟨.ok (), _, _, rfl, rfl,
      { written with depth := both.depth, outside := both.outside }⟩

/-- What runs in a scope runs alike in an empty scope inside it. -/
theorem pairing (alive : first.isAlive scope = true) (setup : Setup Host) :
    Pairing setup setup (Apart Host first scope) (Evaluable first scope) (Opened first)
      (first.Meets scope) where
  parts := by
    intro id twin node evaluable part member
    exact evaluable.imp_right fun ⟨meets, quiet⟩ => ⟨meets, quiet.part member⟩
  fresh := fun _ _ _ opened => .inl opened
  near := fun _ _ _ evaluable => evaluable.elim Opened.meets fun both => both.1
  exhausted := fun _ => .exhausted
  pure := fun value _ => .pure value
  stop := fun exit _ _ => .stop exit
  bind := fun one two count => .bind (one count) fun value => two value count
  recover := fun runs handsOn handsOnToo handles count =>
    .recover (runs count) handsOn handsOnToo fun result caught => handles result caught count
  inScope := fun _ _ vars _ _ meets bodies => inScope inside meets vars bodies
  tick := fun span _ => Machine.Apart.sharesOutside.tick setup span
  variableValue := fun _ _ name span meets => variableValue inside meets name span
  overwritten := fun name span _ _ stored meets => overwritten inside meets name span stored
  define := by
    intro id twin name declared initializer span ty value evaluable count
    -- Outside of the scopes that both have opened, only quiet nodes are evaluated.
    rcases evaluable with ⟨later, rfl⟩ | ⟨-, quiet⟩
    · refine .changeStore fun _ _ apart => ?_
      have written := apart.define (.inr later) name value
      rwa [Store.moved_new later] at written
    · cases quiet.declares
  defineFunction := by
    intro id twin function span ty evaluable count
    rcases evaluable with ⟨later, rfl⟩ | ⟨-, quiet⟩
    · refine .changeStore fun _ _ apart => ?_
      have written := apart.defineFunction (.inr later) function
      rwa [Store.moved_new later] at written
    · cases quiet.declares
  deeper := fun runs count =>
    .deeper (runs count) (fun _ _ apart => apart.deeper) fun _ _ apart => apart.shallower
  admitted := by
    intro span next last runs count
    refine .bind (.depth fun _ _ apart => apart.depth) fun number => ?_
    split
    · exact .stop _
    · exact runs count
  natives := by
    intro name
    cases setup.natives.find? name with
    | none => exact .none
    | some native =>
      refine .some fun arguments span count => ?_
      exact Machine.Apart.sharesOutside.callNative native name arguments span
  resolved := fun name span _ _ _ _ meets runs => resolved inside alive name span meets runs

end Apart

/-! ## Loops -/

theorem Store.Homed.apart {store : Store} (homed : store.Homed) (inside : scope < store.size)
    (host : Host) (steps depth : Nat) :
    Machine.Apart store scope store.size ⟨store, host, steps, depth⟩
      ((Machine.mk store host steps depth).entered scope .empty) := by
  have around : store.Nearby scope scope := .inl (mem_chain_self inside)
  have since : Since store scope store := .start fun name id _ => homed name id
  exact ⟨since, since.opened around .empty, rfl, .start store scope, rfl, rfl⟩

theorem rounds_inScope {machine : Machine Host} (homed : machine.store.Homed)
    (alive : machine.store.isAlive scope = true) {test body : Node} (quietTest : Quiet test)
    (quietBody : Quiet body) (setup : Setup Host) (span : Span) (fuel : Nat)
    {next : Run Host Unit} {last : ScopeId → Run Host Unit}
    (behind : ∀ header, Apart Host machine.store scope Unit next (last header)) :
    rounds setup (evaluate setup fuel) span test body next scope fuel machine =
      Run.inScope scope .empty (fun header =>
        rounds setup (evaluate setup fuel) span test body (last header) header fuel) machine := by
  have inside := Store.lt_size_of_isAlive alive
  have pairing := Apart.pairing inside alive setup
  have runs := pairing.rounds (pairing.evaluate (.refl _ fuel)) span
    (.inr ⟨.between, quietTest⟩) (.inr ⟨.between, quietBody⟩)
    (behind machine.store.size) (.refl _ fuel)
  rw [Run.inScope_eq]
  rcases runs _ _ _ (homed.apart inside machine.host machine.steps machine.depth) with
    ⟨ran, shown⟩ | ⟨result, after, final, ran, shown, still⟩
  · rw [ran, shown]
    rfl
  · have same : final.left = after := by
      obtain ⟨_, _, _, _⟩ := after
      obtain ⟨_, _, _, _⟩ := final
      obtain ⟨⟩ := still.depth
      obtain ⟨⟩ := still.outside
      simp only [Machine.left, still.inserted.closed_eq still.size]
    rw [ran, shown, Option.map_some, same]

/-- For every condition and every body of a script or of an entry: a `while` is evaluated as
the `loop` whose initializer and step are literals is. It ends in the same way, with the
same steps, host and store, in every scope that is alive on a store that evaluation has
produced, whatever the limits. -/
theorem while_as_loop {source : String} {context behind : Context} {root : Node}
    (parsed : parseText source context = .ok (root, behind)) {test body : Node}
    (testWithin : Within root test) (testBinds : test.declares = none)
    (bodyWithin : Within root body) (bodyBinds : body.declares = none) (setup : Setup Host)
    (fuel : Nat) {machine : Machine Host} (produced : machine.store.Produced)
    (alive : machine.store.isAlive scope = true) (initial increment : Value)
    (initialTy incrementTy ty loopTy : Ty) (initialSpan incrementSpan span : Span) :
    evaluate setup fuel ⟨.whileTrue test body, ty, span⟩ scope machine =
      evaluate setup fuel
        ⟨.loop ⟨.literal initial, initialTy, initialSpan⟩ test
          ⟨.literal increment, incrementTy, incrementSpan⟩ body, loopTy, span⟩ scope machine := by
  obtain ⟨program, -⟩ := parseText_wellTyped parsed
  obtain ⟨_, testStands⟩ := program.stands.of_within testWithin
  obtain ⟨_, bodyStands⟩ := program.stands.of_within bodyWithin
  have quietTest := Quiet.of_stands testStands testBinds
  have quietBody := Quiet.of_stands bodyStands bodyBinds
  cases fuel with
  | zero => rfl
  | succ fuel =>
    cases fuel with
    | zero => rfl
    | succ fuel =>
      exact rounds_inScope produced.homed alive quietTest quietBody setup span (fuel + 1)
        fun _ _ => .pure ()

/-- Each round defines a function that calls itself; one round is cut short, one is the last. -/
def climbing : String :=
  "while n < 9 \x7b func int up(int k) \x7b if k > 0 \x7b return up(k - 1) + 1; \x7d return 0; \x7d n = n + up(2); if n == 4 \x7b continue; \x7d try \x7b double d = n / 0; \x7d if n > 5 \x7b break; \x7d \x7d"

def holdingZero : Store := Store.withRoot.define 0 "n" (.int 0)

theorem holdingZero_produced : holdingZero.Produced := by
  let setup : Setup Unit := ⟨.ofList [], .standard, none⟩
  have declares : evaluate setup 2
      (.statement (.declare "n" .int (some ⟨.literal (.int 0), .int, default⟩)) default) 0
      (.ready .withRoot ()) = some (.ok .void, .ready holdingZero ()) := rfl
  have root : Store.withRoot.Produced := .root .empty
  exact .evaluated root rfl declares

theorem climbing_as_loop :
    ∃ root behind test body ty span, parseText climbing
        (printing.natives.context.withVariable "n" .int) = .ok (root, behind) ∧
      Within root test ∧ test.declares = none ∧ Within root body ∧ body.declares = none ∧
      holdingZero.Produced ∧ holdingZero.isAlive 0 = true ∧
      (∃ result after, evaluate printing 30 ⟨.whileTrue test body, ty, span⟩ 0
          (.ready holdingZero []) = some (result, after) ∧
        (after.store.get? 0 "n").map Value.text = some "6") ∧
      evaluate printing 30 ⟨.whileTrue test body, ty, span⟩ 0 (.ready holdingZero []) =
        evaluate printing 30
          ⟨.loop ⟨.literal (.int 0), .int, default⟩ test ⟨.literal (.int 1), .int, default⟩ body,
            .void, span⟩ 0 (.ready holdingZero []) := by
  have checked : (parseText climbing
      (printing.natives.context.withVariable "n" .int)).toOption.any (fun program =>
        program.1.statements.any fun node =>
          match node.form with
          | .whileTrue test body => test.declares = none && (body.declares = none &&
            (evaluate printing 30 node 0 (.ready holdingZero [])).any fun ended =>
              (ended.2.store.get? 0 "n").map Value.text == some "6")
          | _ => false) = true := by
    decide +kernel
  obtain ⟨⟨root, behind⟩, parsed, checked⟩ := (Option.any_eq_true _ _).mp checked
  obtain ⟨⟨form, ty, span⟩, member, checked⟩ := List.any_eq_true.mp checked
  have parsed := ok_of_toOption parsed
  have within : Within root ⟨form, ty, span⟩ := by
    rcases Typed.mem_statements member with isRoot | isPart
    · rw [isRoot]
      exact .self
    · exact .component .self isPart
  cases form with
  | whileTrue test body =>
    obtain ⟨testBinds, checked⟩ := Bool.and_eq_true_iff.mp checked
    obtain ⟨bodyBinds, checked⟩ := Bool.and_eq_true_iff.mp checked
    obtain ⟨⟨result, after⟩, ran, checked⟩ := (Option.any_eq_true _ _).mp checked
    have testBinds := of_decide_eq_true testBinds
    have bodyBinds := of_decide_eq_true bodyBinds
    have testWithin : Within root test := within.component (List.mem_singleton_self test)
    have bodyWithin : Within root body := within.round rfl
    have alive : holdingZero.isAlive 0 = true := rfl
    exact ⟨root, behind, test, body, ty, span, parsed, testWithin, testBinds, bodyWithin, bodyBinds,
      holdingZero_produced, alive, ⟨result, after, ran, beq_iff_eq.mp checked⟩,
      while_as_loop parsed testWithin testBinds bodyWithin bodyBinds printing 30
        holdingZero_produced alive (.int 0) (.int 1) .int .int ty .void default default span⟩
  | _ => cases checked

end RobotScript
