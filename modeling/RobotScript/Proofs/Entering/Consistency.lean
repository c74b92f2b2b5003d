import RobotScript.Proofs.Entering.Standing
import RobotScript.Proofs.Reading.Outcomes
import RobotScript.Proofs.Reading.Soundness
import RobotScript.Session

/-! # Sessions stay consistent

Whatever has been entered so far, and however it ended, the names in the context of a
session are bound in its scope as the context has them. An entry that fails takes
back its names but not its bindings; as no entry defines a function again that the
context has, the names that stay mean what they meant. -/
set_option autoImplicit false

namespace RobotScript

open Evaluation Typing Grammar

variable {Host : Type}

/-! ## Names that are bound -/

/-- The names of the context are bound in the scope of the session: variables to a
value, functions to a function of their signature that was defined there. -/
structure Session.Binds (context : Context) (store : Store) : Prop where
  values : ∀ name ty, context.innermost.vars.find? name = some ty →
    (store.variableIn? name scope).isSome = true
  functions : ∀ name signature, context.innermost.functions.find? name = some signature →
    ∃ closure, store.functionIn? name scope = some closure ∧
      closure.function.signature = signature ∧ closure.home = scope

/-- The functions that the context has are still the same ones, and what was bound
still is. -/
structure Session.Keeps (context : Context) (before after : Store) : Prop where
  size : after.size = before.size
  functions : ∀ name signature, context.innermost.functions.find? name = some signature →
    after.functionIn? name scope = before.functionIn? name scope
  values : ∀ name, (before.variableIn? name scope).isSome = true →
    (after.variableIn? name scope).isSome = true

namespace Session

variable {context : Context} {first second third : Store}

theorem Keeps.of_stands (stands : Store.Stands scope first second) :
    Keeps context first second :=
  ⟨stands.size, fun name _ _ => stands.functions name, stands.values⟩

theorem functions_after {node : Node} (typed : Statement topLevel context node) {name : String}
    {signature : Signature} (found : context.innermost.functions.find? name = some signature) :
    (context.after node).innermost.functions.find? name = some signature := by
  rcases typed.defines_cases with ⟨function, span, rfl, fresh⟩ | nothing
  · change (context.innermost.functions.insert function.name _).find? name = some signature
    rw [Bindings.find?_insert, if_neg]
    · exact found
    · rintro rfl
      rw [fresh] at found
      cases found
  · obtain ⟨form, ty, span⟩ := node
    cases form with
    | define function =>
      cases nothing with
      | intro noFunction _ => exact absurd rfl (noFunction function)
    | _ => exact found

theorem Keeps.trans {behind : Context}
    (grows : ∀ name signature, context.innermost.functions.find? name = some signature →
      behind.innermost.functions.find? name = some signature)
    (one : Keeps context first second) (two : Keeps behind second third) :
    Keeps context first third :=
  ⟨two.size.trans one.size,
    fun name signature found => (two.functions name signature (grows name signature found)).trans
      (one.functions name signature found),
    fun name bound => two.values name (one.values name bound)⟩

theorem Binds.kept (binds : Binds context first) (keeps : Keeps context first second) :
    Binds context second where
  values := fun name ty found => keeps.values name (binds.values name ty found)
  functions := by
    intro name signature found
    rw [keeps.functions name signature found]
    exact binds.functions name signature found

theorem Binds.withVariable (binds : Binds context first) {name : String}
    (bound : (first.variableIn? name scope).isSome = true) (ty : Ty) :
    Binds (context.withVariable name ty) first where
  values := by
    intro other otherTy found
    change (context.innermost.vars.insert name ty).find? other = some otherTy at found
    rw [Bindings.find?_insert] at found
    split at found
    next same => exact same ▸ bound
    · exact binds.values other otherTy found
  functions := binds.functions

theorem Binds.withFunction (binds : Binds context first) {function : Function}
    (stored : first.functionIn? function.name scope = some ⟨function, scope⟩) :
    Binds (context.withFunction function.name function.signature) first where
  values := binds.values
  functions := by
    intro other signature found
    change (context.innermost.functions.insert function.name _).find? other = some signature at found
    rw [Bindings.find?_insert] at found
    split at found
    next same =>
      obtain rfl := Option.some.inj found
      exact ⟨⟨function, scope⟩, same ▸ stored, rfl, rfl⟩
    · exact binds.functions other signature found

/-! ## Statements -/

variable {setup : Setup Host} {fuel : Nat} {machine after : Machine Host}

theorem declared_bound {name : String} {declared ty : Ty} {initializer : Option Node} {span : Span}
    {value : Value} (inside : scope < machine.store.size)
    (stands : Store.Stands scope machine.store after.store)
    (run : evaluate setup fuel ⟨.declare name declared initializer, ty, span⟩ scope machine =
      some (.ok value, after)) : (after.store.variableIn? name scope).isSome = true := by
  cases fuel with
  | zero => cases run
  | succ fuel =>
    rcases Run.bind_ended run with ⟨_, ⟨⟩, _⟩ | ⟨result, between, _, stores⟩
    cases stores
    have within : scope < between.store.size := by
      have size := stands.size
      rw [Store.size_define] at size
      exact size ▸ inside
    rw [Store.variableIn?_define within, if_pos ⟨rfl, rfl⟩]
    rfl

theorem statement_keeps {node : Node} (typed : Statement topLevel context node)
    (inside : scope < machine.store.size) {result : Except Exit Value}
    (run : evaluate setup fuel node scope machine = some (result, after)) :
    Keeps context machine.store after.store ∧
      (Binds context machine.store → ∀ value, result = .ok value →
        Binds (context.after node) after.store) := by
  rcases typed.defines_cases with ⟨function, span, rfl, fresh⟩ | nothing
  · cases fuel with
    | zero => cases run
    | succ fuel =>
      cases run
      have stored (name : String) := Store.functionIn?_defineFunction inside ⟨function, scope⟩
        name scope
      have keeps : Keeps context machine.store
          (machine.store.defineFunction scope ⟨function, scope⟩) := by
        refine ⟨Store.size_defineFunction .., fun name signature found => ?_, fun name bound => ?_⟩
        · rw [stored, if_neg]
          rintro ⟨-, rfl⟩
          rw [fresh] at found
          cases found
        · rw [Store.variableIn?_defineFunction]
          exact bound
      refine ⟨keeps, fun binds _ _ => (binds.kept keeps).withFunction ?_⟩
      rw [stored, if_pos ⟨rfl, rfl⟩]
  · have stands := (standing_course setup scope).evaluate (.inr nothing) run inside
    refine ⟨.of_stands stands, ?_⟩
    rintro binds value rfl
    have binds := binds.kept (.of_stands stands)
    obtain ⟨form, ty, span⟩ := node
    cases form with
    | declare name declared initializer =>
      exact binds.withVariable (declared_bound inside stands run) declared
    | define function =>
      cases nothing with
      | intro noFunction _ => exact absurd rfl (noFunction function)
    | _ => exact binds

theorem topStatement_keeps {node : Node} (typed : Statement topLevel context node)
    (inside : scope < machine.store.size) {result : Except Exit Value}
    (run : topStatement setup (evaluate setup fuel) scope node machine = some (result, after)) :
    Keeps context machine.store after.store ∧
      (Binds context machine.store → ∀ value, result = .ok value →
        Binds (context.after node) after.store) := by
  have ticks := (standing_course setup scope).tick node.span
  rcases Run.bind_ended run with ⟨exit, rfl, ticked⟩ | ⟨_, between, ticked, evaluated⟩
  · refine ⟨.of_stands (ticks machine _ _ ticked inside), ?_⟩
    rintro _ _ ⟨⟩
  · have stands := ticks machine _ _ ticked inside
    have ticked : Keeps context machine.store between.store := .of_stands stands
    obtain ⟨keeps, bound⟩ := statement_keeps typed (ticked.size ▸ inside) evaluated
    exact ⟨ticked.trans (fun _ _ found => found) keeps, fun binds => bound (binds.kept ticked)⟩

theorem topStatements_keeps {nodes : List Node}
    (typed : Sequence (Statement topLevel) context nodes) (inside : scope < machine.store.size)
    {last : Value} {result : Except Fault Value}
    (run : Evaluation.topStatements setup (evaluate setup fuel) scope last nodes machine =
      some (result, after)) :
    Keeps context machine.store after.store ∧
      (Binds context machine.store → ∀ value, result = .ok value →
        Binds (context.afterAll nodes) after.store) := by
  induction nodes generalizing context machine last with
  | nil =>
    cases run
    exact ⟨.of_stands (.refl scope after.store), fun binds _ _ => binds⟩
  | cons node rest ih =>
    rcases topStatements_ended run with ⟨exit, rfl, failed⟩ | ⟨value, between, ended, further⟩
    · refine ⟨(topStatement_keeps typed.head inside failed).1, ?_⟩
      rintro _ _ ⟨⟩
    · obtain ⟨keeps, bound⟩ := topStatement_keeps typed.head inside ended
      obtain ⟨others, boundAll⟩ := ih typed.tail (keeps.size ▸ inside) further
      exact ⟨keeps.trans (fun _ _ => functions_after typed.head) others,
        fun binds => boundAll (bound binds value rfl)⟩

/-! ## Entries -/

def answered (root : Node) : Except Fault Value → Answer
  | .error fault => .error fault
  | .ok value => .ok (if shows root then some value else none)

def contextBehind (context : Context) (root : Node) : Except Fault Value → Context
  | .error _ => context
  | .ok _ => context.afterAll root.statements

theorem enter_of_run (session : Session Host) {source : String} {root : Node}
    (parsed : parseText source session.context =
      .ok (root, session.context.afterAll root.statements)) {fuel : Nat}
    {result : Except Fault Value} {last : Machine Host}
    (ran : runIn session.setup fuel root scope (.ready session.store session.host) =
      some (result, last)) :
    session.enter fuel source = some (answered root result,
      ⟨session.setup, contextBehind session.context root result, last.store, last.host⟩) := by
  rw [enter, parsed]
  simp only [ran]
  cases result <;> rfl

/-- An entry is refused and changes nothing, or it is read and runs as a script in the
session. -/
theorem enter_cases {session next : Session Host} {fuel : Nat} {source : String} {answer : Answer}
    (entered : session.enter fuel source = some (answer, next)) :
    (∃ fault, parseText source session.context = .error fault ∧ answer = .error fault ∧
      next = session) ∨
      ∃ root result machine,
        parseText source session.context =
          .ok (root, session.context.afterAll root.statements) ∧
        runIn session.setup fuel root scope (.ready session.store session.host) =
          some (result, machine) ∧
        answer = answered root result ∧
        next = ⟨session.setup, contextBehind session.context root result, machine.store,
          machine.host⟩ := by
  rw [enter] at entered
  cases parsed : parseText source session.context with
  | error fault =>
    rw [parsed] at entered
    cases entered
    exact .inl ⟨fault, rfl, rfl, rfl⟩
  | ok program =>
    obtain ⟨root, context⟩ := program
    obtain ⟨-, rfl⟩ := parseText_wellTyped parsed
    rw [parsed] at entered
    rcases run : runIn session.setup fuel root scope (.ready session.store session.host) with
      _ | ⟨fault | value, machine⟩
    all_goals
      simp only [run] at entered
      cases entered
    all_goals exact .inr ⟨root, _, machine, rfl, run, rfl, rfl⟩

/-- The value to show and the session behind an entry that succeeds. -/
def success? (fuel : Nat) (session : Session Host) (source : String) :
    Option (Option Value × Session Host) :=
  match session.enter fuel source with
  | some (.ok shown, next) => some (shown, next)
  | _ => none

/-- The fault and the session behind an entry that fails. -/
def failure? (fuel : Nat) (session : Session Host) (source : String) :
    Option (Fault × Session Host) :=
  match session.enter fuel source with
  | some (.error fault, next) => some (fault, next)
  | _ => none

theorem success?_eq_some {session next : Session Host} {fuel : Nat} {source : String}
    {shown : Option Value} :
    session.success? fuel source = some (shown, next) ↔
      session.enter fuel source = some (.ok shown, next) := by
  rw [success?]
  rcases session.enter fuel source with _ | ⟨_ | _, _⟩ <;> simp

theorem failure?_eq_some {session next : Session Host} {fuel : Nat} {source : String}
    {fault : Fault} :
    session.failure? fuel source = some (fault, next) ↔
      session.enter fuel source = some (.error fault, next) := by
  rw [failure?]
  rcases session.enter fuel source with _ | ⟨_ | _, _⟩ <;> simp

theorem contextBehind_natives (context : Context) (root : Node) (result : Except Fault Value) :
    (contextBehind context root result).natives = context.natives := by
  cases result with
  | error fault => rfl
  | ok value => exact Context.afterAll_natives _ _

structure Consistent (session : Session Host) : Prop where
  outermost : session.context.enclosing = []
  inside : scope < session.store.size
  binds : Binds session.context session.store

theorem start_consistent (setup : Setup Host) (host : Host) : Consistent (start setup host) where
  outermost := rfl
  inside := Nat.one_pos
  binds := by
    constructor
    · intro name ty found
      cases found
    · intro name signature found
      cases found

/-- An entry leaves the session consistent, and if it fails its context as it was. -/
theorem enter_consistent {session next : Session Host} (consistent : Consistent session)
    {source : String} {answer : Answer} (entered : session.enter fuel source = some (answer, next)) :
    Consistent next ∧ Keeps session.context session.store next.store ∧
      ∀ fault, answer = .error fault → next.context = session.context := by
  rcases enter_cases entered with ⟨_, _, _, rfl⟩ | ⟨root, result, machine, parsed, run, rfl, rfl⟩
  · exact ⟨consistent, .of_stands (.refl scope next.store), fun _ _ => rfl⟩
  · obtain ⟨typed, -⟩ := parseText_wellTyped parsed
    obtain ⟨keeps, bound⟩ := topStatements_keeps typed.statements consistent.inside run
    have inside : scope < machine.store.size := keeps.size ▸ consistent.inside
    cases result with
    | error fault =>
      exact ⟨⟨consistent.outermost, inside, consistent.binds.kept keeps⟩, keeps, fun _ _ => rfl⟩
    | ok value =>
      refine ⟨⟨?_, inside, bound consistent.binds value rfl⟩, keeps, by rintro _ ⟨⟩⟩
      exact (Context.afterAll_enclosing ..).trans consistent.outermost

/-- Sessions after any entries, each of which may have ended in any way. -/
inductive Reached (setup : Setup Host) (host : Host) : Session Host → Prop
  | start : Reached setup host (start setup host)
  | entered {session next : Session Host} {fuel : Nat} {source : String} {answer : Answer}
      (before : Reached setup host session)
      (run : session.enter fuel source = some (answer, next)) : Reached setup host next

theorem Reached.consistent {host : Host} {session : Session Host}
    (reached : Reached setup host session) : Consistent session := by
  induction reached with
  | start => exact start_consistent setup host
  | entered _ run consistent => exact (enter_consistent consistent run).1

/-- The names that the context of a session has, in whichever of its scopes, are
bound in the scope of the session: variables to some value, functions to a function of
that signature which has its home there. -/
structure Faithful (session : Session Host) : Prop where
  depth : session.context.depth = 1
  values : ∀ declarations ∈ session.context.scopes, ∀ name ty,
    declarations.vars.find? name = some ty →
      ∃ value, session.store.variableIn? name scope = some value
  functions : ∀ declarations ∈ session.context.scopes, ∀ name signature,
    declarations.functions.find? name = some signature →
      ∃ function, session.store.functionIn? name scope = some ⟨function, scope⟩ ∧
        function.returns = signature.returns ∧
        .exactly (function.parameters.map (·.ty)) = signature.parameters

theorem Consistent.scopes {session : Session Host} (consistent : Consistent session) :
    session.context.scopes = [session.context.innermost] :=
  congrArg (session.context.innermost :: ·) consistent.outermost

theorem Consistent.faithful {session : Session Host} (consistent : Consistent session) :
    Faithful session where
  depth := congrArg List.length consistent.scopes
  values := by
    intro declarations member name ty found
    obtain rfl := List.mem_singleton.mp (consistent.scopes ▸ member)
    exact Option.isSome_iff_exists.mp (consistent.binds.values name ty found)
  functions := by
    intro declarations member name signature found
    obtain rfl := List.mem_singleton.mp (consistent.scopes ▸ member)
    obtain ⟨⟨function, home⟩, stored, rfl, rfl⟩ := consistent.binds.functions name signature found
    exact ⟨function, stored, rfl, rfl⟩

/-- No scope lies around the scope of a session. -/
theorem chain_scope {store : Store} (inside : scope < store.size) :
    store.chain scope = [scope] := by
  obtain ⟨root, found⟩ := Store.scope?_of_lt inside
  rw [Store.chain]
  simp only [found]
  cases root.parent with
  | none => rfl
  | some parent => exact if_neg (Nat.not_lt_zero parent)

theorem function?_scope {store : Store} (inside : scope < store.size) (name : String) :
    store.function? scope name = store.functionIn? name scope := by
  rw [Store.function?, chain_scope inside, List.findSome?_cons]
  cases store.functionIn? name scope <;> rfl

/-- After any entries, each of which may have failed at any stage, a session is
faithful. An entry that does not parse then changes nothing at all, and one that
fails takes back its names and leaves every function of the context what it was. -/
theorem faithful_of_reached {host : Host} {session : Session Host}
    (reached : Reached setup host session) :
    Faithful session ∧
      (∀ source fault, parseText source session.context = .error fault →
        ∀ fuel, session.enter fuel source = some (.error fault, session)) ∧
      ∀ fuel source fault next, session.enter fuel source = some (.error fault, next) →
        next.context = session.context ∧
          ∀ declarations ∈ session.context.scopes, ∀ name signature,
            declarations.functions.find? name = some signature →
              next.store.function? scope name = session.store.function? scope name := by
  have consistent := reached.consistent
  refine ⟨consistent.faithful, ?_, ?_⟩
  · intro source fault refused fuel
    rw [enter, refused]
  · intro fuel source fault next entered
    obtain ⟨-, keeps, back⟩ := enter_consistent consistent entered
    refine ⟨back fault rfl, ?_⟩
    intro declarations member name signature found
    obtain rfl := List.mem_singleton.mp (consistent.scopes ▸ member)
    rw [function?_scope (keeps.size ▸ consistent.inside), function?_scope consistent.inside]
    exact keeps.functions name signature found

def settling : String := "func int one() \x7b return 1; \x7d int n = one();"

/-- An entry that fails when it has stored a function and changed a variable of an earlier entry. -/
def stumbling : String := "func int two() \x7b return 2; \x7d n = 7; double m = 1 / (n - 7);"

/-- An entry that takes the names which the failed one has left behind. -/
def retaking : String := "func string two() \x7b return \"two\"; \x7d string m = two();"

/-- Behind the failure the function is stored and the variable changed, but the name of the
function is unknown, and an entry that uses it is refused. Then it gets another function. -/
theorem stumbling_faithful :
    ∃ session fault next refusal shown last, Reached ⟨.ofList [], .standard, none⟩ () session ∧
      session.enter 20 stumbling = some (.error fault, next) ∧
      fault.cause = .recoverable .divisionByZero ∧
      (next.store.function? scope "two").isSome = true ∧
      (next.store.get? scope "n").map Value.text = some "7" ∧ Faithful session ∧
      Faithful next ∧ next.context = session.context ∧
      next.store.function? scope "one" = session.store.function? scope "one" ∧
      next.enter 20 "two();" = some (.error refusal, next) ∧
      next.enter 20 retaking = some (.ok shown, last) ∧
      (last.store.get? scope "m").map Value.text = some "two" ∧ Faithful last := by
  let setup : Setup Unit := ⟨.ofList [], .standard, none⟩
  have checked : ((start setup ()).success? 20 settling).any (fun settled =>
      settled.2.context.innermost.functions.binds "one" &&
      (settled.2.failure? 20 stumbling).any fun stumbled =>
        stumbled.1.cause = .recoverable .divisionByZero &&
        (stumbled.2.store.function? scope "two").isSome &&
        (stumbled.2.store.get? scope "n").map Value.text == some "7" &&
        (fault? (parseText "two();" stumbled.2.context)).isSome &&
        (stumbled.2.success? 20 retaking).any fun retaken =>
          (retaken.2.store.get? scope "m").map Value.text == some "two") = true := by
    decide +kernel
  obtain ⟨⟨_, session⟩, settled, checked⟩ := (Option.any_eq_true _ _).mp checked
  obtain ⟨known, checked⟩ := Bool.and_eq_true_iff.mp checked
  obtain ⟨⟨fault, next⟩, stumbled, checked⟩ := (Option.any_eq_true _ _).mp checked
  simp only [Bool.and_eq_true] at checked
  obtain ⟨⟨⟨⟨cause, stored⟩, changed⟩, refused⟩, checked⟩ := checked
  obtain ⟨⟨shown, last⟩, retaken, bound⟩ := (Option.any_eq_true _ _).mp checked
  obtain ⟨signature, known⟩ := Option.isSome_iff_exists.mp known
  obtain ⟨refusal, isRefusal⟩ := Option.isSome_iff_exists.mp refused
  have stumbled := failure?_eq_some.mp stumbled
  have retaken := success?_eq_some.mp retaken
  have reached : Reached setup () session := Reached.start.entered (success?_eq_some.mp settled)
  have reachedNext := reached.entered stumbled
  obtain ⟨faithful, -, failing⟩ := faithful_of_reached reached
  obtain ⟨back, same⟩ := failing 20 stumbling fault next stumbled
  obtain ⟨faithfulNext, refusing, -⟩ := faithful_of_reached reachedNext
  exact ⟨session, fault, next, refusal, shown, last, reached, stumbled,
    of_decide_eq_true cause, stored, beq_iff_eq.mp changed, faithful, faithfulNext, back,
    same _ List.mem_cons_self "one" signature known,
    refusing "two();" refusal (error_of_fault? isRefusal) 20, retaken, beq_iff_eq.mp bound,
    (faithful_of_reached (reachedNext.entered retaken)).1⟩

end Session

end RobotScript
