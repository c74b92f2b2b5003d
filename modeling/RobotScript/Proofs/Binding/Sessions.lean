import RobotScript.Proofs.Binding.Soundness
import RobotScript.Proofs.Entering.Consistency
import RobotScript.Proofs.Soundness

/-! # Every call finds a live function

The scope of a session holds what the context of the session has, so the statements of an
entry are ready when it begins. Whatever the entries before have left behind, the functions
among it were defined in that scope and still find there what they were read with. -/
set_option autoImplicit false

namespace RobotScript

open Typing Evaluation

variable {Host : Type}

namespace Binding

variable {footing : Footing Host} {context : Context} {scope : ScopeId}

/-! ## Whole scripts -/

section

variable {inner : Node → ScopeId → Run (Watched Host) Value} {machine : Machine (Watched Host)}

theorem topStatement_runs (sound : Sound footing inner) {node : Node} {rest : List Node}
    (typed : Statement Grammar.topLevel context node)
    (ready : ReadySequence footing context machine scope (node :: rest)) :
    Runs footing scope (topStatement (Watching.setup footing.plain) inner scope node) machine
      fun _ next => ReadySequence footing (context.after node) next scope rest := by
  have ticks : RunsStill footing (tick (Watching.setup footing.plain) node.span) machine :=
    .tick ready.ready.world node.span
  refine (ticks.leading (Nat.le_of_lt ready.ready.inside)).bind ?_
  intro _ next _ leads
  have now := ready.later leads
  exact (sound.statement typed now.head now.top
    fun asked => now.unkept asked node List.mem_cons_self).mono (Nat.le_refl _)
      fun _ _ further advances => now.tail further advances

theorem topStatements_runs (sound : Sound footing inner) {list : List Node} {last : Value}
    (typed : Sequence (Statement Grammar.topLevel) context list)
    (ready : ReadySequence footing context machine scope list)
    {result : Except Fault Value} {after : Machine (Watched Host)}
    (run : topStatements (Watching.setup footing.plain) inner scope last list machine =
      some (result, after)) :
    World footing after ∧ ∀ fault, result = .error fault → fault.cause.Bound footing.faithful := by
  induction list generalizing machine context last with
  | nil =>
    cases run
    refine ⟨ready.ready.world, ?_⟩
    rintro _ ⟨⟩
  | cons node rest ih =>
    have first := topStatement_runs sound typed.head ready
    rcases topStatements_ended run with ⟨exit, rfl, failed⟩ | ⟨value, between, ended, further⟩
    · obtain ⟨leads, ends⟩ := first _ _ failed
      refine ⟨leads.world, ?_⟩
      rintro _ ⟨⟩
      rcases exit with fault | jump
      · exact ends
      · cases jump <;> trivial
    · obtain ⟨-, now⟩ := first _ _ ended
      exact ih typed.tail now further

end

/-- The host starts anew, and with it the visits. -/
theorem World.again {machine : Machine (Watched Host)} (world : World footing machine)
    (host : Host) : World footing (Machine.ready machine.store host).watched where
  rooted := world.rooted
  held := world.held
  closures := world.closures
  visits _ member := absurd member List.not_mem_nil

theorem World.fresh (footing : Footing Host) (host : Host) :
    World footing (Machine.ready .withRoot host).watched where
  rooted := Store.rooted_withRoot
  held _ inside := Store.isHeld_withRoot inside
  closures := by
    intro id name closure found
    cases (Store.functionIn?_withRoot name id).symm.trans found
  visits _ member := absurd member List.not_mem_nil

/-! ## Sessions -/

theorem Sees.of_binds {store : Store}
    (natives : context.natives = footing.plain.natives.map (·.signature))
    (outermost : context.enclosing = []) (inside : Session.scope < store.size)
    (binds : Session.Binds context store) (free : List Name) :
    Sees footing store Session.scope context free where
  natives := natives
  functions name signature notNative found := by
    rw [Context.signature?, notNative, Context.scopes, outermost] at found
    obtain ⟨declarations, member, declared⟩ := List.exists_of_findSome?_eq_some found
    obtain rfl := List.mem_singleton.mp member
    obtain ⟨closure, stored, means, -⟩ := binds.functions name signature declared
    exact ⟨closure, (Session.function?_scope inside name).trans stored, fun _ _ => means⟩
  values _ name ty found := by
    rw [Context.variableType?, Context.scopes, outermost] at found
    obtain ⟨declarations, member, declared⟩ := List.exists_of_findSome?_eq_some found
    obtain rfl := List.mem_singleton.mp member
    rw [Store.get?_isSome, Session.chain_scope inside]
    exact ⟨Session.scope, List.mem_cons_self, binds.values name ty declared⟩

end Binding

namespace Session

/-- What holds between two entries, however the ones before have ended. -/
structure Founded (setup : Setup Host) (session : Session Host) : Prop where
  sameSetup : session.setup = setup
  natives : session.context.natives = setup.natives.map (·.signature)
  consistent : Consistent session
  size : session.store.size = 1
  world : Binding.World ⟨setup, False⟩ (Machine.ready session.store session.host).watched

variable {setup : Setup Host} {session next : Session Host} {host : Host}

/-- A run that is not asked to be faithful may begin with any entry. -/
theorem Founded.ready (founded : Founded setup session) (list : List Node) :
    Binding.ReadySequence ⟨setup, False⟩ session.context
      (Machine.ready session.store session.host).watched scope list where
  ready := ⟨founded.world, .of_binds founded.natives founded.consistent.outermost
    founded.consistent.inside founded.consistent.binds _, founded.consistent.inside, False.elim⟩
  top := founded.size.symm
  calm := False.elim
  unkept := False.elim

theorem Founded.run (founded : Founded setup session) {source : String} {root : Node}
    {behind : Context} (parsed : parseText source session.context = .ok (root, behind)) {fuel : Nat}
    {result : Except Fault Value} {last : Machine (Watched Host)}
    (run : Watching.runIn setup fuel root scope
      (Machine.ready session.store session.host).watched = some (result, last)) :
    Binding.World ⟨setup, False⟩ last ∧ ∀ fault, result = .error fault → fault.cause.Bound False :=
  Binding.topStatements_runs (Binding.evaluate_sound ⟨setup, False⟩ fuel)
    (parseText_wellTyped parsed).1.statements (founded.ready root.statements) run

theorem Founded.entered (founded : Founded setup session) {fuel : Nat} {source : String}
    {answer : Answer} (entered : session.enter fuel source = some (answer, next)) :
    Founded setup next := by
  obtain ⟨consistent, keeps, -⟩ := enter_consistent founded.consistent entered
  have size := keeps.size.trans founded.size
  rcases enter_cases entered with ⟨_, _, _, rfl⟩ | ⟨root, result, machine, parsed, run, rfl, rfl⟩
  · exact founded
  · have natives := (contextBehind_natives session.context root result).trans founded.natives
    rw [founded.sameSetup] at run
    obtain ⟨last, watched, rfl⟩ := Watching.runIn_of_plain run
    exact ⟨founded.sameSetup, natives, consistent, size,
      (founded.run parsed watched).1.again last.plain.host⟩

theorem Reached.founded (reached : Reached setup host session) : Founded setup session := by
  induction reached with
  | start =>
    exact ⟨rfl, rfl, start_consistent setup host, rfl, .fresh ⟨setup, False⟩ host⟩
  | entered _ run founded => exact founded.entered run

end Session

/-- However the run ends, it is not for a function that is undefined or dead; and every
visit was grounded. -/
def FindsFunctions (setup : Setup Host) (fuel : Nat) (root : Node) (machine : Machine Host) : Prop :=
  ∀ result after, runIn setup fuel root Session.scope machine = some (result, after) →
    (∀ fault, result = .error fault → ∀ name,
      fault.cause ≠ .fatal (.undefinedFunction name) ∧ fault.cause ≠ .fatal (.deadFunction name)) ∧
    ∃ last, Watching.runIn setup fuel root Session.scope machine.watched = some (result, last) ∧
      last.plain = after ∧ ∀ visit ∈ last.visits, visit.Grounded setup.natives

theorem Session.Founded.findsFunctions {setup : Setup Host} {session : Session Host}
    (founded : Founded setup session) {source : String} {root : Node} {behind : Context}
    (parsed : parseText source session.context = .ok (root, behind)) (fuel : Nat) :
    FindsFunctions setup fuel root (.ready session.store session.host) := by
  intro result after ran
  obtain ⟨last, watched, isAfter⟩ := Watching.runIn_of_plain ran
  obtain ⟨world, bound⟩ := founded.run parsed watched
  refine ⟨fun fault isFault name => ?_, last, watched, isAfter, world.visits⟩
  have isBound := bound fault isFault
  constructor
  all_goals
    intro same
    rw [same] at isBound
    exact isBound

/-- Whatever the natives do and wherever the limits cut a run: when a script runs in a fresh
scope, and when an entry runs in a session that any entries have led to, each call finds a
function that lives. -/
theorem calls_find_functions (setup : Setup Host) (host : Host) :
    (∀ source root, compile setup.natives source = .ok root → ∀ fuel,
      FindsFunctions setup fuel root (.ready .withRoot host)) ∧
    ∀ session, Session.Reached setup host session → ∀ source root behind,
      parseText source session.context = .ok (root, behind) → ∀ fuel,
        FindsFunctions session.setup fuel root (.ready session.store session.host) := by
  constructor
  · intro source root compiled fuel
    obtain ⟨behind, parsed⟩ := compile_ok compiled
    have founded : Session.Founded setup (.start setup host) := Session.Reached.start.founded
    exact founded.findsFunctions parsed fuel
  · intro session reached source root behind parsed fuel
    rw [reached.founded.sameSetup]
    exact reached.founded.findsFunctions parsed fuel

def recalling : String := "func int three() \x7b return one() + 2; \x7d three();"

/-- The functions are found behind an entry that failed half way, with a function of its own
stored by then. -/
theorem recalling_findsFunctions :
    ∃ before fault session root behind after value,
      Session.Reached ⟨.ofList [], .standard, none⟩ () before ∧
      before.enter 20 Session.stumbling = some (.error fault, session) ∧
      fault.cause = .recoverable .divisionByZero ∧
      Session.Reached ⟨.ofList [], .standard, none⟩ () session ∧
      parseText recalling session.context = .ok (root, behind) ∧
      runIn session.setup 20 root Session.scope (.ready session.store session.host) =
        some (.ok value, after) ∧ value.text = "3" ∧
      FindsFunctions session.setup 20 root (.ready session.store session.host) := by
  let setup : Setup Unit := ⟨.ofList [], .standard, none⟩
  have checked : ((Session.start setup ()).success? 20 Session.settling).any (fun settled =>
      (settled.2.failure? 20 Session.stumbling).any fun stumbled =>
        stumbled.1.cause = .recoverable .divisionByZero &&
        (parseText recalling stumbled.2.context).toOption.any fun program =>
          (runIn stumbled.2.setup 20 program.1 Session.scope
            (.ready stumbled.2.store stumbled.2.host)).any fun ended =>
              ended.1.toOption.any fun value => value.text == "3") = true := by
    decide +kernel
  obtain ⟨⟨_, settled⟩, settles, checked⟩ := (Option.any_eq_true _ _).mp checked
  obtain ⟨⟨fault, session⟩, stumbles, checked⟩ := (Option.any_eq_true _ _).mp checked
  obtain ⟨cause, checked⟩ := Bool.and_eq_true_iff.mp checked
  have stumbles := Session.failure?_eq_some.mp stumbles
  have earlier : Session.Reached setup () settled :=
    Session.Reached.start.entered (Session.success?_eq_some.mp settles)
  have reached := earlier.entered stumbles
  obtain ⟨⟨root, behind⟩, parsed, checked⟩ := (Option.any_eq_true _ _).mp checked
  obtain ⟨⟨result, after⟩, ran, checked⟩ := (Option.any_eq_true _ _).mp checked
  obtain ⟨value, isValue, checked⟩ := (Option.any_eq_true _ _).mp checked
  have parsed := ok_of_toOption parsed
  obtain rfl := ok_of_toOption isValue
  exact ⟨settled, fault, session, root, behind, after, value, earlier, stumbles,
    of_decide_eq_true cause, reached, parsed, ran, beq_iff_eq.mp checked,
    (calls_find_functions setup ()).2 session reached recalling root behind parsed 20⟩

end RobotScript
