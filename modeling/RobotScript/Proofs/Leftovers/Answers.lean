import RobotScript.Proofs.Leftovers.Tidy

/-! # What a failed entry leaves behind

An entry that fails takes back its names, but what it has bound stays in the scope of the
session. If no entry captures, none that comes later can tell: all of them find on the core
what they look for, and the core is the same with what was left behind and without it. If
an entry captures, it may find a name that was left behind. -/
set_option autoImplicit false

namespace RobotScript

open Typing Evaluation

variable {Host : Type}

namespace Session

/-! ## Answers -/

/-- What the entries give one after the other, each with the host as it is then. -/
def answers (fuel : Nat) : List String → Session Host → Option (List (Answer × Host))
  | [], _ => some []
  | source :: rest, session =>
    match session.enter fuel source with
    | none => none
    | some (answer, next) => (answers fuel rest next).map ((answer, next.host) :: ·)

/-- No entry captures, in the context in which it is read. -/
def CapturesNothing (fuel : Nat) : List String → Session Host → Prop
  | [], _ => True
  | source :: rest, session =>
    (∀ root behind, parseText source session.context = .ok (root, behind) → CaptureFree [] root) ∧
      ∀ answer next, session.enter fuel source = some (answer, next) →
        CapturesNothing fuel rest next

/-- Sessions after any entries of which those that succeeded capture nothing. -/
inductive ReachedCalmly (setup : Setup Host) (host : Host) : Session Host → Prop
  | start : ReachedCalmly setup host (start setup host)
  | entered {session next : Session Host} {fuel : Nat} {source : String} {answer : Answer}
      (before : ReachedCalmly setup host session)
      (run : session.enter fuel source = some (answer, next))
      (captureFree : answer.isOk = true → ∀ root behind,
        parseText source session.context = .ok (root, behind) → CaptureFree [] root) :
      ReachedCalmly setup host next

/-- The session behind a failed entry without the variables and functions that the entry has
added to the scope and that are not in the context. -/
def cleaned (before after : Session Host) : Session Host :=
  { after with
    store := after.store.kept fun name => before.store.binds name || after.context.binds name }

variable {setup : Setup Host} {session next one two : Session Host} {host : Host}

theorem ReachedCalmly.reached (reached : ReachedCalmly setup host session) :
    Reached setup host session := by
  induction reached with
  | start => exact .start
  | entered _ run _ reached => exact reached.entered run

/-! ## Entries of a tidy session -/

theorem Tidy.entered (tidy : Tidy setup session) {fuel : Nat} {source : String} {answer : Answer}
    (entered : session.enter fuel source = some (answer, next))
    (captureFree : answer.isOk = true → ∀ root behind,
      parseText source session.context = .ok (root, behind) → CaptureFree [] root)
    (rooted : next.store.Rooted) (held : next.store.isHeld scope = true) : Tidy setup next := by
  obtain ⟨consistent, keeps, -⟩ := enter_consistent tidy.consistent entered
  have size := keeps.size.trans tidy.size
  rcases enter_cases entered with ⟨_, _, _, rfl⟩ | ⟨root, result, machine, parsed, run, rfl, rfl⟩
  · exact tidy
  · have natives := (contextBehind_natives session.context root result).trans tidy.natives
    refine ⟨tidy.sameSetup, natives, consistent, size, rooted, held, ?_⟩
    obtain ⟨typed, -⟩ := parseText_wellTyped parsed
    cases result with
    | error fault => exact tidy.reads.kept keeps
    | ok value =>
      have free := captureFree rfl root _ parsed
      obtain ⟨form, ty, span⟩ := root
      obtain ⟨⟨list, rfl, rfl⟩, statements⟩ := typed
      exact topStatements_reads statements tidy.consistent.outermost
        (fun extent member => free extent (List.mem_cons_of_mem _ member)) tidy.consistent.inside
        tidy.reads run

theorem ReachedCalmly.tidy (reached : ReachedCalmly setup host session) : Tidy setup session := by
  have rootedAndHeld {session : Session Host} (founded : Founded setup session) :
      session.store.Rooted ∧ session.store.isHeld scope = true :=
    ⟨founded.world.rooted, founded.world.held scope founded.consistent.inside⟩
  induction reached with
  | start =>
    have founded : Founded setup (Session.start setup host) := Reached.start.founded
    obtain ⟨rooted, held⟩ := rootedAndHeld founded
    refine ⟨rfl, rfl, founded.consistent, rfl, rooted, held, ?_⟩
    intro name signature closure found
    cases found
  | entered before run captureFree tidy =>
    obtain ⟨rooted, held⟩ := rootedAndHeld (before.reached.entered run).founded
    exact tidy.entered run captureFree rooted held

/-! ## Sessions that agree on the core -/

theorem covers_of_single {less more : Store} (size : less.size = 1) (sizeToo : more.size = 1)
    (parent : more.parent? scope = less.parent? scope)
    (held : more.isHeld scope = less.isHeld scope)
    (vars : ∀ name value, less.variableIn? name scope = some value →
      more.variableIn? name scope = some value)
    (functions : ∀ name closure, less.functionIn? name scope = some closure →
      more.functionIn? name scope = some closure) : less.Covers more := by
  obtain ⟨here, isHere⟩ := Store.scope?_of_lt (size ▸ Nat.one_pos : scope < less.size)
  obtain ⟨there, isThere⟩ := Store.scope?_of_lt (sizeToo ▸ Nat.one_pos : scope < more.size)
  refine ⟨sizeToo.trans size.symm, fun id away => ?_, ?_⟩
  · have outside : 1 ≤ id := Nat.one_le_iff_ne_zero.mpr away
    rw [Store.scope?_of_size_le (sizeToo ▸ outside), Store.scope?_of_size_le (size ▸ outside)]
  · simp only [Store.parent?, Store.isHeld, Store.variableIn?, Store.functionIn?, isHere, isThere,
      Option.bind_some] at parent held vars functions
    rw [isHere, isThere]
    exact .some ⟨parent, held, vars, functions⟩

theorem core_covers (tidy : Tidy setup session) {less more : Store}
    (covers : less.Covers session.store) (coversToo : less.Covers more)
    (binds : Binds session.context less) : session.core.Covers more := by
  have size : more.size = 1 := (coversToo.size.trans covers.size.symm).trans tidy.size
  refine covers_of_single tidy.core_size size ?_ ?_ ?_ ?_
  · rw [core, Store.parent?_kept, covers.parent?, coversToo.parent?]
  · rw [core, Store.isHeld_kept, covers.isHeld, coversToo.isHeld]
  · intro name value found
    rw [core, Store.variableIn?_kept] at found
    split at found
    next isBound =>
      obtain ⟨ty, declared⟩ := variable_of_binds tidy.consistent.outermost isBound
      obtain ⟨common, here⟩ := Option.isSome_iff_exists.mp (binds.values name ty declared)
      rw [covers.variableIn? here] at found
      exact found ▸ coversToo.variableIn? here
    · cases found
  · intro name closure found
    rw [core, Store.functionIn?_kept] at found
    split at found
    next isBound =>
      obtain ⟨signature, declared⟩ := function_of_binds tidy.consistent.outermost isBound
      obtain ⟨common, here, -⟩ := binds.functions name signature declared
      rw [covers.functionIn? here] at found
      exact found ▸ coversToo.functionIn? here
    · cases found

theorem kept_covers {store : Store} (size : store.size = 1) (keeps : Name → Bool) :
    (store.kept keeps).Covers store := by
  refine covers_of_single ((Store.size_kept _ _).trans size) size (Store.parent?_kept ..).symm
    (Store.isHeld_kept ..).symm (fun name value found => ?_) fun name closure found => ?_
  · rw [Store.variableIn?_kept] at found
    split at found
    · exact found
    · cases found
  · rw [Store.functionIn?_kept] at found
    split at found
    · exact found
    · cases found

/-- The sessions are the same but for what lies outside the core of the first one. -/
structure AgreesOnCore (setup : Setup Host) (one two : Session Host) : Prop where
  first : Tidy setup one
  second : Tidy setup two
  context : two.context = one.context
  host : two.host = one.host
  covers : one.core.Covers two.store

theorem Tidy.run_covering (tidy : Tidy setup session) {root : Node}
    (typed : Program session.context root) (captureFree : CaptureFree [] root) (fuel : Nat)
    {store : Store} (covers : session.core.Covers store) :
    runIn setup fuel root scope (.ready session.core session.host) = none ∧
        runIn setup fuel root scope (.ready store session.host) = none ∨
      ∃ result after last,
        runIn setup fuel root scope (.ready session.core session.host) = some (result, after) ∧
        runIn setup fuel root scope (.ready store session.host) = some (result, last) ∧
        after.Covers last := by
  have side : Machine.Covers (.ready session.core session.host) (.ready store session.host) :=
    ⟨covers, rfl, rfl⟩
  rcases Shadows.runIn setup fuel root side with none | ⟨fault, after, ran, unbound⟩ | same
  · exact .inl none
  · exact absurd unbound ((tidy.core_run typed captureFree ran).2.2 fault rfl)
  · exact .inr same

theorem Tidy.core_behind (tidy : Tidy setup session) {root : Node}
    (typed : Program session.context root) {fuel : Nat} {result : Except Fault Value}
    {after : Machine Host}
    (run : runIn setup fuel root scope (.ready session.core session.host) = some (result, after)) :
    Binds (contextBehind session.context root result) after.store := by
  obtain ⟨keeps, bound⟩ := topStatements_keeps typed.statements
    (tidy.core_size ▸ Nat.one_pos : scope < session.core.size) run
  cases result with
  | error fault => exact tidy.core_binds.kept keeps
  | ok value => exact bound tidy.core_binds value rfl

theorem AgreesOnCore.enter (agrees : AgreesOnCore setup one two) {source : String}
    (captureFree : ∀ root behind, parseText source one.context = .ok (root, behind) →
      CaptureFree [] root) (fuel : Nat) :
    one.enter fuel source = none ∧ two.enter fuel source = none ∨
      ∃ answer one' two', one.enter fuel source = some (answer, one') ∧
        two.enter fuel source = some (answer, two') ∧ AgreesOnCore setup one' two' := by
  obtain ⟨setupOne, context, store, host⟩ := one
  obtain ⟨setupTwo, contextTwo, other, hostTwo⟩ := two
  obtain ⟨first, second, sameContext, sameHost, covers⟩ := agrees
  obtain rfl : setupOne = setup := first.sameSetup
  obtain rfl : setupTwo = setupOne := second.sameSetup
  obtain rfl : contextTwo = context := sameContext
  obtain rfl : hostTwo = host := sameHost
  cases parsed : parseText source contextTwo with
  | error fault =>
    refine .inr ⟨.error fault, _, _, ?_, ?_, ⟨first, second, rfl, rfl, covers⟩⟩
    · rw [Session.enter, parsed]
    · rw [Session.enter, parsed]
  | ok program =>
    obtain ⟨root, behind⟩ := program
    obtain ⟨typed, rfl⟩ := parseText_wellTyped parsed
    have free := captureFree root _ parsed
    -- Both stores cover the core, and the run on the core decides how each of them ends.
    have runs := first.run_covering typed free fuel (kept_covers first.size contextTwo.binds)
    have runsToo := first.run_covering typed free fuel covers
    rcases runs with ⟨core, ran⟩ | ⟨result, after, last, core, ran, still⟩
    · rcases runsToo with ⟨-, ranToo⟩ | ⟨_, _, _, coreToo, -⟩
      · refine .inl ⟨?_, ?_⟩
        · simp only [Session.enter, parsed, ran]
        · simp only [Session.enter, parsed, ranToo]
      · rw [core] at coreToo
        cases coreToo
    · rcases runsToo with ⟨coreToo, -⟩ | ⟨_, _, lastToo, coreToo, ranToo, stillToo⟩
      · rw [core] at coreToo
        cases coreToo
      · rw [core] at coreToo
        cases coreToo
        obtain ⟨rooted, held, -⟩ := first.core_run typed free core
        have root {store : Store} (covers : after.store.Covers store) :
            store.Rooted ∧ store.isHeld scope = true :=
          ⟨fun id parent isParent => rooted id parent (covers.parent? id ▸ isParent),
            (covers.isHeld scope).trans held⟩
        have entered := enter_of_run ⟨setupTwo, contextTwo, store, hostTwo⟩ parsed ran
        have enteredToo := enter_of_run ⟨setupTwo, contextTwo, other, hostTwo⟩ parsed ranToo
        have tidy := first.entered entered (fun _ => captureFree) (root still.store).1
          (root still.store).2
        have tidyToo := second.entered enteredToo (fun _ => captureFree) (root stillToo.store).1
          (root stillToo.store).2
        have binds := first.core_behind typed core
        have host : lastToo.host = last.host :=
          (congrArg Prod.snd stillToo.outside).trans (congrArg Prod.snd still.outside).symm
        exact .inr ⟨_, _, _, entered, enteredToo, tidy, tidyToo, rfl, host,
          core_covers tidy still.store stillToo.store binds⟩

theorem AgreesOnCore.answers (agrees : AgreesOnCore setup one two) (fuel : Nat) (sources : List String)
    (calm : CapturesNothing fuel sources one) :
    two.answers fuel sources = one.answers fuel sources := by
  induction sources generalizing one two with
  | nil => rfl
  | cons source rest ih =>
    obtain ⟨captureFree, others⟩ := calm
    unfold Session.answers
    rcases agrees.enter captureFree fuel with ⟨ended, endedToo⟩ |
      ⟨answer, one', two', entered, enteredToo, still⟩
    · rw [ended, endedToo]
    · rw [entered, enteredToo]
      dsimp only
      rw [ih still (others answer one' entered), still.host]

/-! ## The cleaned session -/

theorem Tidy.agrees_cleaned (tidy : Tidy setup next) (session : Session Host) :
    AgreesOnCore setup next (session.cleaned next) := by
  have keeps (name : Name) (binds : next.context.binds name = true) :
      (session.store.binds name || next.context.binds name) = true :=
    Bool.or_eq_true_iff.mpr (.inr binds)
  have cleanedToo := tidy.kept keeps
  refine ⟨tidy, cleanedToo, rfl, rfl, covers_of_single tidy.core_size cleanedToo.size ?_ ?_ ?_ ?_⟩
  · exact (Store.parent?_kept ..).trans (Store.parent?_kept ..).symm
  · exact (Store.isHeld_kept ..).trans (Store.isHeld_kept ..).symm
  · intro name value found
    rw [core, Store.variableIn?_kept] at found
    split at found
    next binds => exact (Store.variableIn?_kept ..).trans ((if_pos (keeps _ binds)).trans found)
    · cases found
  · intro name closure found
    rw [core, Store.functionIn?_kept] at found
    split at found
    next binds => exact (Store.functionIn?_kept ..).trans ((if_pos (keeps _ binds)).trans found)
    · cases found

/-- An entry that fails leaves nothing behind that shows in the entries after it, however
many they are, if these capture nothing and no entry that succeeded before did. -/
theorem leftovers_unobservable (reached : ReachedCalmly setup host session) {fuel : Nat}
    {source : String} {fault : Fault} (failed : session.enter fuel source = some (.error fault, next))
    (later : Nat) (sources : List String) (calm : CapturesNothing later sources next) :
    (session.cleaned next).answers later sources = next.answers later sources := by
  have tidy : Tidy setup next := (reached.entered failed nofun).tidy
  exact (tidy.agrees_cleaned session).answers later sources calm

def leaving : String := "int b = 7; double z = 1 / 0;"

def redeclaring : String := "double b = 2.5; print(b);"

theorem redeclaring_answers :
    ∃ next fault, (start printing []).enter 30 leaving = some (.error fault, next) ∧
      next.store.binds (.var "b") = true ∧
      ((start printing []).cleaned next).store.binds (.var "b") = false ∧
      (next.answers 30 [redeclaring]).map (·.map (·.2)) = some [["2.5"]] ∧
      ((start printing []).cleaned next).answers 30 [redeclaring] = next.answers 30 [redeclaring] := by
  have checked : ((start printing []).failure? 30 leaving).any (fun left =>
      left.2.store.binds (.var "b") &&
      !((start printing []).cleaned left.2).store.binds (.var "b") &&
      decide ((left.2.answers 30 [redeclaring]).map (·.map (·.2)) = some [["2.5"]]) &&
      (parseText redeclaring left.2.context).toOption.any fun program =>
        decide (CaptureFree [] program.1)) = true := by
    decide +kernel
  obtain ⟨⟨fault, next⟩, left, checked⟩ := (Option.any_eq_true _ _).mp checked
  obtain ⟨checked, isFree⟩ := Bool.and_eq_true_iff.mp checked
  obtain ⟨checked, shown⟩ := Bool.and_eq_true_iff.mp checked
  obtain ⟨binds, cleaned⟩ := Bool.and_eq_true_iff.mp checked
  have left := failure?_eq_some.mp left
  have captureFree (root : Node) (behind : Context)
      (parsed : parseText redeclaring next.context = .ok (root, behind)) : CaptureFree [] root := by
    rw [parsed] at isFree
    exact of_decide_eq_true isFree
  exact ⟨next, fault, left, binds, Bool.not_eq_true' _ ▸ cleaned, of_decide_eq_true shown,
    leftovers_unobservable .start left 30 [redeclaring] ⟨captureFree, fun _ _ _ => trivial⟩⟩

/-- An entry with a function that captures: it is read with a function without parameters, and
calls one that has a parameter. -/
def taking : String :=
  "func int g() \x7b return 1; \x7d if true \x7b func int f() \x7b return g(); \x7d func int g(int b) \x7b return b; \x7d print(f()); \x7d"

/-- The parameter gets no value, so the variable that the failed entry has left is printed. In
the cleaned session nothing is. -/
theorem taking_observes :
    ∃ next fault, (start printing []).enter 30 leaving = some (.error fault, next) ∧
      (next.answers 30 [taking]).map (·.map (·.2)) = some [["7"]] ∧
      (((start printing []).cleaned next).answers 30 [taking]).map (·.map (·.2)) = some [[]] ∧
      ((start printing []).cleaned next).answers 30 [taking] ≠ next.answers 30 [taking] := by
  have checked : ((start printing []).failure? 30 leaving).any (fun left =>
      decide ((left.2.answers 30 [taking]).map (·.map (·.2)) = some [["7"]]) &&
      decide ((((start printing []).cleaned left.2).answers 30 [taking]).map (·.map (·.2)) =
        some [[]])) = true := by
    decide +kernel
  obtain ⟨⟨fault, next⟩, left, checked⟩ := (Option.any_eq_true _ _).mp checked
  obtain ⟨shown, silent⟩ := Bool.and_eq_true_iff.mp checked
  have shown := of_decide_eq_true shown
  have silent := of_decide_eq_true silent
  refine ⟨next, fault, failure?_eq_some.mp left, shown, silent, fun same => ?_⟩
  rw [same, shown] at silent
  cases silent

end Session

end RobotScript
