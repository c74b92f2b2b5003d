import RobotScript.Proofs.Entering.Consistency
import RobotScript.Proofs.Joining.Texts
import RobotScript.Proofs.Relating.Course
import RobotScript.Proofs.Relating.Mirror
import RobotScript.Proofs.Relating.Renaming
import RobotScript.Proofs.Tracing.Erasure

/-! # Entries on two lines

It does not matter how what is entered is split up: two entries that both succeed leave
a session as the one entry does in which the second stands behind the first. The one
entry is read as the statements of both, up to their spans, which a run does not look
at. It runs them in one go, so the second entry goes on counting its steps where the
first stopped, which matters only if they are limited. -/
set_option autoImplicit false

namespace RobotScript

variable {Host : Type}

namespace Evaluation

variable {setup : Setup Host} {inner : Node → ScopeId → Run Host Value} {scope : ScopeId}
variable {fuel : Nat} {front back : List Node} {first last value : Value}
variable {machine between after : Machine Host}

/-! ## Statements behind statements -/

theorem topStatements_append
    (run : topStatements setup inner scope last front machine = some (.ok value, between)) :
    topStatements setup inner scope last (front ++ back) machine =
      topStatements setup inner scope value back between := by
  induction front generalizing last machine with
  | nil =>
    cases run
    rfl
  | cons node rest ih =>
    rcases topStatements_ended run with ⟨_, failed, -⟩ | ⟨result, middle, ended, further⟩
    · cases failed
    · rw [List.cons_append, topStatements, ended]
      exact ih further

theorem topStatements_last
    (run : topStatements setup inner scope first back machine = some (.ok value, after)) :
    ∃ result, topStatements setup inner scope last back machine = some (.ok result, after) := by
  cases back with
  | nil =>
    cases run
    exact ⟨last, rfl⟩
  | cons node rest => exact ⟨value, run⟩

theorem topStatements_sames (same : Sames back front)
    (run : topStatements setup (evaluate setup fuel) scope last front machine =
      some (.ok value, after)) :
    ∃ final, topStatements setup (evaluate setup fuel) scope last back machine =
      some (.ok value, final) ∧ final.bare id = after.bare id := by
  have shows := Shows.self setup
  have shown := Projects.topStatements shows (Projects.evaluate shows fuel) scope back last machine
  rw [same.withoutSpans, ← Projects.topStatements shows (Projects.evaluate shows fuel) scope front
    last machine, run] at shown
  obtain ⟨⟨result, final⟩, ran, alike⟩ := Option.map_eq_some_iff.mp shown
  obtain ⟨sameResult, sameMachine⟩ := Prod.mk.inj alike
  cases result with
  | error fault => cases sameResult
  | ok result =>
    cases sameResult
    exact ⟨final, ran, sameMachine⟩

/-! ## Depth -/

theorem level_course (setup : Setup Host) :
    Course setup (fun machine after => after.depth = machine.depth) (fun _ _ => True)
      (fun _ => True) where
  parts := fun _ _ _ _ _ => trivial
  fresh := fun _ _ _ => trivial
  refl := fun _ => rfl
  trans := fun _ _ _ one two => two.trans one
  counted := fun _ => rfl
  watched := fun _ _ _ _ => rfl
  called := fun _ _ _ _ _ => rfl
  deeper := fun _ _ same => congrArg (· - 1) same
  inScope := fun _ _ _ _ same => same trivial
  assigned := fun _ _ _ _ _ _ => rfl
  defined := fun _ _ _ _ _ _ _ _ _ => rfl
  functionDefined := fun _ _ _ _ _ _ => rfl

theorem topStatements_depth {result : Except Fault Value}
    (run : topStatements setup (evaluate setup fuel) scope last back machine =
      some (result, after)) : after.depth = machine.depth := by
  rw [topStatements_eq] at run
  obtain ⟨⟨inside, behind⟩, ran, same⟩ := Option.map_eq_some_iff.mp run
  obtain ⟨-, rfl⟩ := Prod.mk.inj same
  exact (level_course setup).congruence.script (.refl _ fuel) (fun _ _ => trivial) last machine _ _
    ran

/-! ## Steps -/

def Untimed : Likeness Host Host := fun one other => one.2 = other.2

theorem tick_free (unlimited : setup.limits.maxSteps = none) (unwatched : setup.watch = none)
    (span : Span) (machine : Machine Host) :
    tick setup span machine = some (.ok (), machine.counted) := by
  simp only [tick, tick.consult, Bind.bind, Run.bind, Run.countStep, unlimited, unwatched]
  rfl

/-- Where nobody asks for the steps, runs do not depend on them. -/
theorem untimed_mirrors (unlimited : setup.limits.maxSteps = none)
    (unwatched : setup.watch = none) : Mirroring Untimed setup setup where
  depth := rfl
  natives := by
    intro name
    cases setup.natives.find? name with
    | none => exact .none
    | some native =>
      refine .some ⟨rfl, ?_⟩
      rintro arguments steps host number shown ⟨⟩
      exact ⟨rfl, rfl⟩
  tick := by
    intro span machine twin alike
    refine .inr ⟨.ok (), machine.counted, twin.counted, ?_, ?_, ?_⟩
    · exact tick_free unlimited unwatched span machine
    · exact tick_free unlimited unwatched span twin
    · exact ⟨alike.store, alike.depth, alike.outside⟩

theorem topStatements_untimed (unlimited : setup.limits.maxSteps = none)
    (unwatched : setup.watch = none) {twin : Machine Host}
    (alike : machine.Alike Untimed twin) {result : Except Fault Value}
    (run : topStatements setup (evaluate setup fuel) scope last back machine =
      some (result, after)) :
    ∃ final, topStatements setup (evaluate setup fuel) scope last back twin =
      some (result, final) ∧ after.Alike Untimed final := by
  rw [topStatements_eq] at run
  obtain ⟨⟨inside, behind⟩, ran, same⟩ := Option.map_eq_some_iff.mp run
  obtain ⟨rfl, rfl⟩ := Prod.mk.inj same
  have mirrors : Mirrors Untimed Value (script setup (evaluate setup fuel) scope last back)
      (script setup (evaluate setup fuel) scope last back) :=
    (untimed_mirrors unlimited unwatched).congruence.script (.refl _ fuel) (fun _ _ => trivial) last
  rcases mirrors machine twin alike with ⟨none, -⟩ | ⟨result, final, other, ranHere, ranThere, still⟩
  · rw [none] at ran
    cases ran
  · rw [ranHere] at ran
    cases ran
    refine ⟨other, ?_, still⟩
    rw [topStatements_eq, ranThere]
    rfl

/-! ## Scripts behind scripts -/

/-- Two scripts, the second run from where the first leaves off, run as one. -/
theorem runIn_joined (unlimited : setup.limits.maxSteps = none) (unwatched : setup.watch = none)
    {root left right : Node} (same : Sames root.statements (left.statements ++ right.statements))
    {store : Store} {host : Host}
    (one : runIn setup fuel left scope (.ready store host) = some (.ok first, between))
    (two : runIn setup fuel right scope (.ready between.store between.host) =
      some (.ok last, after)) :
    ∃ result final, runIn setup fuel root scope (.ready store host) = some (.ok result, final) ∧
      final.store.bare = after.store.bare ∧ final.host = after.host := by
  have alike : (Machine.ready between.store between.host).Alike Untimed between :=
    ⟨rfl, (topStatements_depth one).symm, rfl⟩
  obtain ⟨later, ran, still⟩ := topStatements_untimed unlimited unwatched alike two
  obtain ⟨result, ranOn⟩ := topStatements_last ran
  obtain ⟨final, ranAll, shown⟩ := topStatements_sames same ((topStatements_append one).trans ranOn)
  refine ⟨result, final, ranAll, ?_, ?_⟩
  · exact (congrArg Machine.store shown).trans (congrArg Store.bare still.store.symm)
  · exact (congrArg Machine.host shown).trans still.outside.symm

end Evaluation

/-! ## Entries -/

namespace Session

/-- Two sessions have the same host, the same names, and behind these the same values
and, up to spans, the same functions. -/
structure Agrees (first second : Session Host) : Prop where
  setup : first.setup = second.setup
  context : first.context = second.context
  host : first.host = second.host
  values : ∀ name, first.store.variableIn? name scope = second.store.variableIn? name scope
  functions : ∀ name, (first.store.functionIn? name scope).map Closure.bare =
    (second.store.functionIn? name scope).map Closure.bare

theorem enter_ok {session next : Session Host} {fuel : Nat} {source : String}
    {shown : Option Value} (run : session.enter fuel source = some (.ok shown, next)) :
    ∃ root context value machine, parseText source session.context = .ok (root, context) ∧
      Evaluation.runIn session.setup fuel root scope (.ready session.store session.host) =
        some (.ok value, machine) ∧
      next = { session with context := context, store := machine.store, host := machine.host } := by
  rw [enter] at run
  cases parsed : parseText source session.context with
  | error fault =>
    rw [parsed] at run
    cases run
  | ok made =>
    obtain ⟨root, context⟩ := made
    rw [parsed] at run
    rcases ended : Evaluation.runIn session.setup fuel root scope
      (.ready session.store session.host) with _ | ⟨fault | value, machine⟩
    all_goals
      simp only [ended] at run
      cases run
    exact ⟨root, context, value, machine, rfl, ended, rfl⟩

/-- If two entries succeed one after the other, and no comment of the first is left
open, then both on two lines succeed as one entry, and leave the session the same.
Nothing may count the steps, neither a limit nor a watch. -/
theorem enter_joined {session between after : Session Host}
    (unlimited : session.setup.limits.maxSteps = none) (unwatched : session.setup.watch = none)
    {first second : String} (closes : ClosesComments first.toList) {fuel more : Nat}
    {shown shownOn : Option Value} (one : session.enter fuel first = some (.ok shown, between))
    (two : between.enter more second = some (.ok shownOn, after)) {most : Nat}
    (enough : fuel ≤ most) (enoughOn : more ≤ most) :
    ∃ answer joined, session.enter most (first ++ "\n" ++ second) = some (.ok answer, joined) ∧
      joined.Agrees after := by
  obtain ⟨left, middle, value, machine, parsed, ran, rfl⟩ := enter_ok one
  obtain ⟨right, last, valueOn, behind, parsedOn, ranOn, rfl⟩ := enter_ok two
  obtain ⟨root, parsedAll, same⟩ := parseText_joined closes parsed parsedOn
  obtain ⟨result, final, ranAll, store, host⟩ :=
    Evaluation.runIn_joined unlimited unwatched same (Evaluation.runIn_of_le enough ran)
      (Evaluation.runIn_of_le enoughOn ranOn)
  refine ⟨if shows root then some result else none,
    { session with context := last, store := final.store, host := final.host }, ?_,
    rfl, rfl, host, fun name => ?_, fun name => ?_⟩
  · rw [enter, parsedAll]
    simp only [ranAll]
  · rw [← Store.variableIn?_bare, store, Store.variableIn?_bare]
  · rw [← Store.functionIn?_bare, store, Store.functionIn?_bare]

def listening : Setup (List Value) :=
  ⟨.ofList [("tell", ⟨⟨.exactly [.int], .void⟩, fun told heard => (.ok .void, heard ++ told)⟩)],
    .standard, none⟩

/-- An entry that ends in a block, behind which more could stand. -/
def doubling : String :=
  "# twice # func int twice(int n) \x7b return n * 2; \x7d if true \x7b tell(1); \x7d"

def relying : String := "int four = twice(2); tell(four);"

theorem doubling_joined :
    ∃ shown between shownOn after answer joined,
      (start listening []).enter 20 doubling = some (.ok shown, between) ∧
      between.enter 20 relying = some (.ok shownOn, after) ∧
      (start listening []).enter 20 (doubling ++ "\n" ++ relying) = some (.ok answer, joined) ∧
      joined.Agrees after ∧ joined.host.length = 2 := by
  have closes : ClosesComments doubling.toList := by
    have text : doubling.toList = '#' :: doubling.toList.tail := by decide +kernel
    rw [text]
    exact .cons (fun _ => by decide +kernel) (.of_absent (by decide +kernel))
  have checked : ((start listening []).success? 20 doubling).any (fun doubled =>
      (doubled.2.success? 20 relying).any fun relied => relied.2.host.length = 2) = true := by
    decide +kernel
  obtain ⟨⟨shown, between⟩, doubled, checked⟩ := (Option.any_eq_true _ _).mp checked
  obtain ⟨⟨shownOn, after⟩, relied, heard⟩ := (Option.any_eq_true _ _).mp checked
  have doubled := success?_eq_some.mp doubled
  have relied := success?_eq_some.mp relied
  obtain ⟨answer, joined, entered, agrees⟩ :=
    enter_joined rfl rfl closes doubled relied (Nat.le_refl 20) (Nat.le_refl 20)
  exact ⟨shown, between, shownOn, after, answer, joined, doubled, relied, entered, agrees,
    (congrArg List.length agrees.host).trans (of_decide_eq_true heard)⟩

end Session

end RobotScript
