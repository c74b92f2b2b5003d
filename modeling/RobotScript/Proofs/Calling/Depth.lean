import RobotScript.Proofs.Calling.Journal
import RobotScript.Proofs.Joining.Entries
import RobotScript.Proofs.Reading.Outcomes

/-! # The call depth

A machine counts the function bodies that it is in. Whatever a run does and however it
ends, it leaves the count as it was; and during a run the count is, at every moment, the
number of bodies that were entered and not yet left. A call is refused if that number is
the limit already, and only then. -/
set_option autoImplicit false

namespace RobotScript

open Evaluation

variable {Host : Type}

/-! ## Journals that count right -/

/-- How many bodies are active behind an event. -/
def Event.count (active : Nat) : Event → Nat
  | .enters => active + 1
  | .leaves => active - 1
  | _ => active

def Exit.tooDeep (limit : Nat) (span : Span) : Exit := .fault ⟨.fatal (.callDepthLimit limit), span⟩

def Event.answer (limit active : Nat) (node : Node) : Event :=
  if active = limit then .ends node (.error (.tooDeep limit node.span)) else .enters

namespace Journal

def count (active : Nat) (moments : List Moment) : Nat :=
  moments.foldl (fun active moment => moment.event.count active) active

/-- A journal that is read from the front, with so many bodies active. -/
def Sound (limit : Nat) : Nat → List Moment → Prop
  | _, [] => True
  | active, moment :: rest =>
    moment.depth = moment.event.count active ∧ moment.depth ≤ limit ∧
      (moment.event = .leaves → 0 < active) ∧
      (∀ node, moment.event = .calls node →
        ∃ next ∈ rest.head?, next.event = .answer limit active node) ∧
      Sound limit moment.depth rest

variable {limit active : Nat}

theorem Sound.append {front rest : List Moment} (sound : Sound limit active front)
    (soundToo : Sound limit (count active front) rest) : Sound limit active (front ++ rest) := by
  induction front generalizing active with
  | nil => exact soundToo
  | cons moment front ih =>
    obtain ⟨depth, within, leaves, calls, further⟩ := sound
    rw [count, List.foldl_cons, ← depth] at soundToo
    refine ⟨depth, within, leaves, fun node isCall => ?_, ih further soundToo⟩
    obtain ⟨next, isNext, answers⟩ := calls node isCall
    refine ⟨next, ?_, answers⟩
    change (front ++ rest).head? = some next
    rw [List.head?_append, Option.mem_def.mp isNext]
    rfl

theorem count_append (active : Nat) (front rest : List Moment) :
    count active (front ++ rest) = count (count active front) rest :=
  List.foldl_append

/-! ## Runs that count right -/

/-- The depth is as it was, and what was written down on the way counts right. -/
def Steady (limit : Nat) (machine after : Machine (Journaled Host)) : Prop :=
  after.depth = machine.depth ∧ ∃ moments, after.moments = machine.moments ++ moments ∧
    (machine.depth ≤ limit →
      Sound limit machine.depth moments ∧ count machine.depth moments = machine.depth)

namespace Steady

variable {machine between after : Machine (Journaled Host)}

theorem same (depth : after.depth = machine.depth) (moments : after.moments = machine.moments) :
    Steady limit machine after :=
  ⟨depth, [], by rw [moments, List.append_nil], fun _ => ⟨trivial, rfl⟩⟩

theorem trans (one : Steady limit machine between) (two : Steady limit between after) :
    Steady limit machine after := by
  obtain ⟨depth, front, isFront, counts⟩ := one
  obtain ⟨depthToo, rest, isRest, countsToo⟩ := two
  rw [depth] at countsToo
  refine ⟨depthToo.trans depth, front ++ rest, ?_, fun within => ?_⟩
  · rw [isRest, isFront, List.append_assoc]
  · obtain ⟨sound, level⟩ := counts within
    obtain ⟨soundToo, levelToo⟩ := countsToo within
    refine ⟨sound.append (level.symm ▸ soundToo), ?_⟩
    rw [count_append, level, levelToo]

theorem begins (machine : Machine (Journaled Host)) (node : Node) :
    Steady limit machine (machine.noted (.begins node)) := by
  refine ⟨rfl, [_], rfl, fun within => ⟨⟨rfl, within, ?_, ?_, trivial⟩, rfl⟩⟩
  · rintro ⟨⟩
  · rintro _ ⟨⟩

theorem ends (machine : Machine (Journaled Host)) (node : Node) (result : Except Exit Value) :
    Steady limit machine (machine.noted (.ends node result)) := by
  refine ⟨rfl, [_], rfl, fun within => ⟨⟨rfl, within, ?_, ?_, trivial⟩, rfl⟩⟩
  · rintro ⟨⟩
  · rintro _ ⟨⟩

theorem refused (node : Node) (full : limit ≤ machine.depth) :
    Steady limit machine ((machine.noted (.calls node)).noted
      (.ends node (.error (.tooDeep limit node.span)))) := by
  refine ⟨rfl, [⟨.calls node, machine.depth⟩,
    ⟨.ends node (.error (.tooDeep limit node.span)), machine.depth⟩], ?_, fun within => ?_⟩
  · simp [Machine.noted, Machine.moments]
  · have level : machine.depth = limit := Nat.le_antisymm within full
    refine ⟨⟨rfl, within, ?_, ?_, rfl, within, ?_, ?_, trivial⟩, rfl⟩
    · rintro ⟨⟩
    · rintro _ ⟨⟩
      exact ⟨_, rfl, by rw [Event.answer, if_pos level]⟩
    · rintro ⟨⟩
    · rintro _ ⟨⟩

theorem entered {inside : Machine (Journaled Host)} (node : Node) (room : machine.depth < limit)
    (runs : Steady limit ((machine.noted (.calls node)).deeper.noted .enters) inside) :
    Steady limit machine (inside.shallower.noted .leaves) := by
  obtain ⟨depth, moments, isMoments, counts⟩ := runs
  have inner : inside.depth = machine.depth + 1 := depth
  have level : inside.shallower.depth = machine.depth := by simp [Machine.shallower, inner]
  have inside : Sound limit (machine.depth + 1) moments ∧
      count (machine.depth + 1) moments = machine.depth + 1 := counts (Nat.succ_le_of_lt room)
  obtain ⟨sound, back⟩ := inside
  refine ⟨level, ⟨.calls node, machine.depth⟩ :: ⟨.enters, machine.depth + 1⟩ ::
    (moments ++ [⟨.leaves, machine.depth⟩]), ?_, fun within => ⟨?_, ?_⟩⟩
  · have before : inside.moments = machine.moments ++
        [⟨.calls node, machine.depth⟩, ⟨.enters, machine.depth + 1⟩] ++ moments := by
      simpa [Machine.noted, Machine.moments, Machine.deeper] using isMoments
    rw [Machine.noted, level]
    change inside.moments ++ _ = _
    rw [before]
    simp
  · refine ⟨rfl, within, ?_, ?_, rfl, Nat.succ_le_of_lt room, ?_, ?_, sound.append ?_⟩
    · rintro ⟨⟩
    · rintro _ ⟨⟩
      exact ⟨_, rfl, by rw [Event.answer, if_neg (Nat.ne_of_lt room)]⟩
    · rintro ⟨⟩
    · rintro _ ⟨⟩
    · rw [back]
      refine ⟨rfl, within, fun _ => Nat.succ_pos _, ?_, trivial⟩
      rintro _ ⟨⟩
  · change count (machine.depth + 1) (moments ++ [_]) = machine.depth
    rw [count_append, back]
    rfl

end Steady

/-- Outside of calls nothing is written down, and the depth stays the same. -/
theorem advance (plain : Setup Host) (limit : Nat) :
    Advance (setup plain) (Steady limit) (fun _ _ => True) (fun _ => True) where
  parts := fun _ _ _ _ _ => trivial
  fresh := fun _ _ _ => trivial
  refl := fun _ => .same rfl rfl
  trans := fun _ _ _ => .trans
  counted := fun _ => .same rfl rfl
  watched := by
    intro watch isWatch machine steps
    obtain ⟨_, -, rfl⟩ := Option.map_eq_some_iff.mp isWatch
    exact .same rfl rfl
  inScope := fun _ _ _ _ steady => steady trivial
  assigned := fun _ _ _ _ _ _ => .same rfl rfl
  defined := fun _ _ _ _ _ _ _ _ _ => .same rfl rfl
  functionDefined := fun _ _ _ _ _ _ => .same rfl rfl

section

variable {plain : Setup Host} {inner : Node → ScopeId → Run (Journaled Host) Value}
variable {machine after : Machine (Journaled Host)} {result : Except Exit Value}

/-- A call counts right, or it is refused and nothing comes behind that. -/
def Answers (limit : Nat) (node : Node) (machine : Machine (Journaled Host))
    (result : Except Exit Value) (after : Machine (Journaled Host)) : Prop :=
  Steady limit machine after ∨ ∃ between, Steady limit machine between ∧
    limit ≤ between.depth ∧ after = between.noted (.calls node) ∧
    result = .error (.tooDeep limit node.span)

theorem callResult_ended {name : String} {returns : Ty} {span : Span} {given : Except Exit Value}
    (ran : callResult name returns span given machine = some (result, after)) :
    after = machine := by
  rcases given with (fault | (value | _ | _)) | value
  · cases ran
    rfl
  · cases ran
    rfl
  all_goals
    rw [callResult] at ran
    · split at ran
      · cases ran
        rfl
      · cases ran
        rfl
    all_goals rintro _ ⟨⟩

variable (nested : ∀ node scope, Moves (Steady plain.limits.maxDepth) Value (inner node scope)
  (inner node scope))

include nested

theorem callFunction_answers {node : Node} {name : String} {arguments : List Value}
    {closure : Closure}
    (ran : callFunction plain inner node name arguments closure machine = some (result, after)) :
    Answers plain.limits.maxDepth node machine result after := by
  change admitted (setup plain) node.span _ (machine.noted (.calls node)) = _ at ran
  rw [admitted_apply] at ran
  split at ran
  next full =>
    cases ran
    exact .inr ⟨machine, .same rfl rfl, full, rfl, rfl⟩
  next room =>
    have paired : Paired (Moves (Steady plain.limits.maxDepth))
        (fun scope twin _ => scope = twin ∧ True) inner inner := by
      rintro node scope _ ⟨rfl, -⟩
      exact nested node scope
    have home : closure.home = closure.home := rfl
    have frame := (advance plain plain.limits.maxDepth).stepwise.body paired home
      (boundParameters closure.function.parameters arguments) closure.function.body.statements
    obtain ⟨given, left, bodyRan, last⟩ := Run.settle_bind_ended ran
    obtain rfl := callResult_ended last
    obtain ⟨outer, deeperRan, rfl⟩ := behind_ended bodyRan
    obtain ⟨inside, insideRan, rfl⟩ := Run.deeper_ended deeperRan
    exact .inl (.entered node (Nat.lt_of_not_le room) (frame _ _ _ insideRan))

theorem invoke_answers {node : Node} {name : String} {arguments : List Value} {scope : ScopeId}
    (ran : invoke plain inner node name scope arguments machine = some (result, after)) :
    Answers plain.limits.maxDepth node machine result after := by
  have advance := advance plain plain.limits.maxDepth
  unfold invoke at ran
  cases found : (setup plain).natives.find? name with
  | some native =>
    rw [found] at ran
    have quiet (machine : Machine (Journaled Host)) (arguments : List Value) :
        Steady plain.limits.maxDepth machine
          { machine with host := (native.run arguments machine.host).2 } := by
      change (plain.natives.map _).find? name = _ at found
      rw [Bindings.find?_map] at found
      obtain ⟨_, -, rfl⟩ := Option.map_eq_some_iff.mp found
      exact .same rfl rfl
    exact .inl (advance.callNative quiet name arguments node.span machine result after ran)
  | none =>
    rw [found] at ran
    rcases Run.bind_ended ran with ⟨_, _, ⟨⟩⟩ | ⟨store, _, ⟨⟩, looked⟩
    cases isClosure : machine.store.function? scope name with
    | none =>
      rw [isClosure] at looked
      cases looked
      exact .inl (.same rfl rfl)
    | some closure =>
      simp only [isClosure] at looked
      split at looked
      · exact callFunction_answers nested looked
      · cases looked
        exact .inl (.same rfl rfl)

theorem form_answers {fuel : Nat} {node : Node} {scope : ScopeId}
    (ran : form plain inner fuel node scope machine = some (result, after)) :
    Answers plain.limits.maxDepth node machine result after := by
  have stepwise := (advance plain plain.limits.maxDepth).stepwise
  have paired : Paired (Moves (Steady plain.limits.maxDepth))
      (fun scope twin _ => scope = twin ∧ True) inner inner := by
    rintro node scope _ ⟨rfl, -⟩
    exact nested node scope
  have quiet (noCall : ∀ name arguments, node.form ≠ .call name arguments) :
      Moves (Steady plain.limits.maxDepth) Value
        (Evaluation.form (setup plain) inner fuel node scope)
        (Evaluation.form (setup plain) inner fuel node scope) :=
    stepwise.form paired (.refl _ fuel) ⟨rfl, trivial⟩ fun name arguments isCall =>
      absurd isCall (noCall name arguments)
  obtain ⟨form, ty, span⟩ := node
  cases form with
  | call name arguments =>
    have valued : Moves (Steady plain.limits.maxDepth) (List Value)
        (values inner scope arguments) (values inner scope arguments) :=
      stepwise.values paired fun _ _ => ⟨rfl, trivial⟩
    rcases Run.bind_ended ran with ⟨exit, rfl, failed⟩ | ⟨given, between, found, further⟩
    · exact .inl (valued _ _ _ failed)
    · have before := valued _ _ _ found
      rcases invoke_answers nested further with steady | ⟨last, steady, refused⟩
      · exact .inl (before.trans steady)
      · exact .inr ⟨last, before.trans steady, refused⟩
  | _ => exact .inl (quiet (by rintro _ _ ⟨⟩) machine result after ran)

end

theorem evaluate_steady (plain : Setup Host) (fuel : Nat) (node : Node) (scope : ScopeId) :
    Moves (Steady plain.limits.maxDepth) Value (evaluate plain fuel node scope)
      (evaluate plain fuel node scope) := by
  induction fuel generalizing node scope with
  | zero => rintro machine result after ⟨⟩
  | succ fuel ih =>
    intro machine result last ran
    obtain ⟨after, formRan, rfl⟩ := behind_ended ran
    have begins : Steady plain.limits.maxDepth machine _ := .begins machine node
    rcases form_answers ih formRan with steady | ⟨between, steady, full, rfl, rfl⟩
    · exact (begins.trans steady).trans (.ends after node result)
    · exact (begins.trans steady).trans (.refused node full)

theorem runIn_steady {plain : Setup Host} {fuel : Nat} {root : Node} {scope : ScopeId}
    {machine last : Machine (Journaled Host)} {result : Except Fault Value}
    (ran : runIn plain fuel root scope machine = some (result, last)) :
    Steady plain.limits.maxDepth machine last := by
  have stepwise := (advance plain plain.limits.maxDepth).stepwise
  have paired : Paired (Moves (Steady plain.limits.maxDepth))
      (fun scope twin _ => scope = twin ∧ True) (evaluate plain fuel) (evaluate plain fuel) := by
    rintro node scope _ ⟨rfl, -⟩
    exact evaluate_steady plain fuel node scope
  have runs : Moves (Steady plain.limits.maxDepth) Value
      (script (setup plain) (evaluate plain fuel) scope .void root.statements) _ :=
    stepwise.script paired (fun _ _ => ⟨rfl, trivial⟩) .void
  rw [runIn, topStatements_eq] at ran
  obtain ⟨⟨inside, after⟩, scriptRan, same⟩ := Option.map_eq_some_iff.mp ran
  obtain ⟨-, rfl⟩ := Prod.mk.inj same
  exact runs machine inside after scriptRan

/-! ## What a journal that counts right says -/

end Journal

def Event.isEntry : Event → Bool
  | .enters => true
  | _ => false

def Event.isExit : Event → Bool
  | .leaves => true
  | _ => false

def Journal.entries (moments : List Moment) : Nat := moments.countP (·.event.isEntry)

def Journal.exits (moments : List Moment) : Nat := moments.countP (·.event.isExit)

/-- The depth at a moment is the number of bodies that were entered and not left up to then,
and at most the limit; and a call that has found its function is refused if that number is
the limit, and else enters its body. -/
structure Moment.Counts (limit : Nat) (before : List Moment) (moment : Moment)
    (behind : List Moment) : Prop where
  depth : moment.depth + Journal.exits (before ++ [moment]) = Journal.entries (before ++ [moment])
  within : moment.depth ≤ limit
  answered : ∀ node, moment.event = .calls node →
    ∃ next rest, behind = next :: rest ∧ next.event = .answer limit moment.depth node

def Machine.Counts (limit : Nat) (machine : Machine (Journaled Host)) : Prop :=
  ∀ before moment behind, machine.moments = before ++ moment :: behind →
    moment.Counts limit before behind

namespace Journal

variable {limit active : Nat}

theorem Sound.depth {before behind : List Moment} {moment : Moment}
    (sound : Sound limit active (before ++ moment :: behind)) :
    moment.depth + exits (before ++ [moment]) = active + entries (before ++ [moment]) := by
  induction before generalizing active with
  | nil =>
    obtain ⟨depth, -, leaves, -⟩ := sound
    obtain ⟨event, _⟩ := moment
    cases event with
    | leaves =>
      have some := leaves rfl
      simp [exits, entries, Event.isEntry, Event.isExit, Event.count] at depth ⊢
      omega
    | _ => simp_all [exits, entries, Event.isEntry, Event.isExit, Event.count]
  | cons earlier front ih =>
    obtain ⟨depth, -, leaves, -, further⟩ := sound
    have rest := ih further
    obtain ⟨event, _⟩ := earlier
    cases event with
    | leaves =>
      have some := leaves rfl
      simp [exits, entries, Event.isEntry, Event.isExit, Event.count] at depth rest ⊢
      omega
    | _ =>
      simp [exits, entries, Event.isEntry, Event.isExit, Event.count] at depth rest ⊢
      omega

theorem Sound.counts {before behind : List Moment} {moment : Moment}
    (sound : Sound limit active (before ++ moment :: behind)) :
    moment.depth ≤ limit ∧ ∀ node, moment.event = .calls node →
      ∃ next rest, behind = next :: rest ∧ next.event = .answer limit moment.depth node := by
  induction before generalizing active with
  | nil =>
    obtain ⟨depth, within, -, calls, -⟩ := sound
    refine ⟨within, fun node isCall => ?_⟩
    obtain ⟨next, isNext, answers⟩ := calls node isCall
    obtain ⟨rest, rfl⟩ := List.head?_eq_some_iff.mp (Option.mem_def.mp isNext)
    rw [isCall] at depth
    exact ⟨next, rest, rfl, depth ▸ answers⟩
  | cons earlier front ih =>
    obtain ⟨-, -, -, -, further⟩ := sound
    exact ih further

theorem Steady.counts {machine : Machine Host} {last : Machine (Journaled Host)}
    (steady : Steady limit machine.journaled last) (outside : machine.depth = 0) :
    last.Counts limit := by
  obtain ⟨-, moments, isMoments, counts⟩ := steady
  have depth : machine.journaled.depth = 0 := outside
  have all : last.moments = moments := isMoments
  rw [depth] at counts
  obtain ⟨sound, -⟩ := counts (Nat.zero_le limit)
  intro before moment behind split
  rw [← all, split] at sound
  have counted := sound.depth
  rw [Nat.zero_add] at counted
  exact ⟨counted, sound.counts.1, sound.counts.2⟩

end Journal

/-- However the evaluation of a node ends, the depth is as it was before. A run with a journal
is without it the run itself, and if it begins in no function body, then at every moment of
it the depth is the number of bodies that are active, never more than the limit; and a call
of a function that was found alive is refused exactly if that number is the limit. -/
theorem depth_counts_bodies (plain : Setup Host) (fuel : Nat) (scope : ScopeId)
    (machine : Machine Host) :
    (∀ node result after, evaluate plain fuel node scope machine = some (result, after) →
        after.depth = machine.depth) ∧
      (∀ node, evaluate plain fuel node scope machine =
        (Journal.evaluate plain fuel node scope machine.journaled).map fun ended =>
          (ended.1, ended.2.plain)) ∧
      (∀ root, runIn plain fuel root scope machine =
        (Journal.runIn plain fuel root scope machine.journaled).map fun ended =>
          (ended.1, ended.2.plain)) ∧
      (machine.depth = 0 →
        (∀ node result last, Journal.evaluate plain fuel node scope machine.journaled =
            some (result, last) → last.Counts plain.limits.maxDepth) ∧
          ∀ root result last, Journal.runIn plain fuel root scope machine.journaled =
            some (result, last) → last.Counts plain.limits.maxDepth) := by
  refine ⟨?_, ?_, ?_, fun outside => ⟨?_, ?_⟩⟩
  · intro node result after ran
    exact (level_course plain).evaluate trivial ran
  · exact fun node => Journal.evaluate_plain plain fuel node scope machine.journaled
  · exact fun root => Journal.runIn_plain plain fuel root scope machine.journaled
  · intro node result last ran
    exact (Journal.evaluate_steady plain fuel node scope _ _ _ ran).counts outside
  · intro root result last ran
    exact (Journal.runIn_steady ran).counts outside

/-- Two calls fail three bodies deep and are recovered from; the third one is too deep. -/
def failingDeep : String :=
  "func void fail(int n) \x7b if n > 0 \x7b fail(n - 1); \x7d double d = 1 / 0; \x7d try \x7b fail(2); \x7d try \x7b fail(2); \x7d fail(3);"

def threeDeep : Setup Unit := ⟨.ofList [], ⟨none, 3⟩, none⟩

theorem failingDeep_counts :
    ∃ root fault last, compile threeDeep.natives failingDeep = .ok root ∧
      Journal.runIn threeDeep 40 root 0 (Machine.ready .withRoot ()).journaled =
        some (.error fault, last) ∧
      fault.cause = .fatal (.callDepthLimit 3) ∧ Journal.entries last.moments = 9 ∧
      (Machine.ready .withRoot ()).depth = 0 ∧ last.Counts 3 := by
  have checked : (compile threeDeep.natives failingDeep).toOption.any (fun root =>
      (Journal.runIn threeDeep 40 root 0 (Machine.ready .withRoot ()).journaled).any fun ended =>
        Journal.entries ended.2.moments = 9 &&
          (fault? ended.1).any fun fault => fault.cause = .fatal (.callDepthLimit 3)) = true := by
    decide +kernel
  obtain ⟨root, compiled, checked⟩ := exists_compiled checked
  obtain ⟨⟨result, last⟩, ran, checked⟩ := (Option.any_eq_true _ _).mp checked
  obtain ⟨entries, checked⟩ := Bool.and_eq_true_iff.mp checked
  obtain ⟨fault, failed, checked⟩ := (Option.any_eq_true _ _).mp checked
  obtain rfl := error_of_fault? failed
  have outside : (Machine.ready .withRoot ()).depth = 0 := rfl
  exact ⟨root, fault, last, compiled, ran, of_decide_eq_true checked, of_decide_eq_true entries,
    outside, ((depth_counts_bodies threeDeep 40 0 (.ready .withRoot ())).2.2.2 outside).2 root _ _ ran⟩

end RobotScript
