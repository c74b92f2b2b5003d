import RobotScript.Proofs.Reading.Outcomes
import RobotScript.Proofs.Relating.Mirror
import RobotScript.Simulation

/-! # Turns are isolated

The natives of a simulation see the turn and add lines to those that were printed. Then a
run behind earlier lines is the run by itself, with these lines before its own: nothing else
is left of the turns before, whether they were completed or failed half way. -/
set_option autoImplicit false

namespace RobotScript

open Evaluation

namespace Simulation

def behind (host : Simulation) (earlier : List String) : Simulation :=
  { host with printed := host.printed ++ earlier }

@[simp] theorem lines_behind (host : Simulation) (earlier : List String) :
    (host.behind earlier).lines = earlier.reverse ++ host.lines := List.reverse_append

theorem eq_of_lines {one two : Simulation} (turn : one.turn = two.turn)
    (lines : one.lines = two.lines) : one = two := by
  obtain ⟨_, _⟩ := one
  obtain ⟨_, _⟩ := two
  obtain rfl := List.reverse_inj.mp lines
  exact congrArg (Simulation.mk · _) turn

end Simulation

/-- The native reads nothing of the host but the turn, and does nothing but print lines. -/
structure Native.OnlyPrints (native : Native Simulation) : Prop where
  result : ∀ arguments host, (native.run arguments host).1 = (native.run arguments host.flushed).1
  turn : ∀ arguments host, (native.run arguments host).2.turn = host.turn
  lines : ∀ arguments host, (native.run arguments host).2.lines =
    host.lines ++ (native.run arguments host.flushed).2.lines

theorem Native.OnlyPrints.run_behind {native : Native Simulation} (prints : native.OnlyPrints)
    (arguments : List Value) (host : Simulation) (earlier : List String) :
    native.run arguments (host.behind earlier) =
      ((native.run arguments host).1, (native.run arguments host).2.behind earlier) := by
  refine Prod.ext ?_ (Simulation.eq_of_lines ?_ ?_)
  · exact (prints.result arguments _).trans (prints.result arguments host).symm
  · exact (prints.turn arguments _).trans (prints.turn arguments host).symm
  · have same : (host.behind earlier).flushed = host.flushed := rfl
    rw [prints.lines, same, Simulation.lines_behind, Simulation.lines_behind,
      prints.lines arguments host, List.append_assoc]

theorem Native.print_onlyPrints : (Native.print Simulation.write).OnlyPrints where
  result _ _ := rfl
  turn _ _ := rfl
  lines _ _ := List.reverse_cons

theorem Native.turn_onlyPrints : (Native.turn Simulation.turn).OnlyPrints where
  result _ _ := rfl
  turn _ _ := rfl
  lines _ _ := (List.append_nil _).symm

theorem Simulation.natives_onlyPrint (name : String) (native : Native Simulation)
    (found : Simulation.natives.find? name = some native) : native.OnlyPrints := by
  have entries : Simulation.natives.entries =
      [("print", .print Simulation.write), ("turn", .turn Simulation.turn)] := rfl
  rw [Bindings.find?, entries, Bindings.findIn] at found
  split at found
  · cases found
    exact Native.print_onlyPrints
  · rw [Bindings.findIn] at found
    split at found
    · cases found
      exact Native.turn_onlyPrints
    · cases found

/-! ## A run behind earlier lines -/

def Behind (earlier : List String) : Likeness Simulation Simulation := fun alone later =>
  later = (alone.1, alone.2.behind earlier)

variable {natives : NativeTable Simulation} {limits : Limits}

theorem Behind.mirroring
    (prints : ∀ name native, natives.find? name = some native → native.OnlyPrints)
    (earlier : List String) :
    Mirroring (Behind earlier) ⟨natives, limits, none⟩ ⟨natives, limits, none⟩ where
  depth := rfl
  natives := by
    intro name
    cases found : natives.find? name with
    | none => exact .none
    | some native =>
      refine .some ⟨rfl, ?_⟩
      rintro arguments steps host _ _ ⟨⟩
      rw [(prints name native found).run_behind]
      exact ⟨rfl, rfl⟩
  tick := by
    intro span
    refine .tick ?_ ?_ rfl span fun number => .pure ()
    · rintro one _ ⟨⟩
      rfl
    · rintro one _ ⟨⟩
      rfl

def enterTurn (host : Simulation) (turn : Nat) : Simulation := host.enterTurn turn

/-- A turn that is played by itself: nothing was printed before. -/
def playAlone (natives : NativeTable Simulation) (limits : Limits) (fuel : Nat) (root : Node)
    (turn : Nat) : Option (Except Fault Value × Simulation) :=
  playTurn ⟨natives, limits, none⟩ fuel root enterTurn turn .fresh

/-- A turn is played behind earlier lines as by itself. -/
theorem playTurn_behind
    (prints : ∀ name native, natives.find? name = some native → native.OnlyPrints) (fuel : Nat)
    (root : Node) (turn : Nat) (host : Simulation) :
    playTurn ⟨natives, limits, none⟩ fuel root enterTurn turn host =
      (playAlone natives limits fuel root turn).map fun alone =>
        (alone.1, alone.2.behind host.printed) := by
  have alike : (Machine.ready Store.withRoot (enterTurn .fresh turn)).Alike
      (Behind host.printed) (.ready Store.withRoot (enterTurn host turn)) := ⟨rfl, rfl, rfl⟩
  unfold playAlone playTurn runFresh
  rcases (Behind.mirroring prints host.printed).ending fuel root 0 alike with
    ⟨ran, shown⟩ | ⟨result, after, last, ran, shown, still⟩
  · rw [ran, shown]
    rfl
  · rw [ran, shown]
    exact congrArg (fun outside => some (result, outside.2)) still.outside

/-! ## Turn after turn -/

def TurnSummary.counting (summary : TurnSummary)
    (runs : List (Except Fault Value × Simulation)) : TurnSummary :=
  runs.foldl (fun before run => before.count run.1) summary

/-- The host behind these runs: what each of them printed comes behind what was before. -/
def Simulation.followed (host : Simulation) (runs : List (Except Fault Value × Simulation)) :
    Simulation :=
  runs.foldl (fun before run => run.2.behind before.printed) host

theorem Simulation.lines_followed (host : Simulation)
    (runs : List (Except Fault Value × Simulation)) :
    (host.followed runs).lines = host.lines ++ runs.flatMap (·.2.lines) := by
  induction runs generalizing host with
  | nil => exact (List.append_nil _).symm
  | cons run rest ih =>
    refine (ih (run.2.behind host.printed)).trans ?_
    rw [lines_behind, List.flatMap_cons, ← List.append_assoc]
    rfl

theorem TurnSummary.counting_eq (summary : TurnSummary)
    (runs : List (Except Fault Value × Simulation)) :
    summary.counting runs = ⟨summary.compiled, summary.completed + runs.countP (·.1.isOk),
      summary.failed + runs.countP (!·.1.isOk)⟩ := by
  induction runs generalizing summary with
  | nil => rfl
  | cons run rest ih =>
    refine (ih (summary.count run.1)).trans ?_
    rw [List.countP_cons, List.countP_cons]
    obtain ⟨fault | value, host⟩ := run
    · exact congrArg (TurnSummary.mk summary.compiled _) (Nat.add_right_comm summary.failed 1 _)
    · exact congrArg (TurnSummary.mk summary.compiled · _) (Nat.add_right_comm summary.completed 1 _)

theorem playFrom_eq
    (prints : ∀ name native, natives.find? name = some native → native.OnlyPrints) (fuel : Nat)
    (root : Node) (left turn : Nat) (summary : TurnSummary) (host : Simulation) :
    playFrom ⟨natives, limits, none⟩ fuel root enterTurn left turn summary host =
      ((List.range' turn left).mapM (playAlone natives limits fuel root)).map fun alone =>
        (summary.counting alone, host.followed alone) := by
  induction left generalizing turn summary host with
  | zero => rfl
  | succ left ih =>
    rw [playFrom, playTurn_behind prints, List.range'_succ, List.mapM_cons]
    cases playAlone natives limits fuel root turn with
    | none => rfl
    | some alone =>
      dsimp only [Option.map_some]
      rw [ih]
      cases (List.range' (turn + 1) left).mapM (playAlone natives limits fuel root) <;> rfl

theorem length_of_mapM {α β : Type} {play : α → Option β} {list : List α} {played : List β}
    (each : list.mapM play = some played) : played.length = list.length := by
  induction list generalizing played with
  | nil =>
    cases each
    rfl
  | cons first rest ih =>
    rw [List.mapM_cons] at each
    obtain ⟨one, -, each⟩ := Option.bind_eq_some_iff.mp each
    obtain ⟨others, played, same⟩ := Option.bind_eq_some_iff.mp each
    cases same
    exact congrArg (· + 1) (ih played)

/-- Turns are isolated. A script that does not compile prints nothing and counts nothing. Of one
that compiles, what is printed in a number of turns is what each turn prints when it is played by
itself, in order, and each is counted as it then ends; the turns come to no end only if one of
them does not. -/
theorem turns_isolated (natives : NativeTable Simulation)
    (prints : ∀ name native, natives.find? name = some native → native.OnlyPrints)
    (limits : Limits) (fuel : Nat) (source : String) (turns : Nat) (host : Simulation) :
    (∀ fault, compile natives source = .error fault →
      playTurns ⟨natives, limits, none⟩ fuel source turns enterTurn host =
        some (⟨false, 0, 0⟩, host)) ∧
    ∀ root, compile natives source = .ok root →
      match (List.range' 1 turns).mapM (playAlone natives limits fuel root) with
      | none => playTurns ⟨natives, limits, none⟩ fuel source turns enterTurn host = none
      | some alone =>
        ∃ summary after,
          playTurns ⟨natives, limits, none⟩ fuel source turns enterTurn host =
            some (summary, after) ∧
          after.lines = host.lines ++ alone.flatMap (·.2.lines) ∧
          summary.compiled = true ∧
          summary.completed = alone.countP (·.1.isOk) ∧
          summary.failed = alone.countP (!·.1.isOk) ∧
          summary.completed + summary.failed = turns := by
  refine ⟨fun fault failed => ?_, fun root compiled => ?_⟩
  · rw [playTurns, failed]
    rfl
  · rw [playTurns, compiled]
    dsimp only
    rw [playFrom_eq prints]
    cases each : (List.range' 1 turns).mapM (playAlone natives limits fuel root) with
    | none => rfl
    | some alone =>
      have length : alone.length = turns := (length_of_mapM each).trans List.length_range'
      have counted := TurnSummary.counting_eq .start alone
      refine ⟨_, _, rfl, host.lines_followed alone, ?_⟩
      rw [counted]
      refine ⟨rfl, Nat.zero_add _, Nat.zero_add _, ?_⟩
      have all := List.length_eq_countP_add_countP (fun run => run.1.isOk) (l := alone)
      simp only [Bool.not_eq_true, Bool.decide_eq_false] at all
      change 0 + _ + (0 + _) = turns
      rw [← length, all, Nat.zero_add, Nat.zero_add]

/-- The second turn fails, after it has printed a line. -/
def indexing : String := "int[] xs = [10, 20]; print(turn()); print(xs[turn()]);"

theorem indexing_isolated :
    (∀ name native, Simulation.natives.find? name = some native → native.OnlyPrints) ∧
      ∃ root summary after, compile Simulation.natives indexing = .ok root ∧
        playTurns ⟨Simulation.natives, .standard, none⟩ 20 indexing 2 enterTurn ⟨7, ["before"]⟩ =
          some (summary, after) ∧
        after.lines = ["before", "1", "20", "2"] ∧ summary = ⟨true, 1, 1⟩ := by
  have checked : ((compile Simulation.natives indexing).toOption.any fun root =>
      ((List.range' 1 2).mapM (playAlone Simulation.natives .standard 20 root)).any fun alone =>
        decide (alone.flatMap (·.2.lines) = ["1", "20", "2"] ∧
          alone.countP (·.1.isOk) = 1 ∧ alone.countP (!·.1.isOk) = 1)) = true := by decide +kernel
  obtain ⟨root, compiled, checked⟩ := exists_compiled checked
  obtain ⟨alone, each, facts⟩ := (Option.any_eq_true _ _).mp checked
  obtain ⟨printed, completed, failed⟩ := of_decide_eq_true facts
  have isolated := (turns_isolated Simulation.natives Simulation.natives_onlyPrint .standard 20
    indexing 2 ⟨7, ["before"]⟩).2 root compiled
  rw [each] at isolated
  obtain ⟨⟨_, _, _⟩, after, played, lines, rfl, rfl, rfl, -⟩ := isolated
  refine ⟨Simulation.natives_onlyPrint, root, _, after, compiled, played, ?_, ?_⟩
  · rw [lines, printed]
    rfl
  · rw [completed, failed]

end RobotScript
