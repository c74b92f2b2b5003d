import RobotScript.Proofs.Limiting.Logs

/-! # Limits only cut runs short

A limit of steps or of depth changes nothing about a script that it does not end, and
what it ends it ends on the way that the script would have gone on. The watch is
asked at every step, in order, and a watch that refuses a step ends a script as a
limit just before that step does. -/
set_option autoImplicit false

namespace RobotScript

open Evaluation

variable {Host : Type}

/-! ## A watch that refuses a step -/

/-- The watch ended it, where a limit of steps would have done so. -/
def FatalCause.interrupting : FatalCause → FatalCause
  | .stepLimit _ => .interrupted
  | cause => cause

/-- A limit of steps ended it, where the watch would have done so. -/
def FatalCause.limiting (limit : Nat) : FatalCause → FatalCause
  | .interrupted => .stepLimit limit
  | cause => cause

theorem keepsOwn_interrupting : KeepsOwn FatalCause.interrupting where
  own := by
    rintro (_ | _) own <;> first | rfl | cases own
  depthLimit := fun _ => rfl

theorem keepsOwn_limiting (limit : Nat) : KeepsOwn (FatalCause.limiting limit) where
  own := by
    rintro (_ | _) own <;> first | rfl | cases own
  depthLimit := fun _ => rfl

namespace Setup

def stoppedAt (setup : Setup Host) (step : Nat) : Setup Host :=
  (setup.withSteps none).withWatch (some fun number host => (decide (number < step), host))

def limitedTo (setup : Setup Host) (steps : Nat) : Setup Host :=
  (setup.withSteps (some steps)).withWatch none

variable {setup : Setup Host} {step : Nat}

theorem tick_limitedTo (positive : 1 ≤ step) (span : Span) (machine : Machine Host) :
    tick (setup.limitedTo (step - 1)) span machine =
      if machine.steps + 1 < step then some (.ok (), machine.counted)
      else some (.error (.fault ⟨.fatal (.stepLimit (step - 1)), span⟩), machine.counted) := by
  by_cases within : machine.steps + 1 < step
  · rw [if_pos within, tick_within span]
    · rfl
    · rintro limit ⟨⟩
      exact Nat.le_sub_one_of_lt within
  · have isLimit : (setup.limitedTo (step - 1)).limits.maxSteps = some (step - 1) := rfl
    rw [if_neg within]
    exact tick_past isLimit span (Nat.sub_one_lt_of_le positive (Nat.le_of_not_lt within))

theorem tick_stoppedAt (span : Span) (machine : Machine Host) :
    tick (setup.stoppedAt step) span machine =
      if machine.steps + 1 < step then some (.ok (), machine.counted)
      else some (.error (.fault ⟨.fatal .interrupted, span⟩), machine.counted) := by
  have unlimited : ∀ limit, (setup.stoppedAt step).limits.maxSteps = some limit →
      machine.steps + 1 ≤ limit := by
    rintro limit ⟨⟩
  have asked : Run.onHost (fun host : Host => (decide (machine.steps + 1 < step), host))
      machine.counted = some (.ok (decide (machine.steps + 1 < step)), machine.counted) := rfl
  rw [tick_within span unlimited]
  refine (Run.bind_of_ok asked).trans ?_
  by_cases within : machine.steps + 1 < step
  · simp only [within, decide_true, if_true]
    rfl
  · simp only [within, decide_false, Bool.false_eq_true, if_false]
    rfl

theorem stoppedAt_renaming (setup : Setup Host) (positive : 1 ≤ step) :
    Renaming (setup.limitedTo (step - 1)) (setup.stoppedAt step)
      (Exit.mapFatal FatalCause.interrupting) := by
  refine .ofCauses rfl rfl keepsOwn_interrupting fun span machine result after ran => ?_
  rw [tick_limitedTo positive] at ran
  rw [tick_stoppedAt]
  split at ran
  next within =>
    cases ran
    exact if_pos within
  next past =>
    cases ran
    exact if_neg past

theorem limitedTo_renaming (setup : Setup Host) (positive : 1 ≤ step) :
    Renaming (setup.stoppedAt step) (setup.limitedTo (step - 1))
      (Exit.mapFatal (FatalCause.limiting (step - 1))) := by
  refine .ofCauses rfl rfl (keepsOwn_limiting _) fun span machine result after ran => ?_
  rw [tick_stoppedAt] at ran
  rw [tick_limitedTo positive]
  split at ran
  next within =>
    cases ran
    exact if_pos within
  next past =>
    cases ran
    exact if_neg past

/-- A watch that refuses a step ends a script where a limit just before it does. -/
theorem runIn_stoppedAt (setup : Setup Host) (positive : 1 ≤ step) (fuel : Nat) (root : Node)
    (scope : ScopeId) (machine : Machine Host) :
    runIn (setup.stoppedAt step) fuel root scope machine =
      (runIn (setup.limitedTo (step - 1)) fuel root scope machine).map fun ended =>
        (ended.1.mapError (Fault.mapFatal FatalCause.interrupting), ended.2) := by
  cases limited : runIn (setup.limitedTo (step - 1)) fuel root scope machine with
  | some ended => exact (setup.stoppedAt_renaming positive).runIn (Nat.le_refl fuel) limited
  | none =>
    cases stopped : runIn (setup.stoppedAt step) fuel root scope machine with
    | none => rfl
    | some ended =>
      have back := (setup.limitedTo_renaming positive).runIn (Nat.le_refl fuel) stopped
      rw [limited] at back
      cases back

end Setup

/-! ## What limits do -/

/-- Under the first setup scripts run as under the second one unless they are ended
for this cause; and if they are, the natives that they called are the first ones that
they call under the second. -/
structure OnlyCuts (short long : Setup Host) (cause : FatalCause) : Prop where
  same : ∀ fuel root scope store host,
    ¬ CutFor cause (runIn short fuel root scope (.ready store host)) →
    runIn long fuel root scope (.ready store host) =
      runIn short fuel root scope (.ready store host)
  calls : ∀ fuel root scope store host span after,
    runIn short.logging fuel root scope (.ready store (host, [])) =
      some (.error ⟨.fatal cause, span⟩, after) →
    ∀ most result later,
      runIn long.logging most root scope (.ready store (host, [])) = some (result, later) →
      after.host.2 <+: later.host.2

theorem onlyCuts_bySteps (setup : Setup Host) {limit : Nat} {longer : Option Nat}
    (more : ∀ most, longer = some most → limit ≤ most) :
    OnlyCuts (setup.withSteps (some limit)) (setup.withSteps longer) (.stepLimit limit) where
  same := by
    intro fuel root scope store host uncut
    have leading : Leading (fun _ _ => True) (setup.withSteps longer) := .anything _
    exact (Cutting.bySteps_sound leading more).runIn_same (.ready store host) (Nat.zero_le limit) uncut
  calls := by
    intro fuel root scope store host span after short most result later long
    have sound : Cutting.Sound _ (setup.logging.withSteps (some limit))
        (setup.logging.withSteps longer) :=
      Cutting.bySteps_sound (setup.withSteps longer).logging_leads more
    exact sound.runIn_ahead (.ready store (host, [])) (Nat.zero_le limit) short long

theorem onlyCuts_byDepth (setup : Setup Host) {limit deeper : Nat} (more : limit ≤ deeper) :
    OnlyCuts (setup.withDepth limit) (setup.withDepth deeper) (.callDepthLimit limit) where
  same := by
    intro fuel root scope store host uncut
    have leading : Leading (fun _ _ => True) (setup.withDepth deeper) := .anything _
    exact (Cutting.byDepth_sound leading more).runIn_same (.ready store host) trivial uncut
  calls := by
    intro fuel root scope store host span after short most result later long
    have sound : Cutting.Sound _ (setup.logging.withDepth limit)
        (setup.logging.withDepth deeper) :=
      Cutting.byDepth_sound (setup.withDepth deeper).logging_leads more
    exact sound.runIn_ahead (.ready store (host, [])) trivial short long

/-- The numbers with which the watch was asked: one, two, three and so on. -/
def AskedInOrder (limit : Option Nat) (result : Except Fault Value)
    (after : Machine (Host × List Nat)) : Prop :=
  (∀ most span, limit = some most → result = .error ⟨.fatal (.stepLimit most), span⟩ →
    after.host.2 = List.range' 1 (after.steps - 1)) ∧
  ((∀ most span, limit = some most → result ≠ .error ⟨.fatal (.stepLimit most), span⟩) →
    after.host.2 = List.range' 1 after.steps)

theorem numbering_inOrder (setup : Setup Host) (watch : Nat → Host → Bool × Host) {fuel : Nat}
    {root : Node} {scope : ScopeId} {store : Store} {host : Host} {result : Except Fault Value}
    {after : Machine (Host × List Nat)}
    (run : runIn (setup.numbering watch) fuel root scope (.ready store (host, [])) =
      some (result, after)) : AskedInOrder setup.limits.maxSteps result after := by
  have sound := Cutting.byNumber_sound setup watch
  have isCause {most : Nat} (limited : setup.limits.maxSteps = some most) :
      (Cutting.byNumber setup.limits.maxSteps : Cutting (Host × List Nat)).cause =
        .stepLimit most := by
    rw [limited]
    rfl
  constructor
  · rintro most span limited rfl
    rw [← isCause limited] at run
    exact (sound.runIn_cut (.ready store (host, [])) rfl run).1.2
  · intro uncut
    refine sound.runIn_keeps (.ready store (host, [])) rfl run ?_
    rintro span rfl
    obtain ⟨⟨most, limited⟩, -⟩ :=
      (sound.runIn_cut (.ready store (host, [])) rfl run).1
    exact uncut most span limited (by rw [isCause limited])

/-- Limits only cut runs short. With a higher limit of steps, or none, a script ends as
it did unless the limit ended it, and then that was one step behind the limit; the same
goes for limits of depth. The natives called before the cut are the first that the
longer run calls. A watch is asked at every step within the limit, in order, and one
that refuses a step ends a script just as a limit of one step less does. -/
theorem limits_onlyCut (setup : Setup Host) :
    (∀ limit longer, (∀ most, longer = some most → limit ≤ most) →
      OnlyCuts (setup.withSteps (some limit)) (setup.withSteps longer) (.stepLimit limit) ∧
      ∀ fuel root scope store host span after,
        runIn (setup.withSteps (some limit)) fuel root scope (.ready store host) =
          some (.error ⟨.fatal (.stepLimit limit), span⟩, after) → after.steps = limit + 1) ∧
    (∀ limit deeper, limit ≤ deeper →
      OnlyCuts (setup.withDepth limit) (setup.withDepth deeper) (.callDepthLimit limit)) ∧
    (∀ fuel root scope store host,
      runIn setup fuel root scope (.ready store host) =
        (runIn setup.logging fuel root scope (.ready store (host, []))).map fun ended =>
          (ended.1, ended.2.plain)) ∧
    (∀ watch fuel root scope store host,
      runIn (setup.withWatch (some watch)) fuel root scope (.ready store host) =
        (runIn (setup.numbering watch) fuel root scope (.ready store (host, []))).map
          (fun ended => (ended.1, ended.2.plain)) ∧
      ∀ result after,
        runIn (setup.numbering watch) fuel root scope (.ready store (host, [])) =
          some (result, after) → AskedInOrder setup.limits.maxSteps result after) ∧
    ∀ step, 1 ≤ step → ∀ fuel root scope store host,
      runIn (setup.stoppedAt step) fuel root scope (.ready store host) =
        (runIn (setup.limitedTo (step - 1)) fuel root scope (.ready store host)).map fun ended =>
          (ended.1.mapError (Fault.mapFatal FatalCause.interrupting), ended.2) := by
  refine ⟨fun limit longer more => ⟨onlyCuts_bySteps setup more, ?_⟩,
    fun limit deeper more => onlyCuts_byDepth setup more, ?_, ?_, ?_⟩
  · intro fuel root scope store host span after run
    have sound := Cutting.bySteps_sound (.anything (setup.withSteps longer)) more
    exact (sound.runIn_cut (.ready store host) (Nat.zero_le limit) run).1
  · intro fuel root scope store host
    exact setup.logging_mirrors.runIn_plain fuel root scope (.ready store (host, []))
  · intro watch fuel root scope store host
    refine ⟨?_, fun result after run => numbering_inOrder setup watch run⟩
    exact (setup.numbering_mirrors watch).runIn_plain fuel root scope (.ready store (host, []))
  · intro step positive fuel root scope store host
    exact setup.runIn_stoppedAt positive fuel root scope (.ready store host)

def tallying : Setup Nat :=
  ⟨.ofList [("count", ⟨⟨.exactly [], .void⟩, fun _ number => (.ok .void, number + 1)⟩)], .standard,
    none⟩

def countTwice : Node :=
  .statement (.block [.statement (.call "count" []) default, .statement (.call "count" []) default])
    default

/-- One step is one call of the two, and two steps are enough. -/
theorem countTwice_cut :
    (∃ span after result later,
      runIn (tallying.withSteps (some 1)).logging 9 countTwice 0 (.ready .withRoot (0, [])) =
        some (.error ⟨.fatal (.stepLimit 1), span⟩, after) ∧
      runIn (tallying.withSteps none).logging 9 countTwice 0 (.ready .withRoot (0, [])) =
        some (result, later) ∧ after.host.2 <+: later.host.2) ∧
    ¬ CutFor (.stepLimit 2)
      (runIn (tallying.withSteps (some 2)) 9 countTwice 0 (.ready .withRoot 0)) ∧
    runIn (tallying.withSteps none) 9 countTwice 0 (.ready .withRoot 0) =
      runIn (tallying.withSteps (some 2)) 9 countTwice 0 (.ready .withRoot 0) := by
  have limits := (limits_onlyCut tallying).1
  constructor
  · have calls := (limits 1 none (by rintro _ ⟨⟩)).1.calls 9 countTwice 0 .withRoot 0
    exact ⟨_, _, _, _, rfl, rfl, calls _ _ rfl 9 _ _ rfl⟩
  · have uncut : ¬ CutFor (.stepLimit 2)
        (runIn (tallying.withSteps (some 2)) 9 countTwice 0 (.ready .withRoot 0)) := by
      rintro ⟨span, after, ⟨⟩⟩
    exact ⟨uncut, (limits 2 none (by rintro _ ⟨⟩)).1.same 9 countTwice 0 .withRoot 0 uncut⟩

end RobotScript
