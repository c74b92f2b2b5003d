import RobotScript.Proofs.Relating.Course

/-! # Runs that are cut short

Two evaluators go together until a limit cuts the first one short; from there the
second may go on. A cut is fatal, so no `try` branch takes it, and the first run
ends with it. -/
set_option autoImplicit false

namespace RobotScript

open Evaluation

variable {Host : Type}

def Evaluation.CutFor (cause : FatalCause) (ending : Ending Host) : Prop :=
  ∃ span after, ending = some (.error ⟨.fatal cause, span⟩, after)

/-- What steps and host go along in every run under a setup. -/
structure Leading (leads : Nat × Host → Nat × Host → Prop) (setup : Setup Host) : Prop where
  refl : ∀ outside, leads outside outside
  trans : ∀ first second third, leads first second → leads second third → leads first third
  counted : ∀ steps host, leads (steps, host) (steps + 1, host)
  calls : ∀ name native, setup.natives.find? name = some native → ∀ arguments steps host,
    leads (steps, host) (steps, (native.run arguments host).2)
  watches : ∀ watch, setup.watch = some watch → ∀ number steps host,
    leads (steps, host) (steps, (watch number host).2)

theorem Leading.anything (setup : Setup Host) : Leading (fun _ _ => True) setup :=
  ⟨fun _ => trivial, fun _ _ _ _ _ => trivial, fun _ _ => trivial, fun _ _ _ _ _ _ => trivial,
    fun _ _ _ _ _ => trivial⟩

theorem Leading.course {leads : Nat × Host → Nat × Host → Prop} {setup : Setup Host}
    (leading : Leading leads setup) :
    Course setup (fun before after => leads before.outside after.outside) (fun _ _ => True)
      (fun _ => True) where
  parts := fun _ _ _ _ _ => trivial
  fresh := fun _ _ _ => trivial
  refl := fun machine => leading.refl machine.outside
  trans := fun first second third => leading.trans first.outside second.outside third.outside
  counted := fun machine => leading.counted machine.steps machine.host
  watched := fun watch isWatch machine number =>
    leading.watches watch isWatch number machine.steps machine.host
  called := fun name native found machine arguments =>
    leading.calls name native found arguments machine.steps machine.host
  deeper := fun _ _ leads => leads
  inScope := fun _ _ _ _ leads => leads trivial
  assigned := fun machine _ _ _ _ _ => leading.refl machine.outside
  defined := fun machine _ _ _ _ _ _ _ _ => leading.refl machine.outside
  functionDefined := fun machine _ _ _ _ _ => leading.refl machine.outside

/-- What a cut is: its cause, what steps and host are like as long as there was
none, what they are like behind one, and what they go along in every run. -/
structure Cutting (Host : Type) where
  cause : FatalCause
  keeps : Nat → Host → Prop
  final : Nat → Host → Prop
  leads : Nat × Host → Nat × Host → Prop

namespace Cutting

variable {cutting : Cutting Host} {α β : Type}

def cuts (cutting : Cutting Host) (exit : Exit) : Prop :=
  ∃ span, exit = .fault ⟨.fatal cutting.cause, span⟩

def along (cutting : Cutting Host) (before after : Machine Host) : Prop :=
  cutting.leads before.outside after.outside

structure Together (cutting : Cutting Host) (long : Run Host α) (machine : Machine Host)
    (result : Except Exit α) (after : Machine Host) : Prop where
  keeps : cutting.keeps after.steps after.host
  uncut : ∀ exit, result = .error exit → ¬ cutting.cuts exit
  same : long machine = some (result, after)

/-- The short run was cut; whatever the long one comes to, it comes to later. -/
structure Short (cutting : Cutting Host) (long : Run Host β) (machine : Machine Host)
    (result : Except Exit α) (after : Machine Host) : Prop where
  cut : ∃ exit, result = .error exit ∧ cutting.cuts exit
  final : cutting.final after.steps after.host
  ahead : ∀ other later, long machine = some (other, later) → cutting.along after later

/-- How the short run ended, and what that says of the long one. -/
def Ends (cutting : Cutting Host) (long : Run Host α) (machine : Machine Host) :
    Outcome Host α → Prop
  | none => long machine = none
  | some (result, after) =>
    cutting.Together long machine result after ∨ cutting.Short long machine result after

theorem Ends.of_eq {long further : Run Host α} {machine between : Machine Host}
    {outcome : Outcome Host α} (same : long machine = further between)
    (ends : cutting.Ends further between outcome) : cutting.Ends long machine outcome := by
  rcases outcome with _ | ⟨result, after⟩
  · exact same.trans ends
  · rcases ends with together | cut
    · exact .inl ⟨together.keeps, together.uncut, same.trans together.same⟩
    · exact .inr ⟨cut.cut, cut.final, fun other later ran =>
        cut.ahead other later (same.symm.trans ran)⟩

/-- The long run goes on where the short one is cut. -/
structure Extends (cutting : Cutting Host) (α : Type) (short long : Run Host α) : Prop where
  moves : Moves cutting.along α long long
  ends : ∀ machine : Machine Host, cutting.keeps machine.steps machine.host →
    cutting.Ends long machine (short machine)

/-- What is asked of two setups so that one goes on where the other is cut. -/
structure Sound (cutting : Cutting Host) (setup other : Setup Host) : Prop where
  leading : Leading cutting.leads other
  imposed : cutting.cause.isImposed = true
  natives : setup.natives = other.natives
  keeps : ∀ name native, other.natives.find? name = some native → ∀ arguments steps host,
    cutting.keeps steps host → cutting.keeps steps (native.run arguments host).2
  tick : ∀ span (machine : Machine Host), cutting.keeps machine.steps machine.host →
    cutting.Ends (tick other span) machine (tick setup span machine)
  admitted : ∀ span (next last : Run Host Value), cutting.Extends Value next last →
    ∀ machine : Machine Host, cutting.keeps machine.steps machine.host →
      cutting.Ends (admitted other span last) machine (admitted setup span next machine)

namespace Sound

variable {setup other : Setup Host}

theorem course (sound : cutting.Sound setup other) :
    Course other cutting.along (fun _ _ => True) (fun _ => True) := sound.leading.course

theorem not_own (sound : cutting.Sound setup other) {exit : Exit} (isCut : cutting.cuts exit) :
    ¬ exit.IsOwn := by
  obtain ⟨span, rfl⟩ := isCut
  intro own
  change cutting.cause.isImposed = false at own
  rw [sound.imposed] at own
  cases own

theorem pure (sound : cutting.Sound setup other) (value : α) :
    cutting.Extends α (Pure.pure value) (Pure.pure value) := by
  refine ⟨sound.course.congruence.pure value, fun machine keeps => .inl ⟨keeps, ?_, rfl⟩⟩
  rintro _ ⟨⟩

theorem stop (sound : cutting.Sound setup other) {exit : Exit} (own : exit.IsOwn) :
    cutting.Extends α (Run.stop exit) (Run.stop exit) := by
  refine ⟨sound.course.congruence.stop exit own, fun machine keeps => .inl ⟨keeps, ?_, rfl⟩⟩
  rintro _ ⟨⟩ cut
  exact sound.not_own cut own

theorem bind (sound : cutting.Sound setup other) {first second : Run Host α}
    {next last : α → Run Host β} (one : cutting.Extends α first second)
    (two : ∀ value, cutting.Extends β (next value) (last value)) :
    cutting.Extends β (first >>= next) (second >>= last) := by
  have moves := fun value => (two value).moves
  refine ⟨sound.course.congruence.bind one.moves moves, fun machine keeps => ?_⟩
  have ends := one.ends machine keeps
  rcases ended : first machine with _ | ⟨exit | value, between⟩
  · rw [ended] at ends
    rw [Run.bind_of_none ended]
    exact Run.bind_of_none ends
  · -- The first run ends early, and so does the whole.
    rw [ended] at ends
    rw [Run.bind_of_error ended]
    rcases ends with same | cut
    · refine .inl ⟨same.keeps, ?_, Run.bind_of_error same.same⟩
      rintro _ ⟨⟩
      exact same.uncut exit rfl
    · obtain ⟨_, ⟨⟩, isCut⟩ := cut.cut
      refine .inr ⟨⟨exit, rfl, isCut⟩, cut.final, fun answer later ran => ?_⟩
      rcases Run.bind_ended ran with ⟨_, rfl, endedLong⟩ | ⟨value, middle, endedLong, further⟩
      · exact cut.ahead _ _ endedLong
      · exact sound.leading.trans _ _ _ (cut.ahead _ _ endedLong)
          (moves value middle answer later further)
  · rw [ended] at ends
    rw [Run.bind_of_ok ended]
    rcases ends with same | cut
    · have further := (two value).ends between same.keeps
      have unfolded : (second >>= last) machine = last value between := Run.bind_of_ok same.same
      exact Ends.of_eq unfolded further
    · obtain ⟨_, ⟨⟩, _⟩ := cut.cut

theorem recover (sound : cutting.Sound setup other) {body shown : Run Host α}
    {next last : Except Exit α → Run Host β} (runs : cutting.Extends α body shown)
    (handsOn : HandsOn next) (handsOnToo : HandsOn last)
    (handles : ∀ result, Caught result → cutting.Extends β (next result) (last result)) :
    cutting.Extends β (body.settle >>= next) (shown.settle >>= last) := by
  have moves := sound.course.congruence.recover runs.moves handsOnToo handsOnToo
    fun result caught => (handles result caught).moves
  refine ⟨moves, fun machine keeps => ?_⟩
  have ends := runs.ends machine keeps
  rcases ended : body machine with _ | ⟨inside, between⟩
  · rw [ended] at ends
    rw [Run.settle_bind_of_none ended]
    exact Run.settle_bind_of_none ends
  rw [ended] at ends
  rw [Run.settle_bind ended]
  rcases ends with same | cut
  · have unfolded : (shown.settle >>= last) machine = last inside between :=
      Run.settle_bind same.same
    rcases caught_or_fatal inside with caught | ⟨reason, rfl, fatal⟩
    · exact Ends.of_eq unfolded ((handles inside caught).ends between same.keeps)
    · rw [handsOn reason fatal]
      refine .inl ⟨same.keeps, ?_, ?_⟩
      · rintro _ ⟨⟩
        exact same.uncut _ rfl
      · rw [unfolded, handsOnToo reason fatal]
        rfl
  · obtain ⟨exit, rfl, isCut⟩ := cut.cut
    obtain ⟨reason, rfl, fatal⟩ := Exit.fatal_of_not_isOwn (sound.not_own isCut)
    rw [handsOn reason fatal]
    refine .inr ⟨⟨_, rfl, isCut⟩, cut.final, fun answer later ran => ?_⟩
    obtain ⟨behind, middle, endedLong, ranLong⟩ := Run.settle_bind_ended ran
    have settled : Moves cutting.along β (last behind) (last behind) := by
      rcases caught_or_fatal behind with caught | ⟨fault, rfl, lasting⟩
      · exact (handles behind caught).moves
      · rw [handsOnToo fault lasting]
        exact .stop (fun machine => sound.leading.refl machine.outside) _
    exact sound.leading.trans _ _ _ (cut.ahead _ _ endedLong) (settled middle answer later ranLong)

theorem wrapped {short long around : Run Host α} {machine entered : Machine Host}
    (leave : Machine Host → Machine Host)
    (outside : ∀ machine : Machine Host, (leave machine).outside = machine.outside)
    (unfolded : around machine = (long entered).map fun ended => (ended.1, leave ended.2))
    (ends : cutting.Ends long entered (short entered)) :
    cutting.Ends around machine
      ((short entered).map fun ended => (ended.1, leave ended.2)) := by
  rcases ended : short entered with _ | ⟨result, after⟩ <;> rw [ended] at ends
  · change around machine = none
    rw [unfolded, show long entered = none from ends]
    rfl
  · have steps := congrArg Prod.fst (outside after)
    have host := congrArg Prod.snd (outside after)
    change (leave after).steps = after.steps at steps
    change (leave after).host = after.host at host
    rcases ends with same | cut
    · refine .inl ⟨?_, same.uncut, ?_⟩
      · rw [steps, host]
        exact same.keeps
      · rw [unfolded, same.same]
        rfl
    · refine .inr ⟨cut.cut, ?_, ?_⟩
      · rw [steps, host]
        exact cut.final
      · intro answer later ran
        rw [unfolded] at ran
        obtain ⟨⟨inside, behind⟩, ranLong, equal⟩ := Option.map_eq_some_iff.mp ran
        cases equal
        rw [along, outside after, outside behind]
        exact cut.ahead inside behind ranLong

theorem inScope (sound : cutting.Sound setup other) (parent : ScopeId) (vars : Bindings Value)
    {body shown : ScopeId → Run Host Value}
    (bodies : ∀ id, cutting.Extends Value (body id) (shown id)) :
    cutting.Extends Value (Run.inScope parent vars body) (Run.inScope parent vars shown) := by
  refine ⟨sound.course.congruence.inScope parent vars trivial fun id _ => (bodies id).moves, ?_⟩
  intro machine keeps
  rw [Run.inScope_eq]
  exact wrapped Machine.left (fun _ => rfl) (Run.inScope_eq parent vars shown machine)
    ((bodies machine.store.size).ends (machine.entered parent vars) keeps)

theorem deeper (sound : cutting.Sound setup other) {body shown : Run Host Value}
    (runs : cutting.Extends Value body shown) :
    cutting.Extends Value (Run.deeper body) (Run.deeper shown) := by
  refine ⟨sound.course.congruence.deeper runs.moves, fun machine keeps => ?_⟩
  rw [Run.deeper_eq]
  exact wrapped Machine.shallower (fun _ => rfl) (Run.deeper_eq shown machine)
    (runs.ends machine.deeper keeps)

theorem callNative (sound : cutting.Sound setup other) {name : String} {native : Native Host}
    (found : other.natives.find? name = some native) (arguments : List Value) (span : Span) :
    cutting.Extends Value (callNative native name arguments span)
      (callNative native name arguments span) := by
  have asked : cutting.Extends (Except String Value)
      (Run.onHost (native.run (prepared native.signature.parameters arguments)))
      (Run.onHost (native.run (prepared native.signature.parameters arguments))) := by
    refine ⟨?_, fun machine keeps => .inl ⟨?_, ?_, rfl⟩⟩
    · rintro machine _ _ ⟨⟩
      exact sound.leading.calls name native found _ machine.steps machine.host
    · exact sound.keeps name native found _ machine.steps machine.host keeps
    · rintro _ ⟨⟩
  refine sound.bind asked fun given => ?_
  cases given with
  | error reason => exact sound.stop (.fault (.recoverable _) span)
  | ok result =>
    dsimp only
    split
    · exact sound.pure _
    · exact sound.stop (.fault (.fatal rfl) span)

theorem reading (sound : cutting.Sound setup other) {next last : Store → Run Host α}
    (runs : ∀ store, cutting.Extends α (next store) (last store)) :
    cutting.Extends α (Run.store >>= next) (Run.store >>= last) := by
  refine sound.bind ⟨?_, fun machine keeps => .inl ⟨keeps, ?_, rfl⟩⟩ runs
  · rintro machine _ _ ⟨⟩
    exact sound.leading.refl machine.outside
  · rintro _ ⟨⟩

theorem changeStore (sound : cutting.Sound setup other) (change : Store → Store) :
    cutting.Extends Unit (Run.changeStore change) (Run.changeStore change) := by
  refine ⟨?_, fun machine keeps => .inl ⟨keeps, ?_, rfl⟩⟩
  · rintro machine _ _ ⟨⟩
    exact sound.leading.refl machine.outside
  · rintro _ ⟨⟩

theorem congruence (sound : cutting.Sound setup other) :
    Congruence setup other cutting.Extends (fun _ _ => True) (fun _ => True)
      (fun _ => True) where
  parts := fun _ _ _ _ _ => trivial
  fresh := fun _ _ _ => trivial
  near := fun _ _ _ => trivial
  exhausted := ⟨sound.course.congruence.exhausted, fun _ _ => rfl⟩
  pure := sound.pure
  stop := fun _ own => sound.stop own
  bind := sound.bind
  recover := sound.recover
  inScope := fun parent vars _ _ _ bodies => sound.inScope parent vars fun id => bodies id trivial
  deeper := sound.deeper
  tick := fun span => ⟨sound.course.tick span, sound.tick span⟩
  admitted := fun span next last runs =>
    ⟨sound.course.congruence.admitted span runs.moves, sound.admitted span next last runs⟩
  natives := by
    intro name
    rw [sound.natives]
    cases found : other.natives.find? name with
    | none => exact .none
    | some native => exact .some (sound.callNative found)
  resolved := by
    intro name span scope next last _ runs
    refine sound.reading fun store => ?_
    split
    · exact sound.stop (.fault (.fatal rfl) span)
    · split
      · exact runs _ trivial
      · exact sound.stop (.fault (.fatal rfl) span)
  variableValue := by
    intro scope name span _
    refine sound.reading fun store => ?_
    split
    · exact sound.pure _
    · exact sound.stop (.fault (.fatal rfl) span)
  overwritten := by
    intro name span scope stored _
    refine sound.reading fun store => ?_
    split
    · exact sound.bind (sound.changeStore _) fun _ => sound.pure stored
    · exact sound.stop (.fault (.fatal rfl) span)
  define := fun _ _ _ _ _ _ _ _ => sound.changeStore _
  defineFunction := fun _ _ _ _ _ => sound.changeStore _

/-! ## Scripts -/

variable {fuel : Nat} {root : Node} {scope : ScopeId} {after : Machine Host}

theorem script_ends (sound : cutting.Sound setup other) (fuel : Nat) (root : Node)
    (scope : ScopeId) {machine : Machine Host}
    (keeps : cutting.keeps machine.steps machine.host) :
    cutting.Ends (script other (evaluate other fuel) scope .void root.statements) machine
      (script setup (evaluate setup fuel) scope .void root.statements machine) :=
  (sound.congruence.script (.refl _ fuel) (fun _ _ => trivial) .void).ends machine keeps

theorem runIn_same (sound : cutting.Sound setup other) (machine : Machine Host)
    (keeps : cutting.keeps machine.steps machine.host)
    (uncut : ¬ CutFor cutting.cause (runIn setup fuel root scope machine)) :
    runIn other fuel root scope machine = runIn setup fuel root scope machine := by
  have ends := sound.script_ends fuel root scope keeps
  rw [runIn_eq] at uncut ⊢
  rw [runIn_eq]
  rcases ended : script setup (evaluate setup fuel) scope .void root.statements machine with
    _ | ⟨result, after⟩ <;> rw [ended] at ends uncut
  · rw [show script other _ _ _ _ _ = none from ends]
  · rcases ends with together | cut
    · rw [together.same]
    · obtain ⟨_, rfl, span, rfl⟩ := cut.cut
      exact absurd ⟨span, after, rfl⟩ uncut

theorem runIn_keeps (sound : cutting.Sound setup other) (machine : Machine Host)
    (keeps : cutting.keeps machine.steps machine.host) {result : Except Fault Value}
    (run : runIn setup fuel root scope machine = some (result, after))
    (uncut : ∀ span, result ≠ .error ⟨.fatal cutting.cause, span⟩) :
    cutting.keeps after.steps after.host := by
  have ends := sound.script_ends fuel root scope keeps
  rw [runIn_eq] at run
  obtain ⟨⟨inside, behind⟩, ended, same⟩ := Option.map_eq_some_iff.mp run
  obtain ⟨rfl, rfl⟩ := Prod.mk.inj same
  rw [ended] at ends
  rcases ends with together | cut
  · exact together.keeps
  · obtain ⟨_, rfl, span, rfl⟩ := cut.cut
    exact absurd rfl (uncut span)

/-- Behind a cut steps and host are as they should be, and whatever the script comes to
without the limit, it comes to later. -/
theorem runIn_cut (sound : cutting.Sound setup other) (machine : Machine Host)
    (keeps : cutting.keeps machine.steps machine.host) {span : Span}
    (run : runIn setup fuel root scope machine =
      some (.error ⟨.fatal cutting.cause, span⟩, after)) :
    cutting.final after.steps after.host ∧ ∀ result later,
      runIn other fuel root scope machine = some (result, later) → cutting.along after later := by
  have ends := sound.script_ends fuel root scope keeps
  rw [runIn_eq] at run
  obtain ⟨⟨inside, behind⟩, ended, same⟩ := Option.map_eq_some_iff.mp run
  obtain ⟨isCut, rfl⟩ := Prod.mk.inj same
  rw [ended] at ends
  rcases ends with together | cut
  · have exits : inside = .error (.fault ⟨.fatal cutting.cause, span⟩) := mapError_topFault isCut
    exact absurd ⟨span, rfl⟩ (together.uncut _ exits)
  · refine ⟨cut.final, fun result later ran => ?_⟩
    rw [runIn_eq] at ran
    obtain ⟨⟨_, last⟩, endedLong, alike⟩ := Option.map_eq_some_iff.mp ran
    obtain ⟨-, rfl⟩ := Prod.mk.inj alike
    exact cut.ahead _ _ endedLong

end Sound

end Cutting

end RobotScript
