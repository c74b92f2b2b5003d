import RobotScript.Proofs.Limiting.Limits
import RobotScript.Proofs.Relating.Mirror
import RobotScript.Proofs.Tracing.Trace

/-! # Logs beside a host

A host may carry a log of the calls of natives, or of the numbers with which the
watch was asked. Neither natives nor watch see it, so a run with a log is the run
without it. -/
set_option autoImplicit false

namespace RobotScript

open Evaluation

variable {Host Extra : Type}

/-! ## What is kept beside a host -/

/-- The machine without what its host has beside it. -/
def Machine.plain (machine : Machine (Host × Extra)) : Machine Host :=
  ⟨machine.store, machine.host.1, machine.steps, machine.depth⟩

/-- One host has something beside it, the other one has not. -/
def Plainly : Likeness (Host × Extra) Host := fun laden plain =>
  laden.1 = plain.1 ∧ laden.2.1 = plain.2

theorem Machine.alike_plain (machine : Machine (Host × Extra)) :
    machine.Alike Plainly machine.plain := ⟨rfl, rfl, rfl, rfl⟩

theorem Machine.Alike.plain {machine : Machine (Host × Extra)} {other : Machine Host}
    (alike : machine.Alike Plainly other) : machine.plain = other := by
  obtain ⟨store, host, steps, depth⟩ := other
  obtain ⟨rfl, rfl, rfl, rfl⟩ := alike
  rfl

theorem Native.beside_mirrors (note : Native Host → List Value → Extra → Extra)
    (native : Native Host) : (native.beside note).Mirrors Plainly native where
  signature := rfl
  run := by
    rintro arguments steps host number shown ⟨rfl, rfl⟩
    exact ⟨rfl, rfl, rfl⟩

def WatchesPlainly (laden : Nat → Host × Extra → Bool × (Host × Extra))
    (plain : Nat → Host → Bool × Host) : Prop :=
  ∀ number host, (laden number host).1 = (plain number host.1).1 ∧
    (laden number host).2.1 = (plain number host.1).2

theorem tick_plainly {laden : Setup (Host × Extra)} {plain : Setup Host}
    (limits : laden.limits = plain.limits)
    (watches : Option.Rel WatchesPlainly laden.watch plain.watch) (span : Span) :
    Mirrors Plainly Unit (tick laden span) (tick plain span) := by
  have consults (number : Nat) : Mirrors Plainly Unit (tick.consult laden span number)
      (tick.consult plain span number) := by
    unfold tick.consult
    generalize laden.watch = one at watches
    generalize plain.watch = two at watches
    cases watches with
    | none => exact .pure ()
    | some same =>
      refine .bind (.onHost ?_) fun goesOn => ?_
      · rintro steps host number shown ⟨rfl, rfl⟩
        exact ⟨(same _ host).1, rfl, (same _ host).2⟩
      · cases goesOn with
        | true => exact .pure ()
        | false => exact .stop _
  exact .tick (fun _ _ alike => alike.1) (fun _ _ alike => ⟨congrArg (· + 1) alike.1, alike.2⟩)
    (congrArg Limits.maxSteps limits) span consults

theorem tick_beside {laden : Setup (Host × Extra)} {plain : Setup Host}
    (limits : laden.limits = plain.limits) (watches : laden.watch = plain.watch.map watchBeside)
    (span : Span) : Mirrors Plainly Unit (tick laden span) (tick plain span) := by
  refine tick_plainly limits ?_ span
  rw [watches]
  cases plain.watch with
  | none => exact .none
  | some watch => exact .some fun _ _ => ⟨rfl, rfl⟩

theorem Setup.beside_mirrors (note : Native Host → List Value → Extra → Extra)
    (setup : Setup Host) : Mirroring Plainly (setup.beside note) setup where
  depth := rfl
  natives := by
    intro name
    change Option.Rel _ ((setup.natives.map (Native.beside note)).find? name) _
    rw [Bindings.find?_map]
    cases setup.natives.find? name with
    | none => exact .none
    | some native => exact .some (native.beside_mirrors note)
  tick := tick_beside rfl rfl

theorem Mirrors.plain {α : Type} {run : Run (Host × Extra) α} {other : Run Host α}
    (same : Mirrors Plainly α run other) (machine : Machine (Host × Extra)) :
    other machine.plain = (run machine).map fun ended => (ended.1, ended.2.plain) := by
  rcases same machine machine.plain machine.alike_plain with
    ⟨ran, shown⟩ | ⟨result, after, last, ran, shown, alike⟩
  · rw [ran, shown]
    rfl
  · rw [ran, shown, ← alike.plain]
    rfl

/-- What is kept beside a host does not change the statements of a script, if it changes the
evaluation of no node. -/
theorem Mirroring.topStatements_plain {laden : Setup (Host × Extra)} {plain : Setup Host}
    (mirroring : Mirroring Plainly laden plain) {inner : Node → ScopeId → Run (Host × Extra) Value}
    {other : Node → ScopeId → Run Host Value}
    (nested : ∀ node scope, Mirrors Plainly Value (inner node scope) (other node scope))
    (scope : ScopeId) (nodes : List Node) (last : Value) (machine : Machine (Host × Extra)) :
    topStatements plain other scope last nodes machine.plain =
      (topStatements laden inner scope last nodes machine).map fun ended =>
        (ended.1, ended.2.plain) := by
  have same : Mirrors Plainly Value (script laden inner scope last nodes)
      (script plain other scope last nodes) :=
    mirroring.congruence.pairing.script (Congruence.Nested.paired fun node scope _ =>
      nested node scope) (fun _ _ => ⟨rfl, trivial⟩) last
  rw [topStatements_eq, topStatements_eq, same.plain machine, Option.map_map, Option.map_map]
  rfl

theorem Mirroring.runIn_plain {laden : Setup (Host × Extra)} {plain : Setup Host}
    (mirroring : Mirroring Plainly laden plain) (fuel : Nat) (root : Node) (scope : ScopeId)
    (machine : Machine (Host × Extra)) :
    runIn plain fuel root scope machine.plain =
      (runIn laden fuel root scope machine).map fun ended => (ended.1, ended.2.plain) :=
  mirroring.topStatements_plain (fun node scope =>
    mirroring.congruence.evaluate (.refl _ fuel) node scope trivial) scope root.statements .void
    machine

/-! ## Calls of natives -/

structure NativeCall where
  name : String
  arguments : List Value

/-- The native under its name, with its calls noted behind those before. -/
def Native.logged (name : String) (native : Native Host) : Native (Host × List NativeCall) :=
  native.beside fun _ arguments calls => calls ++ [⟨name, arguments⟩]

/-- The setup whose natives keep a log of their calls, the earliest first. -/
def Setup.logging (setup : Setup Host) : Setup (Host × List NativeCall) :=
  ⟨⟨setup.natives.entries.map fun entry => (entry.1, entry.2.logged entry.1)⟩, setup.limits,
    setup.watch.map watchBeside⟩

namespace Setup

theorem find?_logging (setup : Setup Host) (name : String) :
    setup.logging.natives.find? name = (setup.natives.find? name).map (Native.logged name) := by
  change Bindings.findIn name (setup.natives.entries.map _) =
    (Bindings.findIn name setup.natives.entries).map _
  induction setup.natives.entries with
  | nil => rfl
  | cons entry rest ih =>
    obtain ⟨key, native⟩ := entry
    by_cases here : key = name
    · simp [Bindings.findIn, here]
    · simpa [Bindings.findIn, here] using ih

theorem logging_mirrors (setup : Setup Host) : Mirroring Plainly setup.logging setup where
  depth := rfl
  natives := by
    intro name
    rw [find?_logging]
    cases setup.natives.find? name with
    | none => exact .none
    | some native => exact .some (native.beside_mirrors _)
  tick := tick_beside rfl rfl

theorem logging_leads (setup : Setup Host) :
    Leading (fun before after => before.2.2 <+: after.2.2) setup.logging where
  refl := fun outside => List.prefix_refl outside.2.2
  trans := fun _ _ _ => List.IsPrefix.trans
  counted := fun _ host => List.prefix_refl host.2
  calls := by
    intro name native found arguments steps host
    rw [find?_logging] at found
    obtain ⟨plain, -, rfl⟩ := Option.map_eq_some_iff.mp found
    exact List.prefix_append host.2 _
  watches := by
    intro watch isWatch number steps host
    obtain ⟨plain, -, rfl⟩ := Option.map_eq_some_iff.mp isWatch
    exact List.prefix_refl host.2

/-! ## Numbers of steps -/

/-- The setup with this watch, beside which is kept with which numbers it was asked. -/
def numbering (setup : Setup Host) (watch : Nat → Host → Bool × Host) :
    Setup (Host × List Nat) :=
  ⟨setup.natives.map (Native.beside fun _ _ numbers => numbers), setup.limits,
    some fun number host =>
      ((watch number host.1).1, ((watch number host.1).2, host.2 ++ [number]))⟩

theorem numbering_mirrors (setup : Setup Host) (watch : Nat → Host → Bool × Host) :
    Mirroring Plainly (setup.numbering watch) (setup.withWatch (some watch)) where
  depth := rfl
  natives := by
    intro name
    change Option.Rel _ ((setup.natives.map _).find? name) (setup.natives.find? name)
    rw [Bindings.find?_map]
    cases setup.natives.find? name with
    | none => exact .none
    | some native => exact .some (native.beside_mirrors _)
  tick := tick_plainly rfl (.some fun _ _ => ⟨rfl, rfl⟩)

theorem numbers_consulted {setup : Setup Host} {watch : Nat → Host → Bool × Host} {span : Span}
    {machine after : Machine (Host × List Nat)} {result : Except Exit Unit}
    (asked : tick.consult (setup.numbering watch) span (machine.steps + 1) machine.counted =
      some (result, after)) (numbers : machine.host.2 = List.range' 1 machine.steps) :
    after.host.2 = List.range' 1 after.steps := by
  have steps : after.steps = machine.steps + 1 := (consult_ended asked).1
  rw [steps, List.range'_1_concat, ← numbers, Nat.add_comm 1]
  rcases Run.bind_ended asked with ⟨_, -, ⟨⟩⟩ | ⟨goesOn, between, ⟨⟩, further⟩
  split at further
  · cases further
    rfl
  · cases further
    rfl

end Setup

/-- The watch was asked at every step but the one behind the limit. -/
def Cutting.byNumber (limit : Option Nat) : Cutting (Host × List Nat) where
  cause := .stepLimit (limit.getD 0)
  keeps steps host := host.2 = List.range' 1 steps
  final steps host := (∃ most, limit = some most) ∧ host.2 = List.range' 1 (steps - 1)
  leads _ _ := True

theorem Cutting.byNumber_sound (setup : Setup Host) (watch : Nat → Host → Bool × Host) :
    (Cutting.byNumber setup.limits.maxSteps).Sound (setup.numbering watch)
      (setup.numbering watch) where
  leading := .anything _
  imposed := rfl
  natives := rfl
  keeps := by
    intro name native found arguments steps host keeps
    change (setup.natives.map _).find? name = some native at found
    rw [Bindings.find?_map] at found
    obtain ⟨plain, -, rfl⟩ := Option.map_eq_some_iff.mp found
    exact keeps
  tick := by
    intro span machine keeps
    rcases ran : Evaluation.tick (setup.numbering watch) span machine with _ | ⟨result, after⟩
    · exact ran
    rcases tick_ended ran with ⟨limit, limited, rfl, rfl⟩ | asked
    · have isLimit : setup.limits.maxSteps = some limit := limited
      refine .inr ⟨⟨_, rfl, span, ?_⟩, ⟨⟨limit, isLimit⟩, keeps⟩, fun _ _ _ => trivial⟩
      rw [byNumber, isLimit]
      rfl
    · have interrupts := (consult_ended asked).2
      refine .inl ⟨?_, ?_, ran⟩
      · exact Setup.numbers_consulted asked keeps
      · rintro exit failed ⟨place, rfl⟩
        cases (interrupts _ failed)
  admitted := by
    intro span next last runs machine keeps
    refine Ends.admitted rfl ?_ runs keeps
    rintro _ ⟨⟩

end RobotScript
