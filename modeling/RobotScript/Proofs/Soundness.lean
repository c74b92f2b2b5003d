import RobotScript.Proofs.Reading.Outcomes
import RobotScript.Proofs.Reading.Soundness
import RobotScript.Proofs.Running.Scripts
import RobotScript.Proofs.Scoping.Spans
import RobotScript.Proofs.Tracing.Erasure
import RobotScript.Proofs.Typing.Spans

/-! # Compiled scripts without capture

What compiles and captures nothing runs as it was read: names reach the
declarations that they were read with, values have the types of the nodes that
give them, and natives get what their signatures ask for. Spans serve as the
identity of declarations; as a script runs the same wherever its parts stand, they
may be taken to be distinct. -/
set_option autoImplicit false

namespace RobotScript

open Typing Evaluation

variable {Host : Type}

/-- Natives whose lists have items of the list's element type only. -/
def NativeTable.Honest (natives : NativeTable Host) : Prop :=
  ∀ name native, natives.find? name = some native →
    ∀ arguments host value after, native.run arguments host = (.ok value, after) →
      value.WellFormed

theorem compile_program {natives : NativeTable Host} {source : String} {root : Node}
    (compiled : compile natives source = .ok root) : Program natives.context root := by
  obtain ⟨behind, parsed⟩ := compile_ok compiled
  exact (parseText_wellTyped parsed).1

/-! ## Names -/

def Stage.tracing (setup : Setup Host) (honest : setup.natives.Honest) (links : List Use) :
    Stage Host where
  plain := setup
  links := links
  holds := fun _ => True
  honest := honest
  keeps := fun _ _ _ _ _ _ _ => trivial
  watches := fun _ _ _ _ _ => trivial

/-- Names resolve when a script runs as they did when it was read: whatever a use
of a name reaches was made by the declaration that the use is linked to, and is of
the type that the use was read with. -/
theorem uses_reach_declarations {setup : Setup Host} (honest : setup.natives.Honest)
    {source : String} {root : Node} (compiled : compile setup.natives source = .ok root)
    (captureFree : CaptureFree [] root) {marked : Node} (same : marked.Same root) (fuel : Nat)
    (host : Host) :
    Ending.bare Prod.fst (Tracing.runFresh setup fuel marked host) =
        Ending.bare id (runFresh setup fuel root host) ∧
      ∀ result machine, Tracing.runFresh setup fuel marked host = some (result, machine) →
        ∀ use ∈ machine.ledger.uses, use ∈ marked.links ∧ use.Fits := by
  refine ⟨runFresh_traced setup fuel same host, ?_⟩
  intro result machine run
  have typed : Program setup.natives.context marked := (compile_program compiled).same same
  have sound := traced_sound (.tracing setup honest marked.links) fuel typed
    (captureFree.same same) (List.Subset.refl _) trivial run
  exact sound.1.uses

def printing : Setup (List String) :=
  ⟨.ofList [("print", .print fun line lines => lines ++ [line])], .standard, none⟩

theorem printing_honest : printing.natives.Honest := by
  intro name native found arguments host value after run
  change (Bindings.insert .empty "print" _).find? name = some native at found
  rw [Bindings.find?_insert] at found
  split at found
  · cases found
    cases run
    trivial
  · cases found

/-- Around the function its variable is shadowed, but not where it was defined. -/
def shadowing : String :=
  "int x = 1; func int f() \x7b return x; \x7d if true \x7b bool x = true; print(f()); \x7d"

theorem shadowing_resolves :
    ∃ root result machine, compile printing.natives shadowing = .ok root ∧
      CaptureFree [] root ∧ Tracing.runFresh printing 20 root [] = some (result, machine) ∧
      machine.ledger.uses ≠ [] ∧ ∀ use ∈ machine.ledger.uses, use ∈ root.links ∧ use.Fits := by
  have checked : ((compile printing.natives shadowing).toOption.any fun root =>
      decide (CaptureFree [] root) && (Tracing.runFresh printing 20 root []).any fun ended =>
        !ended.2.ledger.uses.isEmpty) = true := by decide +kernel
  obtain ⟨root, compiled, facts⟩ := exists_compiled checked
  obtain ⟨captureFree, ran⟩ := Bool.and_eq_true_iff.mp facts
  have captureFree : CaptureFree [] root := of_decide_eq_true captureFree
  obtain ⟨⟨result, machine⟩, run, used⟩ := (Option.any_eq_true _ _).mp ran
  refine ⟨root, result, machine, compiled, captureFree, run, ?_, ?_⟩
  · intro unused
    simp [unused] at used
  · exact (uses_reach_declarations printing_honest compiled captureFree (show root.Same root from rfl) 20
      []).2 result machine run

/-- The function was read with one meaning of its variable and runs with another. -/
def capturing : String :=
  "int x = 1;\nif true \x7b\n  func int f() \x7b return x; \x7d\n  string x = \"text\";\n  print(f());\n\x7d"

/-- A use that was read as that of an int and reached a string. -/
def Use.misled (use : Use) : Bool :=
  use.node.ty = .int &&
    match use.reached with
    | some ⟨.var ty, _⟩ => ty = .string
    | _ => false

theorem capturing_misleads :
    ∃ root result machine, compile printing.natives capturing = .ok root ∧
      ¬ CaptureFree [] root ∧ Tracing.runFresh printing 20 root [] = some (result, machine) ∧
      ∃ use ∈ machine.ledger.uses, use.misled = true := by
  have checked : ((compile printing.natives capturing).toOption.any fun root =>
      decide (¬ CaptureFree [] root) && (Tracing.runFresh printing 20 root []).any fun ended =>
        ended.2.ledger.uses.any Use.misled) = true := by decide +kernel
  obtain ⟨root, compiled, facts⟩ := exists_compiled checked
  obtain ⟨captures, ran⟩ := Bool.and_eq_true_iff.mp facts
  obtain ⟨⟨result, machine⟩, run, misled⟩ := (Option.any_eq_true _ _).mp ran
  exact ⟨root, result, machine, compiled, of_decide_eq_true captures, run,
    List.any_eq_true.mp misled⟩

/-! ## Values and natives -/

/-- The native was called with as many arguments as it declares, of the types that
it declares, or with any number of arguments that are not void. -/
def Invocation.Fits (invocation : Invocation) : Prop :=
  invocation.signature.parameters.Admits invocation.arguments

theorem Setup.recording_shows (setup : Setup Host) : Shows Prod.fst setup.recording setup :=
  setup.beside_shows _

theorem Setup.recording_native {setup : Setup Host} {name : String}
    {native : Native (Host × List Invocation)}
    (found : setup.recording.natives.find? name = some native) :
    ∃ plain, setup.natives.find? name = some plain ∧ native = plain.beside fun native arguments
      invocations => invocations ++ [⟨native.signature, arguments⟩] := by
  change (setup.natives.map _).find? name = some native at found
  rw [Bindings.find?_map, Option.map_eq_some_iff] at found
  obtain ⟨plain, isPlain, rfl⟩ := found
  exact ⟨plain, isPlain, rfl⟩

theorem Setup.recording_context (setup : Setup Host) :
    setup.recording.natives.context = setup.natives.context := by
  simp only [NativeTable.context, Setup.recording, Setup.beside, Bindings.map, List.map_map]
  rfl

def Stage.recording (setup : Setup Host) (honest : setup.natives.Honest) (links : List Use) :
    Stage (Host × List Invocation) where
  plain := setup.recording
  links := links
  holds := fun host => ∀ invocation ∈ host.2, invocation.Fits
  honest := by
    intro name native found arguments host value after run
    obtain ⟨plain, isPlain, rfl⟩ := Setup.recording_native found
    have given : (plain.run arguments host.1).1 = .ok value := congrArg Prod.fst run
    exact honest name plain isPlain arguments host.1 value _ (Prod.ext given rfl)
  keeps := by
    intro name native found arguments host admitted fit invocation member
    obtain ⟨plain, isPlain, rfl⟩ := Setup.recording_native found
    rcases List.mem_append.mp member with before | now
    · exact fit invocation before
    · rw [List.mem_singleton.mp now]
      exact admitted
  watches := by
    intro watch isWatch steps host fit
    obtain ⟨plain, -, rfl⟩ := Option.map_eq_some_iff.mp isWatch
    exact fit

theorem endsWell_bare {ty : Ty} {result : Except Fault Value} :
    EndsWell ty (result.mapError Fault.bare) ↔ EndsWell ty result := by
  cases result <;> exact Iff.rfl

/-- A script ends with a value of exactly its type, with a fault that can be
recovered from, or for one of the reasons for which any script may be ended; and
every native that it called was called as its signature says. -/
theorem runFresh_sound {setup : Setup Host} (honest : setup.natives.Honest) {source : String}
    {root : Node} (compiled : compile setup.natives source = .ok root)
    (captureFree : CaptureFree [] root) {fuel : Nat} {host : Host} {result : Except Fault Value}
    {after : Machine Host} (run : runFresh setup fuel root host = some (result, after)) :
    EndsWell root.resultTy result ∧
      ∃ recorded machine,
        runFresh setup.recording fuel root (host, []) = some (recorded, machine) ∧
        recorded.mapError Fault.bare = result.mapError Fault.bare ∧
        machine.bare Prod.fst = after.bare id ∧
        ∀ invocation ∈ machine.host.2, invocation.Fits := by
  have shown := runFresh_shown setup.recording_shows fuel root (host, [])
  rw [run] at shown
  obtain ⟨⟨recorded, machine⟩, recordedRun, alike⟩ := Option.map_eq_some_iff.mp shown
  obtain ⟨results, machines⟩ := Prod.mk.inj alike
  have typed := compile_program compiled
  rw [← Setup.recording_context] at typed
  have traced := runFresh_traced setup.recording fuel (show root.Same root from rfl) (host, [])
  rw [recordedRun] at traced
  obtain ⟨⟨ended, last⟩, tracedRun, same⟩ := Option.map_eq_some_iff.mp traced
  obtain ⟨endings, lasts⟩ := Prod.mk.inj same
  obtain ⟨world, ends⟩ := traced_sound (.recording setup honest root.links) fuel typed captureFree
    (List.Subset.refl _) (fun _ member => absurd member List.not_mem_nil) tracedRun
  have hosts : last.host.1 = machine.host := congrArg Machine.host lasts
  refine ⟨endsWell_bare.mp ?_, recorded, machine, recordedRun, results, machines, ?_⟩
  · rw [← results, ← endings]
    exact endsWell_bare.mpr ends
  · rw [← hosts]
    exact world.holds

/-- Ints are widened at a call, and a fault is taken by a `try` branch. -/
def widening : String :=
  "func double twice(double x) \x7b return x + x; \x7d int[] xs = [1, 2]; try \x7b print(xs[2]); \x7d else \x7b print(twice(xs[0])); \x7d twice(3);"

theorem widening_endsWell :
    ∃ root result after, compile printing.natives widening = .ok root ∧ CaptureFree [] root ∧
      root.resultTy = .double ∧ runFresh printing 20 root [] = some (result, after) ∧
      (EndsWell root.resultTy result ∧
        ∃ recorded machine,
          runFresh printing.recording 20 root ([], []) = some (recorded, machine) ∧
          recorded.mapError Fault.bare = result.mapError Fault.bare ∧
          machine.bare Prod.fst = after.bare id ∧
          ∀ invocation ∈ machine.host.2, invocation.Fits) := by
  have checked : ((compile printing.natives widening).toOption.any fun root =>
      decide (CaptureFree [] root) && decide (root.resultTy = .double) &&
        (runFresh printing 20 root []).isSome) = true := by decide +kernel
  obtain ⟨root, compiled, facts⟩ := exists_compiled checked
  obtain ⟨static, ran⟩ := Bool.and_eq_true_iff.mp facts
  obtain ⟨captureFree, resultTy⟩ := Bool.and_eq_true_iff.mp static
  have captureFree : CaptureFree [] root := of_decide_eq_true captureFree
  obtain ⟨⟨result, after⟩, run⟩ := Option.isSome_iff_exists.mp ran
  exact ⟨root, result, after, compiled, captureFree, of_decide_eq_true resultTy, run,
    runFresh_sound printing_honest compiled captureFree run⟩

end RobotScript
