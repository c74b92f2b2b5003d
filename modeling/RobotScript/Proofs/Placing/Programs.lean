import RobotScript.Proofs.Leaving.Jumps
import RobotScript.Proofs.Placing.Scripts
import RobotScript.Proofs.Reading.Outcomes
import RobotScript.Proofs.Refusing.Causes

/-! # Where programs and their faults are shown

A source that compiles has a tree whose spans are faithful to it. One that does not is
refused with an error that is static and not fatal, and a program that fails in a fresh
scope fails with an error of running it. All these spans are ranges of the characters of
the source, so each of them is shown as it is, with nothing cut off. -/
set_option autoImplicit false

namespace RobotScript

open Evaluation

variable {Host : Type}

/-- The span is a range of the characters of the source, which is shown as it is. -/
structure Span.Shown (source : String) (span : Span) : Prop where
  fits : span.Fits source.length
  whole : span.charRange source.length = (span.start.index, span.stop.index)

theorem Span.In.shown {source : String} {span : Span} (within : span.In source.toList) :
    span.Shown source := by
  have fits := within.fits
  rw [String.length_toList] at fits
  exact ⟨fits, Span.fits_iff.mp fits⟩

/-! ## Refusals -/

/-- The error refuses a script before it runs, and is not fatal. -/
def Cause.Static (cause : Cause) : Prop := cause.kind.isStatic = true ∧ cause.isFatal = false

theorem Grammar.Ordinary.static {cause : Cause} (ordinary : Grammar.Ordinary cause) :
    cause.Static := by
  cases cause with
  | lexical | recoverable | fatal => cases ordinary
  | _ => exact ⟨rfl, rfl⟩

theorem scanFrom_static {position : Position} {characters : List Char} {fault : Fault}
    (refused : scanFrom position characters = .error fault) : fault.cause.Static := by
  fun_induction scanFrom position characters with
  | case1 => cases refused
  | case2 position first rest piece span blank ih => exact ih refused
  | case3 =>
    cases refused
    exact ⟨rfl, rfl⟩
  | case4 position first rest piece span kind lexeme isToken reason failed ih =>
    cases refused
    exact ih failed
  | case5 => cases refused

theorem parseText_static {source : String} {context : Context} {fault : Fault}
    (refused : parseText source context = .error fault) : fault.cause.Static := by
  have lasting : Grammar.Lasting (fun _ => True) Cause.Static :=
    ⟨fun _ => id, fun _ _ => id, fun _ => Grammar.Ordinary.static, fun _ _ _ _ => ⟨rfl, rfl⟩,
      fun _ _ _ _ => ⟨rfl, rfl⟩⟩
  rw [parseText] at refused
  cases scanned : scan source with
  | error reason =>
    rw [scanned] at refused
    cases refused
    exact scanFrom_static scanned
  | ok tokens =>
    rw [scanned] at refused
    exact parse_refusesOnly lasting trivial refused

/-! ## Programs -/

/-- Every node of a program and every branch in it is faithful to the source and shown as it is.
If the source does not compile, the error is static and not fatal and is shown in the source, and
whatever ends a run of the program in a fresh scope is an error of running it, shown in the
source as well. -/
theorem spans_faithful (natives : NativeTable Host) (source : String) :
    (∀ root, compile natives source = .ok root →
      (∀ node, Within root node →
        Faithful source.toList node ∧ node.span.Shown source ∧
          ∀ branch ∈ node.branches, branch.span.Shown source) ∧
      ∀ (setup : Setup Host) fuel host fault after,
        runFresh setup fuel root host = some (.error fault, after) →
          fault.diagnostic.kind = .runtime ∧ fault.diagnostic.span.Shown source) ∧
    ∀ fault, compile natives source = .error fault →
      fault.diagnostic.kind.isStatic = true ∧ fault.diagnostic.fatal = false ∧
        fault.diagnostic.span.Shown source := by
  obtain ⟨read, refused⟩ := parseText_faithful source natives.context
  simp only [compile]
  cases parsed : parseText source natives.context with
  | error reason =>
    refine ⟨by rintro _ ⟨⟩, ?_⟩
    rintro _ ⟨⟩
    obtain ⟨static, notFatal⟩ := parseText_static parsed
    exact ⟨static, notFatal, (refused reason parsed).shown⟩
  | ok program =>
    obtain ⟨root, behind⟩ := program
    refine ⟨?_, by rintro _ ⟨⟩⟩
    rintro _ ⟨⟩
    have faithful := read root behind parsed
    have known : Known (Span.In source.toList) root :=
      fun node within => (faithful node within).holds.within
    refine ⟨fun node within => ?_, fun setup fuel host fault after ran => ?_⟩
    · have here := faithful node within
      exact ⟨here, here.holds.within.shown,
        fun branch member => (here.branches branch member).within.shown⟩
    · obtain ⟨within, runtime⟩ := (runIn_knows known (Store.knows_withRoot _) ran).2 fault rfl
      exact ⟨runtime, within.shown⟩

/-- The second branch of a chain fails in a function, between parentheses. -/
def failing : String :=
  "func double half(int x) \x7b return (x / x) * 2; \x7d if 1 > 2 \x7b \x7d elif true \x7b half(0); \x7d"

def unclosed : String := "print(1 "

theorem failing_shown :
    (∃ root node fault after, compile printing.natives failing = .ok root ∧
      Within root node ∧ node.branches.length = 2 ∧
      runFresh printing 20 root [] = some (.error fault, after) ∧
      (Faithful failing.toList node ∧ node.span.Shown failing ∧
        ∀ branch ∈ node.branches, branch.span.Shown failing) ∧
      fault.diagnostic.kind = .runtime ∧ fault.diagnostic.span.Shown failing) ∧
    ∃ fault, compile printing.natives unclosed = .error fault ∧
      fault.span.start.index = 7 ∧ fault.diagnostic.kind.isStatic = true ∧
      fault.diagnostic.fatal = false ∧ fault.diagnostic.span.Shown unclosed := by
  have checked : ((compile printing.natives failing).toOption.any fun root =>
      (root.components.any fun node => decide (node.branches.length = 2)) &&
        (runFresh printing 20 root []).any fun ended => (fault? ended.1).isSome) = true := by
    decide +kernel
  have checkedFault : ((fault? (compile printing.natives unclosed)).any fun fault =>
      decide (fault.span.start.index = 7)) = true := by decide +kernel
  constructor
  · obtain ⟨root, compiled, facts⟩ := exists_compiled checked
    obtain ⟨hasChain, fails⟩ := Bool.and_eq_true_iff.mp facts
    obtain ⟨node, member, branches⟩ := List.any_eq_true.mp hasChain
    obtain ⟨⟨result, after⟩, ran, failed⟩ := (Option.any_eq_true _ _).mp fails
    obtain ⟨fault, isFault⟩ := Option.isSome_iff_exists.mp failed
    obtain rfl := error_of_fault? isFault
    have within : Within root node := .component .self member
    obtain ⟨spans, faults⟩ := (spans_faithful printing.natives failing).1 root compiled
    exact ⟨root, node, fault, after, compiled, within, of_decide_eq_true branches, ran,
      spans node within, faults printing 20 [] fault after ran⟩
  · obtain ⟨fault, refused, atEnd⟩ := (Option.any_eq_true _ _).mp checkedFault
    have refused := error_of_fault? refused
    exact ⟨fault, refused, of_decide_eq_true atEnd,
      (spans_faithful printing.natives unclosed).2 fault refused⟩

end RobotScript
