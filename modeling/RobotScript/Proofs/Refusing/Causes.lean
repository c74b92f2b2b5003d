import RobotScript.Proofs.Reading.Steps
import RobotScript.Proofs.Refusing.Statements

/-! # Why texts are refused

What can be the cause when tokens are refused is a question about the readers that are met
on the way: from readers that go on to be of one sort, the grammar refuses for the causes
that any reader gives and for those that the numerals ahead of such readers give. -/
set_option autoImplicit false

namespace RobotScript.Grammar

variable {Apt : Reader → Prop} {Allowed : Cause → Prop} {α β : Type}

/-- From such readers only such causes are refused, and one of them goes on. -/
def RefusesOnly (Apt : Reader → Prop) (Allowed : Cause → Prop) {α : Type} (parse : Parse α) :
    Prop :=
  ∀ reader : Reader, Apt reader →
    (∀ fault, parse reader = .error fault → Allowed fault.cause) ∧
      ∀ value after, parse reader = .ok (value, after) → Apt after

/-- What is read from such readers, in whatever context, leaves one of them again, and the
numerals that cannot be read from them are among the causes. -/
structure Lasting (Apt : Reader → Prop) (Allowed : Cause → Prop) : Prop where
  next : ∀ reader, Apt reader → Apt reader.next
  inContext : ∀ (reader : Reader) (context : Context), Apt reader →
    Apt { reader with context := context }
  ordinary : ∀ cause, Ordinary cause → Allowed cause
  invalidInt : ∀ reader : Reader, Apt reader → reader.peek.kind = .int →
    Decimal.int? reader.peek.lexeme = none → Allowed (.grammar (.invalidInt reader.peek.lexeme))
  invalidDouble : ∀ reader : Reader, Apt reader → reader.peek.kind = .double →
    Decimal.double? reader.peek.lexeme = none →
      Allowed (.grammar (.invalidDouble reader.peek.lexeme))

namespace RefusesOnly

theorem pure (value : α) : RefusesOnly Apt Allowed (Pure.pure value) := by
  refine fun reader apt => ⟨by rintro _ ⟨⟩, ?_⟩
  rintro _ _ ⟨⟩
  exact apt

theorem throw {fault : Fault} (allowed : Allowed fault.cause) :
    RefusesOnly Apt Allowed (throw fault : Parse α) := by
  refine fun reader apt => ⟨?_, by rintro _ _ ⟨⟩⟩
  rintro _ ⟨⟩
  exact allowed

theorem bind {first : Parse α} {next : α → Parse β} (one : RefusesOnly Apt Allowed first)
    (two : ∀ value, RefusesOnly Apt Allowed (next value)) :
    RefusesOnly Apt Allowed (first >>= next) := by
  intro reader apt
  obtain ⟨refused, read⟩ := one reader apt
  refine ⟨fun fault run => ?_, fun result after run => ?_⟩
  · rcases bind_error run with failed | ⟨value, between, ran, failed⟩
    · exact refused fault failed
    · exact (two value between (read value between ran)).1 fault failed
  · obtain ⟨value, between, ran, rest⟩ := bind_ok run
    exact (two value between (read value between ran)).2 result after rest

theorem upheld (lasting : Lasting Apt Allowed) : Upheld Apt (RefusesOnly Apt Allowed) where
  pure := pure
  bind := bind
  throw ordinary := throw (lasting.ordinary _ ordinary)
  invalidInt apt isInt unread := throw (lasting.invalidInt _ apt isInt unread)
  invalidDouble apt isDouble unread := throw (lasting.invalidDouble _ apt isDouble unread)
  view holds reader apt := holds reader apt reader apt
  advance reader apt := by
    refine ⟨by rintro _ ⟨⟩, ?_⟩
    rintro _ _ ⟨⟩
    exact lasting.next reader apt
  changeContext change reader apt := by
    refine ⟨by rintro _ ⟨⟩, ?_⟩
    rintro _ _ ⟨⟩
    exact lasting.inContext reader _ apt
  attempt {α alternative} holds reader apt := by
    obtain ⟨refused, read⟩ := holds reader apt
    refine ⟨fun fault run => ?_, fun value after run => ?_⟩
    · exact refused fault (attempt_refused run)
    · cases value with
      | none => exact ((attempt_none alternative reader after).mp run).1 ▸ apt
      | some result => exact read _ after ((attempt_some alternative reader after result).mp run)
  lookAhead holds reader apt := by
    refine ⟨fun fault run => ?_, fun value after run => ?_⟩
    · rw [bind_get] at run
      rcases bind_error run with failed | ⟨_, _, -, rest⟩
      · exact (holds reader apt).1 fault failed
      · cases rest
    · rw [bind_get] at run
      obtain ⟨_, _, -, rest⟩ := bind_ok run
      cases rest
      exact apt

end RefusesOnly

end RobotScript.Grammar

namespace RobotScript

theorem parse_refusesOnly {Apt : Grammar.Reader → Prop} {Allowed : Cause → Prop}
    (lasting : Grammar.Lasting Apt Allowed) {tokens : List Token} {context : Context}
    (apt : Apt (Grammar.Reader.ofTokens tokens context)) {fault : Fault}
    (run : parse tokens context = .error fault) : Allowed fault.cause := by
  have script := Grammar.script_upheld (Grammar.RefusesOnly.upheld lasting) _ apt
  rw [parse] at run
  split at run
  next => cases run
  next failed =>
    cases run
    exact script.1 fault failed

end RobotScript
