import RobotScript.Grammar.Statement

/-! # What every reading keeps

`Upheld` says of a property of readings what it takes for all of the grammar to have it:
every step of a reader has it, what is refused has it, and readings that are put together
keep it. What the readers that are met have in common can be used where the grammar looks
at one, and where it refuses a numeral. -/
set_option autoImplicit false

namespace RobotScript.Grammar

/-- What the grammar refuses, apart from the numerals of tokens: causes of its own, types
that do not fit, and names that are not in view. -/
def Ordinary : Cause → Prop
  | .grammar (.invalidInt _) | .grammar (.invalidDouble _) => False
  | .grammar _ | .typing _ | .naming _ => True
  | .lexical _ | .recoverable _ | .fatal _ => False

structure Upheld (Apt : Reader → Prop) (Holds : ∀ {α : Type}, Parse α → Prop) : Prop where
  pure {α : Type} (value : α) : Holds (Pure.pure value : Parse α)
  bind {α β : Type} {first : Parse α} {next : α → Parse β} :
    Holds first → (∀ value, Holds (next value)) → Holds (first >>= next)
  throw {α : Type} {fault : Fault} : Ordinary fault.cause → Holds (throw fault : Parse α)
  invalidInt {reader : Reader} : Apt reader → reader.peek.kind = .int →
    Decimal.int? reader.peek.lexeme = none →
      Holds (refuse (.grammar (.invalidInt reader.peek.lexeme)) reader.peek.span : Parse Node)
  invalidDouble {reader : Reader} : Apt reader → reader.peek.kind = .double →
    Decimal.double? reader.peek.lexeme = none →
      Holds (refuse (.grammar (.invalidDouble reader.peek.lexeme)) reader.peek.span : Parse Node)
  view {α : Type} {next : Reader → Parse α} :
    (∀ reader, Apt reader → Holds (next reader)) → Holds (get >>= next)
  advance : Holds advance
  changeContext (change : Context → Context) : Holds (changeContext change)
  attempt {α : Type} {alternative : Parse (Option α)} :
    Holds alternative → Holds (attempt alternative)
  lookAhead {α : Type} {ahead : Parse α} : Holds ahead → Holds (do
    let before ← get
    let value ← ahead
    set before
    return value)

namespace Upheld

variable {Apt : Reader → Prop} {Holds : ∀ {α : Type}, Parse α → Prop} {α : Type}
  (upheld : Upheld Apt @Holds)

include upheld

theorem refuse {cause : Cause} (ordinary : Ordinary cause) (span : Span) :
    Holds (refuse cause span : Parse α) := upheld.throw ordinary

theorem met {next : Token → Parse α} (holds : ∀ reader, Apt reader → Holds (next reader.peek)) :
    Holds (Grammar.peek >>= next) := upheld.view holds

theorem peek {next : Token → Parse α} (holds : ∀ token, Holds (next token)) :
    Holds (peek >>= next) := upheld.met fun reader _ => holds reader.peek

theorem remaining {next : List Token → Parse α} (holds : ∀ tokens, Holds (next tokens)) :
    Holds (remaining >>= next) := upheld.view fun reader _ => holds reader.ahead

theorem check (kind : TokenKind) {next : Bool → Parse α} (holds : ∀ found, Holds (next found)) :
    Holds (check kind >>= next) := upheld.view fun _ _ => holds _

theorem checkNext (kind : TokenKind) : Holds (checkNext kind) :=
  upheld.view fun _ _ => upheld.pure _

theorem accept (kind : TokenKind) : Holds (accept kind) :=
  upheld.check kind fun found => by
    cases found with
    | true => exact upheld.bind upheld.advance fun _ => upheld.pure true
    | false => exact upheld.pure false

theorem expect (kind : TokenKind) (what : Expected) : Holds (expect kind what) :=
  upheld.check kind fun found => by
    cases found with
    | true => exact upheld.advance
    | false => exact upheld.view fun _ _ => upheld.refuse (by trivial) _

theorem inScope {body : Parse α} (holds : Holds body) : Holds (inScope body) :=
  upheld.bind (upheld.changeContext _) fun _ => upheld.bind holds fun result =>
    upheld.bind (upheld.changeContext _) fun _ => upheld.pure result

theorem separated {item : α → Parse α} (holds : ∀ sofar, Holds (item sofar))
    (rounds : List Token) (sofar : α) : Holds (separated item rounds sofar) := by
  induction rounds generalizing sofar with
  | nil => exact holds sofar
  | cons token rounds ih =>
    refine upheld.bind (holds sofar) fun more => upheld.bind (upheld.accept .comma) fun found => ?_
    cases found with
    | true => exact ih more
    | false => exact upheld.pure more

theorem commaSeparated {item : α → Parse α} (holds : ∀ sofar, Holds (item sofar)) (start : α) :
    Holds (commaSeparated item start) :=
  upheld.remaining fun tokens => upheld.separated holds tokens start

end Upheld

end RobotScript.Grammar
