import RobotScript.Proofs.Placing.Texts
import RobotScript.Proofs.Reading.Steps

/-! # Readings of a text

A reader of a text has tokens ahead that lie in the text one behind the other. `Places`
says of a reading that begins at a place of the text: what it refuses lies in the text,
and otherwise it stops at a place behind, from which the reader goes on. This file has
one rule for each step of a reader and for each way in which readings are put together. -/
set_option autoImplicit false

namespace RobotScript.Grammar

variable {α β : Type} {text : List Char} {low : Nat}

/-! ## Readers -/

/-- What the reader has ahead are tokens of the text, none before a place of it. -/
structure Reader.From (text : List Char) (low : Nat) (reader : Reader) : Prop where
  spread : Spread text low (reader.ahead ++ [reader.finish])
  tokens : ∀ token ∈ reader.ahead ++ [reader.finish], token.Of text
  ends : reader.finish.kind = .eof
  last : ∀ position, reader.last = some position → position.In text

namespace Reader.From

variable {reader : Reader}

theorem inContext (here : reader.From text low) (context : Context) :
    ({ reader with context := context } : Reader).From text low :=
  ⟨here.spread, here.tokens, here.ends, here.last⟩

theorem peek (here : reader.From text low) :
    reader.peek.span.Lies text low reader.peek.span.stop.index ∧
      reader.From text reader.peek.span.start.index := by
  obtain ⟨ahead, finish, last, context⟩ := reader
  cases ahead with
  | nil =>
    obtain ⟨within, starts, spread⟩ := here.spread.head
    have isToken := here.tokens finish (List.mem_singleton_self finish)
    exact ⟨⟨within, isToken.aligned, starts, Nat.le_refl _⟩, spread, here.tokens, here.ends,
      here.last⟩
  | cons token rest =>
    obtain ⟨within, starts, spread⟩ := here.spread.head
    have isToken := here.tokens token List.mem_cons_self
    exact ⟨⟨within, isToken.aligned, starts, Nat.le_refl _⟩, spread, here.tokens, here.ends,
      here.last⟩

theorem next (here : reader.From text low) : reader.next.From text reader.peek.span.stop.index := by
  have lies := here.peek.1
  obtain ⟨ahead, finish, last, context⟩ := reader
  cases ahead with
  | nil => exact ⟨here.spread.final, here.tokens, here.ends, here.last⟩
  | cons token rest =>
    have more : rest ++ [finish] ≠ [] :=
      List.append_ne_nil_of_right_ne_nil rest (List.cons_ne_nil _ _)
    refine ⟨here.spread.tail more, ?_, here.ends, ?_⟩
    · exact fun other member => here.tokens other (List.mem_cons_of_mem token member)
    · rintro _ ⟨⟩
      exact lies.within.stop

theorem ahead_cons (here : reader.From text low) (goesOn : reader.peek.kind ≠ .eof) :
    ∃ token rest, reader.ahead = token :: rest := by
  obtain ⟨ahead, finish, last, context⟩ := reader
  cases ahead with
  | nil => exact absurd here.ends goesOn
  | cons token rest => exact ⟨token, rest, rfl⟩

theorem missingSpan (here : reader.From text low) : reader.missingSpan.In text := by
  rw [Reader.missingSpan]
  split
  next position _ last => exact .point (here.last position last)
  next => exact here.peek.1.within

end Reader.From

/-! ## Readings -/

/-- Where a reading stops that begins with this reader, and what holds of its result then. -/
def PlacesAt (text : List Char) (low : Nat) (good : Nat → α → Prop) (parse : Parse α)
    (reader : Reader) : Prop :=
  (∀ fault, parse reader = .error fault → fault.span.In text) ∧
    ∀ value after, parse reader = .ok (value, after) →
      ∃ high, low ≤ high ∧ after.From text high ∧ good high value

def Places (text : List Char) (low : Nat) (good : Nat → α → Prop) (parse : Parse α) : Prop :=
  ∀ reader : Reader, reader.From text low → PlacesAt text low good parse reader

def anything (_ : Nat) (_ : α) : Prop := True

def Maybe (good : Nat → α → Prop) (high : Nat) (found : Option α) : Prop :=
  ∀ value, found = some value → good high value

theorem Maybe.none {good : Nat → α → Prop} {high : Nat} : Maybe good high none := by
  rintro _ ⟨⟩

theorem Maybe.some {good : Nat → α → Prop} {high : Nat} {value : α} (isGood : good high value) :
    Maybe good high (some value) := by
  rintro _ ⟨⟩
  exact isGood

def Lying (text : List Char) (low high : Nat) (token : Token) : Prop :=
  token.span.Lies text low high

namespace PlacesAt

variable {good : Nat → α → Prop} {reader : Reader}

theorem earlier {parse : Parse α} {less : Nat} (places : PlacesAt text low good parse reader)
    (before : less ≤ low) : PlacesAt text less good parse reader := by
  refine ⟨places.1, fun value after run => ?_⟩
  obtain ⟨high, behind, there, isGood⟩ := places.2 value after run
  exact ⟨high, Nat.le_trans before behind, there, isGood⟩

theorem peek {next : Token → Parse α} (places : PlacesAt text low good (next reader.peek) reader) :
    PlacesAt text low good (peek >>= next) reader := places

theorem remaining {next : List Token → Parse α}
    (places : PlacesAt text low good (next reader.ahead) reader) :
    PlacesAt text low good (remaining >>= next) reader := places

theorem bind {better : Nat → β → Prop} {first : Parse α} {next : α → Parse β}
    (one : PlacesAt text low good first reader)
    (two : ∀ value middle, low ≤ middle → good middle value → ∀ after : Reader,
      after.From text middle → PlacesAt text middle better (next value) after) :
    PlacesAt text low better (first >>= next) reader := by
  obtain ⟨refused, read⟩ := one
  refine ⟨fun fault run => ?_, fun result after run => ?_⟩
  · rcases bind_error run with failed | ⟨value, between, ran, failed⟩
    · exact refused fault failed
    · obtain ⟨middle, before, there, isGood⟩ := read value between ran
      exact (two value middle before isGood between there).1 fault failed
  · obtain ⟨value, between, ran, rest⟩ := bind_ok run
    obtain ⟨middle, before, there, isGood⟩ := read value between ran
    obtain ⟨high, behind, last, isBetter⟩ :=
      (two value middle before isGood between there).2 result after rest
    exact ⟨high, Nat.le_trans before behind, last, isBetter⟩

/-- What is read next is read by the same reader if the first reading gives it back. -/
theorem bind_kept {better : Nat → β → Prop} {first : Parse α} {next : α → Parse β}
    (one : PlacesAt text low good first reader)
    (kept : ∀ value after, first reader = .ok (value, after) → after = reader)
    (two : ∀ value, PlacesAt text low better (next value) reader) :
    PlacesAt text low better (first >>= next) reader := by
  refine ⟨fun fault run => ?_, fun result after run => ?_⟩
  · rcases bind_error run with failed | ⟨value, between, ran, failed⟩
    · exact one.1 fault failed
    · exact (two value).1 fault (kept value between ran ▸ failed)
  · obtain ⟨value, between, ran, rest⟩ := bind_ok run
    exact (two value).2 result after (kept value between ran ▸ rest)

theorem advance {next : Token → Parse α} (here : reader.From text low)
    (places : ∀ middle, low ≤ middle → reader.peek.span.Lies text low middle →
      ∀ after : Reader, after.From text middle →
        PlacesAt text middle good (next reader.peek) after) :
    PlacesAt text low good (advance >>= next) reader := by
  have lies := here.peek.1
  exact (places _ lies.le_stop lies reader.next here.next).earlier lies.le_stop

end PlacesAt

namespace Places

variable {good : Nat → α → Prop} {better : Nat → β → Prop}

theorem mono {parse : Parse α} {less : Nat → α → Prop} (places : Places text low good parse)
    (weaker : ∀ high value, low ≤ high → good high value → less high value) :
    Places text low less parse := by
  intro reader here
  obtain ⟨refused, read⟩ := places reader here
  refine ⟨refused, fun value after run => ?_⟩
  obtain ⟨high, behind, there, isGood⟩ := read value after run
  exact ⟨high, behind, there, weaker high value behind isGood⟩

theorem pure {value : α} (isGood : good low value) : Places text low good (Pure.pure value) := by
  refine fun reader here => ⟨by rintro _ ⟨⟩, ?_⟩
  rintro _ _ ⟨⟩
  exact ⟨low, Nat.le_refl _, here, isGood⟩

theorem throw {fault : Fault} (within : fault.span.In text) :
    Places text low good (throw fault : Parse α) := by
  refine fun reader here => ⟨?_, by rintro _ _ ⟨⟩⟩
  rintro _ ⟨⟩
  exact within

theorem refuse (cause : Cause) {span : Span} (within : span.In text) :
    Places text low good (refuse cause span : Parse α) := throw within

theorem bind {first : Parse α} {next : α → Parse β} (one : Places text low good first)
    (two : ∀ value middle, low ≤ middle → good middle value →
      Places text middle better (next value)) :
    Places text low better (first >>= next) :=
  fun reader here => .bind (one reader here) two

theorem view {next : Reader → Parse α}
    (places : ∀ reader : Reader, reader.From text low → Places text low good (next reader)) :
    Places text low good (get >>= next) := fun reader here => places reader here reader here

theorem peek {next : Token → Parse α}
    (places : ∀ token : Token, Lying text low token.span.stop.index token →
      Places text token.span.start.index good (next token)) :
    Places text low good (peek >>= next) := by
  intro reader here
  obtain ⟨lies, there⟩ := here.peek
  exact .peek ((places reader.peek lies reader there).earlier lies.starts)

theorem remaining {next : List Token → Parse α}
    (places : ∀ tokens, Places text low good (next tokens)) :
    Places text low good (remaining >>= next) := fun reader here => places reader.ahead reader here

theorem check (kind : TokenKind) {next : Bool → Parse α}
    (places : ∀ found, Places text low good (next found)) :
    Places text low good (check kind >>= next) := fun reader here => places _ reader here

theorem checkNext (kind : TokenKind) : Places text low anything (checkNext kind) := by
  refine fun reader here => ⟨by rintro _ ⟨⟩, ?_⟩
  rintro _ _ ⟨⟩
  exact ⟨low, Nat.le_refl _, here, trivial⟩

theorem advance : Places text low (Lying text low) advance := by
  refine fun reader here => ⟨by rintro _ ⟨⟩, ?_⟩
  rintro _ _ ⟨⟩
  have lies := here.peek.1
  exact ⟨_, lies.le_stop, here.next, lies⟩

theorem expect (kind : TokenKind) (what : Expected) :
    Places text low (Lying text low) (expect kind what) :=
  .check kind fun found => by
    cases found with
    | true => exact advance
    | false => exact .view fun reader here => .refuse _ here.missingSpan

theorem accept (kind : TokenKind) : Places text low anything (accept kind) :=
  .check kind fun found => by
    cases found with
    | true => exact .bind advance fun _ _ _ _ => .pure trivial
    | false => exact .pure trivial

theorem changed (change : Context → Context) : Places text low anything (changeContext change) := by
  refine fun reader here => ⟨by rintro _ ⟨⟩, ?_⟩
  rintro _ _ ⟨⟩
  exact ⟨low, Nat.le_refl _, here.inContext _, trivial⟩

theorem changeContext (change : Context → Context) {next : Unit → Parse α}
    (places : Places text low good (next ())) :
    Places text low good (changeContext change >>= next) :=
  fun _ here => places _ (here.inContext _)

/-- An alternative is given up as if it had not been tried. -/
theorem attempt {alternative : Parse (Option α)}
    (places : Places text low (Maybe good) alternative) :
    Places text low (Maybe good) (attempt alternative) := by
  intro reader here
  obtain ⟨refused, read⟩ := places reader here
  refine ⟨fun fault run => ?_, fun value after run => ?_⟩
  · exact refused fault (attempt_refused run)
  · cases value with
    | none =>
      obtain ⟨rfl, -⟩ := (attempt_none alternative reader after).mp run
      exact ⟨low, Nat.le_refl _, here, .none⟩
    | some result => exact read _ after ((attempt_some alternative reader after result).mp run)

theorem lookAhead {ahead : Parse α} (places : Places text low good ahead) :
    Places text low anything (do
      let before ← get
      let value ← ahead
      set before
      return value) := by
  intro reader here
  have refused := (places reader here).1
  refine ⟨fun fault run => ?_, fun value after run => ?_⟩
  · rw [bind_get] at run
    rcases bind_error run with failed | ⟨_, _, -, rest⟩
    · exact refused fault failed
    · cases rest
  · rw [bind_get] at run
    obtain ⟨_, _, _, rest⟩ := bind_ok run
    cases rest
    exact ⟨low, Nat.le_refl _, here, trivial⟩

section

variable {item : α → Parse α} {keeps : Nat → α → Prop}
  (widen : ∀ low high sofar, low ≤ high → keeps low sofar → keeps high sofar)
  (places : ∀ low sofar, keeps low sofar → Places text low keeps (item sofar))

include widen places

/-- What one item keeps, any number of them keeps. -/
theorem separated (rounds : List Token) {sofar : α} (kept : keeps low sofar) :
    Places text low keeps (separated item rounds sofar) := by
  induction rounds generalizing low sofar with
  | nil => exact places low sofar kept
  | cons token rounds ih =>
    refine .bind (places low sofar kept) fun more middle _ kept => ?_
    refine .bind (accept .comma) fun found high behind _ => ?_
    have kept := widen middle high more behind kept
    cases found with
    | true => exact ih kept
    | false => exact .pure kept

theorem commaSeparated {start : α} (kept : keeps low start) :
    Places text low keeps (commaSeparated item start) :=
  .remaining fun tokens => separated widen places tokens kept

end

end Places

end RobotScript.Grammar
