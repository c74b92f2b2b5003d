import RobotScript.Proofs.Reading.Steps

/-! # Readings that persist

A longer reader has the tokens of a reader ahead, up to their spans, and a tail of
more tokens behind them. A reading persists if it gives the same on the longer reader,
up to spans, and leaves the tail as it is. Most readings persist only if they stop
before the end of their tokens, where the longer reader may go on; what takes a token
of its own to end persists as a whole. -/
set_option autoImplicit false

namespace RobotScript

/-- What is left of a token when it is forgotten where it stood. -/
def Token.bare (token : Token) : TokenKind × String := (token.kind, token.lexeme)

namespace Token

variable {first second : Token}

theorem kind_eq (same : first.bare = second.bare) : first.kind = second.kind :=
  congrArg Prod.fst same

theorem lexeme_eq (same : first.bare = second.bare) : first.lexeme = second.lexeme :=
  congrArg Prod.snd same

end Token

namespace Grammar

/-! ## Readers -/

/-- A reader with the same tokens ahead and the tail behind them. -/
structure Reader.Longer (tail : List Token) (reader longer : Reader) : Prop where
  ahead : longer.ahead.map Token.bare = (reader.ahead ++ tail).map Token.bare
  finish : longer.finish.bare = reader.finish.bare
  ends : reader.finish.kind = .eof
  context : longer.context = reader.context

structure Reader.Leads (reader after : Reader) : Prop where
  ahead : after.ahead <:+ reader.ahead
  finish : after.finish = reader.finish

/-- What comes next is not the tail. -/
def Room (tail : List Token) (reader : Reader) : Prop := tail = [] ∨ reader.ahead ≠ []

namespace Reader

variable {tail : List Token} {reader longer between after : Reader}

theorem ahead_of_kind (ends : reader.finish.kind = .eof) (kind : reader.peek.kind ≠ .eof) :
    reader.ahead ≠ [] := by
  intro empty
  rw [peek, empty] at kind
  exact kind ends

theorem next_ahead (reader : Reader) : reader.next.ahead = reader.ahead.tail := by
  rw [next]
  cases ahead : reader.ahead with
  | nil => exact ahead
  | cons token rest => rfl

theorem next_finish (reader : Reader) : reader.next.finish = reader.finish := by
  rw [next]
  split <;> rfl

theorem next_context (reader : Reader) : reader.next.context = reader.context := by
  rw [next]
  split <;> rfl

namespace Leads

theorem refl (reader : Reader) : reader.Leads reader := ⟨List.suffix_refl _, rfl⟩

theorem trans (first : reader.Leads between) (second : between.Leads after) :
    reader.Leads after :=
  ⟨second.ahead.trans first.ahead, second.finish.trans first.finish⟩

theorem next (reader : Reader) : reader.Leads reader.next :=
  ⟨reader.next_ahead ▸ List.tail_suffix reader.ahead, reader.next_finish⟩

theorem length_le (leads : reader.Leads after) : after.ahead.length ≤ reader.ahead.length :=
  leads.ahead.length_le

theorem room (leads : reader.Leads after) (room : Room tail after) : Room tail reader := by
  refine room.imp_right fun left empty => left ?_
  exact List.suffix_nil.mp (empty ▸ leads.ahead)

end Leads

namespace Longer

theorem extended (tail : List Token) (ends : reader.finish.kind = .eof) :
    reader.Longer tail { reader with ahead := reader.ahead ++ tail } := ⟨rfl, rfl, ends, rfl⟩

theorem refl (ends : reader.finish.kind = .eof) : reader.Longer [] reader :=
  ⟨by rw [List.append_nil], rfl, ends, rfl⟩

theorem length (more : reader.Longer tail longer) :
    longer.ahead.length = reader.ahead.length + tail.length := by
  have same := congrArg List.length more.ahead
  simpa only [List.length_map, List.length_append] using same

theorem peek (more : reader.Longer tail longer) (room : Room tail reader) :
    longer.peek.bare = reader.peek.bare := by
  have same := more.ahead
  rw [Reader.peek, Reader.peek]
  cases ahead : reader.ahead with
  | nil =>
    obtain rfl := room.resolve_right fun left => left ahead
    rw [ahead] at same
    rw [List.map_eq_nil_iff.mp same]
    exact more.finish
  | cons token rest =>
    rw [ahead, List.cons_append, List.map_cons] at same
    obtain ⟨twin, others, twins, alike, -⟩ := List.map_eq_cons_iff.mp same
    rw [twins]
    exact alike

theorem next (more : reader.Longer tail longer) (room : Room tail reader) :
    reader.next.Longer tail longer.next := by
  refine ⟨?_, ?_, ?_, ?_⟩
  · rw [next_ahead, next_ahead, List.map_tail, more.ahead, ← List.map_tail]
    cases ahead : reader.ahead with
    | nil =>
      obtain rfl := room.resolve_right fun left => left ahead
      rfl
    | cons token rest => rfl
  · rw [next_finish, next_finish, more.finish]
  · rw [next_finish, more.ends]
  · rw [next_context, next_context, more.context]

theorem kind (more : reader.Longer tail longer) (room : Room tail reader) :
    longer.peek.kind = reader.peek.kind := Token.kind_eq (more.peek room)

theorem leads (more : reader.Longer tail longer) (leads : reader.Leads after) :
    after.finish.kind = .eof := leads.finish ▸ more.ends

end Longer

end Reader

/-! ## Readings -/

/-- A reading and a longer one, from two readers. With `takes` it takes a token at
least, and as a `whole` it persists even if it goes up to the end. -/
def PersistsAt (tail : List Token) (whole takes : Bool) {α β : Type} (view : α → β)
    (parse other : Parse α) (reader longer : Reader) : Prop :=
  ∀ value after, parse reader = .ok (value, after) →
    reader.Leads after ∧ (takes = true → after.ahead.length < reader.ahead.length) ∧
      (whole = true ∨ Room tail after → ∃ twin further, other longer = .ok (twin, further) ∧
        view twin = view value ∧ after.Longer tail further)

def Persists (tail : List Token) (whole takes : Bool) {α β : Type} (view : α → β)
    (parse other : Parse α) : Prop :=
  ∀ reader longer, reader.Longer tail longer →
    PersistsAt tail whole takes view parse other reader longer

section

variable {tail : List Token} {whole takes : Bool} {α β γ δ : Type}
variable {view : α → β} {shown : γ → δ} {reader longer : Reader}

namespace PersistsAt

variable {parse other : Parse α} {next last : α → Parse γ}

/-- Two readings in sequence: the first may go up to the end if the second takes a
token or if it persists as a whole itself. -/
theorem sequence {firm grips : Bool} (more : reader.Longer tail longer)
    (first : PersistsAt tail firm grips view parse other reader longer)
    (second : ∀ value twin between further, view twin = view value →
      parse reader = .ok (value, between) → between.Longer tail further →
      PersistsAt tail whole takes shown (next value) (last twin) between further)
    (enough : whole = true → firm = true ∨ takes = true) :
    PersistsAt tail whole (grips || takes) shown (parse >>= next) (other >>= last) reader
      longer := by
  intro result after run
  obtain ⟨value, between, ran, rest⟩ := bind_ok run
  obtain ⟨leads, gripped, alike⟩ := first value between ran
  obtain ⟨leadsOn, taken, -⟩ := second value value between _ rfl ran
    (.extended tail (more.leads leads)) result after rest
  refine ⟨leads.trans leadsOn, fun either => ?_, fun room => ?_⟩
  · rcases Bool.or_eq_true_iff.mp either with grips | takes
    · exact Nat.lt_of_le_of_lt leadsOn.length_le (gripped grips)
    · exact Nat.lt_of_lt_of_le (taken takes) leads.length_le
  · have early : firm = true ∨ Room tail between := by
      rcases room with isWhole | room
      · refine (enough isWhole).imp_right fun takes => .inr ?_
        exact List.length_pos_iff.mp (Nat.zero_lt_of_lt (taken takes))
      · exact .inr (leadsOn.room room)
    obtain ⟨twin, further, otherRan, same, moreBetween⟩ := alike early
    obtain ⟨-, -, alikeOn⟩ := second value twin between further same ran moreBetween result after rest
    obtain ⟨made, stop, lastRan, sameMade, moreAfter⟩ := alikeOn room
    exact ⟨made, stop, (bind_of_ok otherRan last).trans lastRan, sameMade, moreAfter⟩

theorem bind (more : reader.Longer tail longer)
    (first : PersistsAt tail whole takes view parse other reader longer)
    (second : ∀ value twin between further, view twin = view value →
      parse reader = .ok (value, between) → between.Longer tail further →
      PersistsAt tail whole false shown (next value) (last twin) between further) :
    PersistsAt tail whole takes shown (parse >>= next) (other >>= last) reader longer := by
  have both := sequence more first second .inl
  rwa [Bool.or_false] at both

theorem pure {value twin : α} (more : reader.Longer tail longer) (same : view twin = view value) :
    PersistsAt tail whole false view (Pure.pure value) (Pure.pure twin) reader longer := by
  rintro _ _ ⟨⟩
  exact ⟨.refl reader, (by rintro ⟨⟩), fun _ => ⟨twin, longer, rfl, same, more⟩⟩

theorem refuse (cause : Cause) (span : Span) :
    PersistsAt tail whole takes view (refuse cause span) other reader longer := by
  rintro _ _ ⟨⟩

theorem loose (persists : PersistsAt tail whole takes view parse other reader longer) :
    PersistsAt tail false false view parse other reader longer := by
  intro value after run
  obtain ⟨leads, -, alike⟩ := persists value after run
  refine ⟨leads, (by rintro ⟨⟩), fun room => alike (.inr (room.resolve_left ?_))⟩
  rintro ⟨⟩

theorem ungripped (persists : PersistsAt tail whole takes view parse other reader longer) :
    PersistsAt tail whole false view parse other reader longer := by
  intro value after run
  obtain ⟨leads, -, alike⟩ := persists value after run
  exact ⟨leads, (by rintro ⟨⟩), alike⟩

theorem inPart (persists : PersistsAt tail true takes view parse other reader longer) :
    PersistsAt tail whole takes view parse other reader longer := by
  intro value after run
  obtain ⟨leads, taken, alike⟩ := persists value after run
  exact ⟨leads, taken, fun _ => alike (.inl rfl)⟩

/-- Where nothing is ahead but the tail, a reading cannot stop before the end. -/
theorem atEnd {any : Parse α} (empty : reader.ahead = []) (behind : tail ≠ [])
    (persists : PersistsAt tail whole takes view parse other reader longer) :
    PersistsAt tail false takes view parse any reader longer := by
  intro value after run
  obtain ⟨leads, taken, -⟩ := persists value after run
  refine ⟨leads, taken, fun room => ?_⟩
  rcases room with ⟨⟨⟩⟩ | nothing | left
  · exact absurd nothing behind
  · exact absurd (List.suffix_nil.mp (empty ▸ leads.ahead)) left

end PersistsAt

namespace Persists

variable {parse other : Parse α} {next last : α → Parse γ}

theorem bind (first : Persists tail whole takes view parse other)
    (second : ∀ value twin, view twin = view value →
      Persists tail whole false shown (next value) (last twin)) :
    Persists tail whole takes shown (parse >>= next) (other >>= last) :=
  fun reader longer more => .bind more (first reader longer more)
    fun value twin between further same _ moreBetween =>
      second value twin same between further moreBetween

theorem before (first : Persists tail false false view parse other)
    (second : ∀ value twin, view twin = view value →
      Persists tail whole true shown (next value) (last twin)) :
    Persists tail whole true shown (parse >>= next) (other >>= last) :=
  fun reader longer more => .sequence more (first reader longer more)
    (fun value twin between further same _ moreBetween =>
      second value twin same between further moreBetween) fun _ => .inr rfl

theorem bindSame (first : Persists tail whole takes id parse other)
    (second : ∀ value, Persists tail whole false shown (next value) (last value)) :
    Persists tail whole takes shown (parse >>= next) (other >>= last) :=
  .bind first fun value twin same => by
    obtain rfl : twin = value := same
    exact second twin

theorem beforeSame (first : Persists tail false false id parse other)
    (second : ∀ value, Persists tail whole true shown (next value) (last value)) :
    Persists tail whole true shown (parse >>= next) (other >>= last) :=
  .before first fun value twin same => by
    obtain rfl : twin = value := same
    exact second twin

theorem pure {value twin : α} (same : view twin = view value) :
    Persists tail whole false view (Pure.pure value) (Pure.pure twin) :=
  fun _ _ more => .pure more same

theorem refuse (cause : Cause) (span : Span) :
    Persists tail whole takes view (refuse cause span) other :=
  fun _ _ _ => .refuse cause span

theorem get {next last : Reader → Parse α}
    (persists : ∀ reader longer : Reader, longer.context = reader.context →
      Persists tail whole takes view (next reader) (last longer)) :
    Persists tail whole takes view (MonadState.get >>= next) (MonadState.get >>= last) :=
  fun reader longer more => persists reader longer more.context reader longer more

theorem ite {condition : Prop} [Decidable condition] {parse' other' : Parse α}
    (holds : condition → Persists tail whole takes view parse other)
    (fails : ¬ condition → Persists tail whole takes view parse' other') :
    Persists tail whole takes view (if condition then parse else parse')
      (if condition then other else other') := by
  by_cases here : condition
  · rw [if_pos here, if_pos here]
    exact holds here
  · rw [if_neg here, if_neg here]
    exact fails here

theorem loose (persists : Persists tail whole takes view parse other) :
    Persists tail false false view parse other :=
  fun reader longer more => (persists reader longer more).loose

theorem ungripped (persists : Persists tail whole takes view parse other) :
    Persists tail whole false view parse other :=
  fun reader longer more => (persists reader longer more).ungripped

theorem inPart (persists : Persists tail true takes view parse other) :
    Persists tail whole takes view parse other :=
  fun reader longer more => (persists reader longer more).inPart

end Persists

/-! ## Steps -/

theorem peek_persists : Persists tail false false Token.bare peek peek := by
  rintro reader longer more _ _ ⟨⟩
  refine ⟨.refl reader, (by rintro ⟨⟩), fun room => ?_⟩
  have room := room.resolve_left (by rintro ⟨⟩)
  exact ⟨longer.peek, longer, rfl, more.peek room, more⟩

theorem check_persists (kind : TokenKind) :
    Persists tail false false id (check kind) (check kind) :=
  .bind peek_persists fun _ _ same => .pure (congrArg (decide <| · = kind) (Token.kind_eq same))

theorem check_ok {kind : TokenKind} {found : Bool} {between : Reader}
    (run : check kind reader = .ok (found, between)) :
    between = reader ∧ found = decide (reader.peek.kind = kind) := by
  cases run
  exact ⟨rfl, rfl⟩

theorem next_shorter (left : reader.ahead ≠ []) :
    reader.next.ahead.length < reader.ahead.length := by
  rw [reader.next_ahead, List.length_tail]
  exact Nat.sub_lt (List.length_pos_iff.mpr left) Nat.one_pos

theorem advance_persists : Persists tail false false Token.bare advance advance := by
  rintro reader longer more _ _ ⟨⟩
  refine ⟨.next reader, (by rintro ⟨⟩), fun room => ?_⟩
  have room := (Reader.Leads.next reader).room (room.resolve_left (by rintro ⟨⟩))
  exact ⟨longer.peek, longer.next, rfl, more.peek room, more.next room⟩

theorem advance_here (more : reader.Longer tail longer) (left : reader.ahead ≠ []) :
    PersistsAt tail true true Token.bare advance advance reader longer := by
  rintro _ _ ⟨⟩
  refine ⟨.next reader, fun _ => next_shorter left, fun _ => ?_⟩
  exact ⟨longer.peek, longer.next, rfl, more.peek (.inr left), more.next (.inr left)⟩

theorem expect_persists {kind : TokenKind} (token : kind ≠ .eof) (what : Expected) :
    Persists tail true true Token.bare (expect kind what) (expect kind what) := by
  intro reader longer more value after run
  by_cases here : reader.peek.kind = kind
  · have left := Reader.ahead_of_kind more.ends (here.symm ▸ token)
    have hereToo := (more.kind (.inr left)).trans here
    rw [expect_here what here] at run
    rw [expect_here what hereToo]
    exact advance_here more left value after run
  · rw [expect_absent what here] at run
    cases run

/-- A token that may stand here persists as a whole if the tail does not begin with
one. -/
theorem accept_at {kind : TokenKind} (token : kind ≠ .eof) (more : reader.Longer tail longer)
    (absent : whole = true → reader.ahead = [] → longer.peek.kind ≠ kind) :
    PersistsAt tail whole false id (accept kind) (accept kind) reader longer := by
  intro value after run
  by_cases here : reader.peek.kind = kind
  · have left := Reader.ahead_of_kind more.ends (here.symm ▸ token)
    have hereToo := (more.kind (.inr left)).trans here
    rw [accept_here here] at run
    cases run
    refine ⟨.next reader, (by rintro ⟨⟩), fun _ => ?_⟩
    exact ⟨true, longer.next, accept_here hereToo, rfl, more.next (.inr left)⟩
  · rw [accept_absent here] at run
    cases run
    refine ⟨.refl reader, (by rintro ⟨⟩), fun room => ⟨false, longer, accept_absent ?_, rfl, more⟩⟩
    by_cases empty : reader.ahead = []
    · rcases room with isWhole | room
      · exact absent isWhole empty
      · exact more.kind room ▸ here
    · exact more.kind (.inr empty) ▸ here

theorem accept_persists {kind : TokenKind} (token : kind ≠ .eof) :
    Persists tail false false id (accept kind) (accept kind) :=
  fun _ _ more => accept_at token more (by rintro ⟨⟩)

theorem changeContext_persists (change : Context → Context) :
    Persists tail whole false id (changeContext change) (changeContext change) := by
  rintro reader longer more _ _ ⟨⟩
  refine ⟨⟨List.suffix_refl _, rfl⟩, (by rintro ⟨⟩), fun _ => ?_⟩
  exact ⟨(), _, rfl, rfl, more.ahead, more.finish, more.ends, congrArg change more.context⟩

/-! ## Loops -/

/-- The rounds of a loop before a reader, and those before a longer one. -/
structure Rounds (tail : List Token) (reader : Reader) (rounds others : List Token) : Prop where
  enough : reader.ahead.length ≤ rounds.length
  others : others.length = rounds.length + tail.length

namespace Rounds

variable {rounds others : List Token} {round : Token}

theorem empty (left : Rounds tail reader [] others) : reader.ahead = [] :=
  List.length_eq_zero_iff.mp (Nat.le_zero.mp left.enough)

theorem othersNil (left : Rounds [] reader [] others) : others = [] :=
  List.length_eq_zero_iff.mp left.others

theorem uncons (left : Rounds tail reader (round :: rounds) others) :
    ∃ other rest, others = other :: rest ∧
      ∀ after : Reader, after.ahead.length < reader.ahead.length →
        Rounds tail after rounds rest := by
  cases others with
  | nil =>
    have lengths := left.others
    rw [List.length_nil, List.length_cons] at lengths
    omega
  | cons other rest =>
    refine ⟨other, rest, rfl, fun after shorter => ⟨?_, ?_⟩⟩
    · exact Nat.le_of_lt_succ (Nat.lt_of_lt_of_le shorter left.enough)
    · have lengths := left.others
      rw [List.length_cons, List.length_cons] at lengths
      omega

/-- When no round is left there is only the tail, in which no reading stops early. -/
theorem last {takes : Bool} {parse : Parse α} (left : Rounds tail reader [] others)
    (loop : List Token → Parse α)
    (persists : PersistsAt tail false takes view parse (loop []) reader longer) :
    PersistsAt tail false takes view parse (loop others) reader longer := by
  by_cases behind : tail = []
  · subst behind
    rw [left.othersNil]
    exact persists
  · exact .atEnd left.empty behind persists

end Rounds

theorem accept_shorter {kind : TokenKind} {between : Reader} (token : kind ≠ .eof)
    (ends : reader.finish.kind = .eof) (run : accept kind reader = .ok (true, between)) :
    between.ahead.length < reader.ahead.length := by
  by_cases here : reader.peek.kind = kind
  · rw [accept_here here] at run
    cases run
    exact next_shorter (Reader.ahead_of_kind ends (here.symm ▸ token))
  · rw [accept_absent here] at run
    cases run

theorem remaining_persists {next last : List Token → Parse α}
    (persists : ∀ reader longer rounds others, reader.Longer tail longer →
      Rounds tail reader rounds others →
      PersistsAt tail whole takes view (next rounds) (last others) reader longer) :
    Persists tail whole takes view (remaining >>= next) (remaining >>= last) :=
  fun reader longer more => persists reader longer reader.ahead longer.ahead more
    ⟨Nat.le_refl _, more.length⟩

end

end Grammar

end RobotScript
