import RobotScript.Proofs.Joining.Readers
import RobotScript.Proofs.Rendering.Ladder

/-! # Readings that can be repeated

What a reading takes is a stretch of tokens, and what it makes of them depends on them
alone: wherever the same tokens are ahead in the same context, they are taken again, with
the same result. Of what stands behind them only the kind that comes next is looked at,
and where a statement or a pair of parentheses ends, every reading of an expression ends. -/
set_option autoImplicit false

namespace RobotScript.Grammar

/-! ## Stretches of tokens -/

/-- How much deeper in parentheses the tokens behind one of a kind are. -/
def nesting : TokenKind → Int
  | .leftParen => 1
  | .rightParen => -1
  | _ => 0

def excess (tokens : List Token) : Int := (tokens.map fun token => nesting token.kind).sum

@[simp] theorem excess_nil : excess [] = 0 := rfl

@[simp] theorem excess_cons (token : Token) (tokens : List Token) :
    excess (token :: tokens) = nesting token.kind + excess tokens := rfl

@[simp] theorem excess_append (first second : List Token) :
    excess (first ++ second) = excess first + excess second := by
  simp [excess]

/-- Tokens among which no statement ends and which close no parenthesis opened before
them. -/
structure Contained (tokens : List Token) : Prop where
  unended : ∀ token ∈ tokens, token.kind ≠ .semicolon
  shut : ∀ front rest, tokens = front ++ rest → 0 ≤ excess front

/-- Tokens among which no statement ends and behind which the level of parentheses is
another one, which is the lowest on the way. -/
structure Stretch (level : Int) (tokens : List Token) : Prop where
  unended : ∀ token ∈ tokens, token.kind ≠ .semicolon
  leads : excess tokens = level
  stays : ∀ front rest, tokens = front ++ rest → level ≤ excess front

namespace Stretch

variable {level total : Int} {token : Token} {tokens first second : List Token}

theorem nil : Stretch 0 [] := by
  refine ⟨by simp, rfl, ?_⟩
  intro front rest split
  rw [(List.append_eq_nil_iff.mp split.symm).1, excess_nil]

theorem level_le (stretch : Stretch level tokens) : level ≤ 0 := stretch.stays [] tokens rfl

theorem cons (unended : token.kind ≠ .semicolon) (leads : nesting token.kind + level = total)
    (low : total ≤ 0) (stretch : Stretch level tokens) : Stretch total (token :: tokens) := by
  refine ⟨?_, ?_, ?_⟩
  · simpa [unended] using stretch.unended
  · rw [excess_cons, stretch.leads, leads]
  · intro front rest split
    rcases List.cons_eq_append_iff.mp split with ⟨rfl, -⟩ | ⟨more, rfl, within⟩
    · exact low
    · have above := stretch.stays more rest within
      rw [excess_cons]
      omega

theorem append (one : Stretch 0 first) (two : Stretch level second) :
    Stretch level (first ++ second) := by
  refine ⟨?_, ?_, ?_⟩
  · intro token member
    rcases List.mem_append.mp member with member | member
    · exact one.unended token member
    · exact two.unended token member
  · rw [excess_append, one.leads, two.leads, Int.zero_add]
  · intro front rest split
    rcases List.append_eq_append_iff.mp split with ⟨more, rfl, within⟩ | ⟨more, within, -⟩
    · have above := two.stays more rest within
      rw [excess_append, one.leads]
      omega
    · exact Int.le_trans two.level_le (one.stays front more within)

theorem contained (stretch : Stretch 0 tokens) : Contained tokens :=
  ⟨stretch.unended, stretch.stays⟩

end Stretch

/-- Where a statement ends, or an expression in parentheses, every expression ends. -/
def Shut (kind : TokenKind) : Prop := kind = .semicolon ∨ kind = .rightParen

instance (kind : TokenKind) : Decidable (Shut kind) := inferInstanceAs (Decidable (_ ∨ _))

/-- What may come next instead of a kind, with nothing read differently before it. -/
def Follows (kind other : TokenKind) : Prop := other = kind ∨ Shut other

/-- Tokens at which nothing ends and that are no parentheses. -/
def Neutral (kind : TokenKind) : Prop :=
  kind ∉ [TokenKind.eof, .semicolon, .leftParen, .rightParen]

instance (kind : TokenKind) : Decidable (Neutral kind) := inferInstanceAs (Decidable (kind ∉ _))

namespace Neutral

variable {kind : TokenKind}

theorem goesOn (neutral : Neutral kind) : kind ≠ .eof := by
  rintro rfl
  exact absurd neutral (by decide)

theorem unended (neutral : Neutral kind) : kind ≠ .semicolon := by
  rintro rfl
  exact absurd neutral (by decide)

theorem nesting (neutral : Neutral kind) : Grammar.nesting kind = 0 := by
  unfold Grammar.nesting
  split
  · exact absurd neutral (by decide)
  · exact absurd neutral (by decide)
  · rfl

end Neutral

theorem Shut.not_neutral {kind : TokenKind} (shut : Shut kind) : ¬ Neutral kind := by
  rcases shut with rfl | rfl <;> decide

/-! ## Readings -/

/-- What a reading took, and that another one takes it again with the same result, from
every reader that sees the same declarations and has it ahead, with no more than so many
tokens in all. -/
structure Taken {α : Type} (most : Nat) (level : Int) (again : Parse α) (value : α)
    (context : Context) (reader after : Reader) (tokens : List Token) : Prop where
  stands : At context after
  ahead : reader.ahead = tokens ++ after.ahead
  stretch : Stretch level tokens
  again : ∀ ⦃twin : Reader⦄ ⦃rest : List Token⦄, Before context (tokens ++ rest) twin →
    (tokens ++ rest).length ≤ most → Follows (kindAhead after.ahead) (kindAhead rest) →
    ∃ stop, again twin = .ok (value, stop) ∧ Before context rest stop

/-- Whatever is read from this reader can be read again. With `takes` it is a token at
least. -/
def RereadsAt {α : Type} (most : Nat) (level : Int) (takes : Bool) (parse again : Parse α)
    (context : Context) (reader : Reader) : Prop :=
  ∀ value after, parse reader = .ok (value, after) →
    ∃ tokens, Taken most level again value context reader after tokens ∧
      (takes = true → tokens ≠ [])

def Rereads {α : Type} (most : Nat) (parse again : Parse α) : Prop :=
  ∀ context reader, At context reader → RereadsAt most 0 true parse again context reader

theorem At.before {context : Context} {reader : Reader} (here : At context reader) :
    Before context reader.ahead reader := ⟨here, rfl⟩

theorem Before.length {context : Context} {tokens : List Token} {reader : Reader}
    (here : Before context tokens reader) : reader.ahead.length = tokens.length :=
  congrArg List.length here.ahead

namespace RereadsAt

section

variable {α : Type} {most less : Nat} {level : Int} {takes : Bool} {context : Context}
variable {reader : Reader} {parse again : Parse α}

theorem length_le (reads : RereadsAt most level takes parse again context reader) {value : α}
    {after : Reader} (run : parse reader = .ok (value, after)) :
    after.ahead.length ≤ reader.ahead.length := by
  obtain ⟨tokens, taken, -⟩ := reads value after run
  rw [taken.ahead, List.length_append]
  exact Nat.le_add_left _ _

theorem length_lt (reads : RereadsAt most level true parse again context reader) {value : α}
    {after : Reader} (run : parse reader = .ok (value, after)) :
    after.ahead.length < reader.ahead.length := by
  obtain ⟨tokens, taken, grips⟩ := reads value after run
  rw [taken.ahead, List.length_append]
  exact Nat.lt_add_of_pos_left (List.length_pos_iff.mpr (grips rfl))

theorem fewer (reads : RereadsAt most level takes parse again context reader) (le : less ≤ most) :
    RereadsAt less level takes parse again context reader := by
  intro value after run
  obtain ⟨tokens, ⟨stands, ahead, stretch, repeats⟩, grips⟩ := reads value after run
  exact ⟨tokens, ⟨stands, ahead, stretch, fun _ _ there bound => repeats there (bound.trans le)⟩,
    grips⟩

theorem loose (reads : RereadsAt most level takes parse again context reader) :
    RereadsAt most level false parse again context reader := by
  intro value after run
  obtain ⟨tokens, taken, -⟩ := reads value after run
  exact ⟨tokens, taken, by rintro ⟨⟩⟩

theorem ofEmpty {any : Parse α} (reads : RereadsAt most level true parse any context reader) :
    RereadsAt 0 level true parse again context reader := by
  intro value after run
  obtain ⟨tokens, ⟨stands, ahead, stretch, -⟩, grips⟩ := reads value after run
  refine ⟨tokens, ⟨stands, ahead, stretch, fun twin rest there bound => ?_⟩, grips⟩
  have nothing := List.append_eq_nil_iff.mp (List.length_eq_zero_iff.mp (Nat.le_zero.mp bound))
  exact absurd nothing.1 (grips rfl)

theorem pure (here : At context reader) (value : α) :
    RereadsAt most 0 false (Pure.pure value) (Pure.pure value) context reader := by
  rintro _ _ ⟨⟩
  exact ⟨[], ⟨here, rfl, .nil, fun twin rest there _ _ => ⟨twin, rfl, there⟩⟩, by rintro ⟨⟩⟩

theorem still {value : α} (here : At context reader)
    (run : ∀ twin, At context twin → parse twin = .ok (value, twin)) :
    RereadsAt most 0 false parse parse context reader := by
  intro found after ran
  rw [run reader here] at ran
  cases ran
  exact ⟨[], ⟨here, rfl, .nil, fun twin rest there _ _ => ⟨twin, run twin there.toAt, there⟩⟩,
    by rintro ⟨⟩⟩

theorem throw (fault : Fault) :
    RereadsAt most level takes (throw fault : Parse α) again context reader := by
  rintro _ _ ⟨⟩

theorem refuse (cause : Cause) (span : Span) :
    RereadsAt most level takes (refuse cause span : Parse α) again context reader := throw _

/-- What comes next is told by the next kind, in a way in which all that may stand there
instead is alike. -/
theorem told {δ : Type} (tell : TokenKind → δ) {other otherAgain : Parse α}
    (blind : ∀ kind, Shut kind → tell kind = tell reader.peek.kind)
    (same : parse reader = other reader)
    (sameAgain : ∀ twin : Reader, tell twin.peek.kind = tell reader.peek.kind →
      again twin = otherAgain twin)
    (here : At context reader)
    (reads : RereadsAt most level takes other otherAgain context reader) :
    RereadsAt most level takes parse again context reader := by
  intro value after run
  obtain ⟨tokens, ⟨stands, ahead, stretch, repeats⟩, grips⟩ := reads value after (same ▸ run)
  refine ⟨tokens, ⟨stands, ahead, stretch, fun twin rest there bound follows => ?_⟩, grips⟩
  rw [sameAgain twin]
  · exact repeats there bound follows
  · rw [there.kind]
    rw [here.before.kind, ahead] at blind ⊢
    cases tokens with
    | nil =>
      rcases follows with same | shut
      · exact congrArg tell same
      · exact blind _ shut
    | cons token tokens => rfl

theorem seen {other otherAgain : Parse α} (same : parse reader = other reader)
    (sameAgain : ∀ twin : Reader, twin.peek = reader.peek → again twin = otherAgain twin)
    (here : At context reader)
    (reads : RereadsAt most level true other otherAgain context reader) :
    RereadsAt most level true parse again context reader := by
  intro value after run
  obtain ⟨tokens, ⟨stands, ahead, stretch, repeats⟩, grips⟩ := reads value after (same ▸ run)
  refine ⟨tokens, ⟨stands, ahead, stretch, fun twin rest there bound follows => ?_⟩, grips⟩
  rw [sameAgain twin]
  · exact repeats there bound follows
  · have before := here.before
    rw [ahead] at before
    cases tokens with
    | nil => exact absurd rfl (grips rfl)
    | cons token tokens => rw [there.peek, before.peek]

end

section

variable {α β : Type} {most : Nat} {level total : Int} {takes : Bool} {context : Context}
variable {reader : Reader} {first firstAgain : Parse β} {next last : β → Parse α}

/-- Two readings in sequence, of which one takes a token if both have to. Behind a first
one that does, there is a token less. -/
theorem sequence {less : Nat} {grips : Bool} (enough : most ≤ less + grips.toNat)
    (one : RereadsAt most 0 grips first firstAgain context reader)
    (two : ∀ value between, first reader = .ok (value, between) → At context between →
      RereadsAt less level takes (next value) (last value) context between) :
    RereadsAt most level (grips || takes) (first >>= next) (firstAgain >>= last) context
      reader := by
  intro result after run
  obtain ⟨value, between, ran, rest⟩ := bind_ok run
  obtain ⟨front, ⟨stands, ahead, stretch, repeats⟩, gripped⟩ := one value between ran
  obtain ⟨more, ⟨standsOn, aheadOn, stretchOn, repeatsOn⟩, taken⟩ :=
    two value between ran stands result after rest
  refine ⟨front ++ more, ⟨standsOn, ?_, stretch.append stretchOn, ?_⟩, ?_⟩
  · rw [ahead, aheadOn, List.append_assoc]
  · intro twin others there bound follows
    rw [List.append_assoc] at there bound
    have comes : Follows (kindAhead between.ahead) (kindAhead (more ++ others)) := by
      rw [aheadOn]
      cases more with
      | nil => exact follows
      | cons token more => exact .inl rfl
    obtain ⟨stop, runAgain, behind⟩ := repeats there bound comes
    have fewer : (more ++ others).length ≤ less := by
      have frontLength : grips.toNat ≤ front.length := by
        cases grips with
        | false => exact Nat.zero_le _
        | true => exact List.length_pos_iff.mpr (gripped rfl)
      rw [List.length_append] at bound
      omega
    obtain ⟨final, runOn, last⟩ := repeatsOn behind fewer follows
    exact ⟨final, (bind_of_ok runAgain _).trans runOn, last⟩
  · intro either nothing
    obtain ⟨noFront, noMore⟩ := List.append_eq_nil_iff.mp nothing
    rcases Bool.or_eq_true_iff.mp either with grips | takes
    · exact gripped grips noFront
    · exact taken takes noMore

theorem bind (one : RereadsAt most 0 takes first firstAgain context reader)
    (two : ∀ value between, first reader = .ok (value, between) → At context between →
      RereadsAt most level false (next value) (last value) context between) :
    RereadsAt most level takes (first >>= next) (firstAgain >>= last) context reader := by
  have both := one.sequence (Nat.le_add_right _ _) two
  rwa [Bool.or_false] at both

theorem before (one : RereadsAt most 0 false first firstAgain context reader)
    (two : ∀ value between, first reader = .ok (value, between) → At context between →
      RereadsAt most level takes (next value) (last value) context between) :
    RereadsAt most level takes (first >>= next) (firstAgain >>= last) context reader :=
  one.sequence (Nat.le_add_right _ _) two

theorem behind (one : RereadsAt most 0 true first firstAgain context reader)
    (two : ∀ value between, first reader = .ok (value, between) → At context between →
      RereadsAt (most - 1) level false (next value) (last value) context between) :
    RereadsAt most level true (first >>= next) (firstAgain >>= last) context reader :=
  one.sequence (Nat.le_add_of_sub_le (Nat.le_refl _)) two

theorem step {value : β} (here : At context reader) (left : reader.ahead ≠ [])
    (unended : reader.peek.kind ≠ .semicolon) (leads : nesting reader.peek.kind + level = total)
    (low : level ≤ 0 → total ≤ 0) (runs : first reader = .ok (value, reader.next))
    (runsAgain : ∀ twin : Reader, twin.peek = reader.peek →
      firstAgain twin = .ok (value, twin.next))
    (rest : RereadsAt (most - 1) level false (next value) (last value) context reader.next) :
    RereadsAt most total takes (first >>= next) (firstAgain >>= last) context reader := by
  intro result after run
  rw [bind_of_ok runs] at run
  obtain ⟨tokens, ⟨stands, ahead, stretch, repeats⟩, -⟩ := rest result after run
  have before := here.before
  cases isAhead : reader.ahead with
  | nil => exact absurd isAhead left
  | cons token others =>
    rw [isAhead] at before
    rw [before.peek] at unended leads
    rw [before.next.ahead] at ahead
    refine ⟨token :: tokens,
      ⟨stands, ?_, stretch.cons unended leads (low stretch.level_le), ?_⟩, fun _ => by simp⟩
    · rw [isAhead, ahead, List.cons_append]
    · intro twin more there bound follows
      have same : twin.peek = reader.peek := there.peek.trans before.peek.symm
      have less : (tokens ++ more).length ≤ most - 1 := Nat.le_sub_one_of_lt bound
      obtain ⟨stop, runAgain, behind⟩ := repeats there.next less follows
      exact ⟨stop, (bind_of_ok (runsAgain twin same) _).trans runAgain, behind⟩

theorem stepOver {value : β} (here : At context reader) (neutral : Neutral reader.peek.kind)
    (runs : first reader = .ok (value, reader.next))
    (runsAgain : ∀ twin : Reader, twin.peek = reader.peek →
      firstAgain twin = .ok (value, twin.next))
    (rest : RereadsAt (most - 1) level false (next value) (last value) context reader.next) :
    RereadsAt most level takes (first >>= next) (firstAgain >>= last) context reader := by
  refine step here (here.ahead_ne_nil neutral.goesOn) neutral.unended ?_ id runs runsAgain rest
  rw [neutral.nesting, Int.zero_add]

end

section

variable {α : Type} {most : Nat} {level total : Int} {takes : Bool} {context : Context}
variable {reader : Reader}

theorem peek {next last : Token → Parse α} (here : At context reader)
    (reads : RereadsAt most level true (next reader.peek) (last reader.peek) context reader) :
    RereadsAt most level true (Grammar.peek >>= next) (Grammar.peek >>= last) context reader :=
  .seen (bind_peek next reader) (fun twin same => same ▸ bind_peek last twin) here reads

theorem check {kind : TokenKind} {next last : Bool → Parse α} (here : At context reader)
    (reads : RereadsAt most level true (next (reader.peek.kind = kind))
      (last (reader.peek.kind = kind)) context reader) :
    RereadsAt most level true (Grammar.check kind >>= next) (Grammar.check kind >>= last) context
      reader :=
  .seen (bind_check kind next reader) (fun twin same => same ▸ bind_check kind last twin) here reads

theorem take {next last : Token → Parse α} (here : At context reader)
    (neutral : Neutral reader.peek.kind)
    (rest : RereadsAt (most - 1) level false (next reader.peek) (last reader.peek) context
      reader.next) :
    RereadsAt most level takes (advance >>= next) (advance >>= last) context reader :=
  stepOver here neutral (advance_run reader) (fun twin same => same ▸ advance_run twin) rest

theorem expect {kind : TokenKind} {what : Expected} {next last : Token → Parse α}
    (here : At context reader) (goesOn : kind ≠ .eof) (unended : kind ≠ .semicolon)
    (leads : nesting kind + level = total) (low : level ≤ 0 → total ≤ 0)
    (rest : RereadsAt (most - 1) level false (next reader.peek) (last reader.peek) context
      reader.next) :
    RereadsAt most total takes (Grammar.expect kind what >>= next)
      (Grammar.expect kind what >>= last) context reader := by
  by_cases isHere : reader.peek.kind = kind
  · subst isHere
    refine step here (here.ahead_ne_nil goesOn) unended leads low (expect_here what rfl) ?_ rest
    intro twin same
    rw [← same]
    exact expect_here what rfl
  · intro value after run
    rw [bind_expect, if_neg isHere] at run
    cases run

theorem accept {kind : TokenKind} {next last : Bool → Parse α} (here : At context reader)
    (goesOn : kind ≠ .eof) (within : ¬ Shut kind) (leads : nesting kind + level = total)
    (low : level ≤ 0 → total ≤ 0)
    (found : At context reader.next →
      RereadsAt (most - 1) level false (next true) (last true) context reader.next)
    (absent : RereadsAt most total takes (next false) (last false) context reader) :
    RereadsAt most total takes (Grammar.accept kind >>= next) (Grammar.accept kind >>= last)
      context reader := by
  by_cases isHere : reader.peek.kind = kind
  · have rest := found here.next
    subst isHere
    refine step here (here.ahead_ne_nil goesOn) ?_ leads low (accept_here rfl) ?_ rest
    · exact fun ends => within (.inl ends)
    · intro twin same
      rw [← same]
      exact accept_here rfl
  · refine told (fun other => decide (other = kind)) ?_ ?_ ?_ here absent
    · intro other shut
      have differs : other ≠ kind := fun same => within (same ▸ shut)
      rw [decide_eq_false differs, decide_eq_false isHere]
    · rw [bind_accept, if_neg isHere]
    · intro twin same
      rw [decide_eq_false isHere] at same
      rw [bind_accept, if_neg (of_decide_eq_false same)]

theorem remaining {next last : List Token → Parse α}
    (reads : ∀ less others, less ≤ most → less ≤ others.length →
      RereadsAt less level takes (next reader.ahead) (last others) context reader) :
    RereadsAt most level takes (remaining >>= next) (remaining >>= last) context reader := by
  intro value after run
  obtain ⟨tokens, ⟨stands, ahead, stretch, -⟩, grips⟩ :=
    reads 0 [] (Nat.zero_le _) (Nat.le_refl _) value after run
  refine ⟨tokens, ⟨stands, ahead, stretch, fun twin rest there bound follows => ?_⟩, grips⟩
  obtain ⟨same, ⟨-, aheadToo, -, repeats⟩, -⟩ :=
    reads _ twin.ahead bound (Nat.le_of_eq there.length.symm) value after run
  obtain rfl := List.append_cancel_right (ahead.symm.trans aheadToo)
  exact repeats there (Nat.le_refl _) follows

/-- An alternative that takes one token if it does not fit, and what is read then. -/
theorem attempt {form formAgain : Parse (Option Node)} {others othersAgain : Parse Node}
    (forms : RereadsAt most 0 true form formAgain context reader)
    (given : ∀ between, form reader = .ok (none, between) → between = reader.next)
    (rests : RereadsAt most 0 true others othersAgain context reader) :
    RereadsAt most 0 true
      (do
        match ← Grammar.attempt form with
        | some node => return node
        | none => others)
      (do
        match ← Grammar.attempt formAgain with
        | some node => return node
        | none => othersAgain) context reader := by
  intro node after run
  obtain ⟨found, between, formRun, rest⟩ := bind_ok run
  cases found with
  | some fitting =>
    cases rest
    obtain ⟨tokens, ⟨stands, ahead, stretch, repeats⟩, grips⟩ :=
      forms _ _ ((attempt_some _ _ _ _).mp formRun)
    refine ⟨tokens, ⟨stands, ahead, stretch, fun twin rest there bound follows => ?_⟩, grips⟩
    obtain ⟨stop, runAgain, behind⟩ := repeats there bound follows
    refine ⟨stop, ?_, behind⟩
    rw [bind_of_ok ((attempt_some _ _ _ _).mpr runAgain)]
    rfl
  | none =>
    obtain ⟨rfl, misfit, misfits⟩ := (attempt_none _ _ _).mp formRun
    obtain ⟨front, ⟨-, formAhead, -, formRepeats⟩, -⟩ := forms _ _ misfits
    obtain rfl := given misfit misfits
    obtain ⟨tokens, ⟨stands, ahead, stretch, repeats⟩, grips⟩ := rests _ _ rest
    refine ⟨tokens, ⟨stands, ahead, stretch, fun twin more there bound follows => ?_⟩, grips⟩
    obtain ⟨stop, runAgain, behind⟩ := repeats there bound follows
    refine ⟨stop, ?_, behind⟩
    -- what the alternative took is the first of the tokens that are taken now
    cases tokens with
    | nil => exact absurd rfl (grips rfl)
    | cons token tokens =>
      have isFront : front = [token] := by
        rw [Reader.next, ahead, List.cons_append] at formAhead
        have split : [token] ++ (tokens ++ after.ahead) = front ++ (tokens ++ after.ahead) :=
          formAhead
        exact (List.append_cancel_right split).symm
      subst isFront
      have comes : Follows (kindAhead between.next.ahead) (kindAhead (tokens ++ more)) := by
        rw [Reader.next, ahead, List.cons_append]
        cases tokens with
        | nil => exact follows
        | cons second tokens => exact .inl rfl
      obtain ⟨given, misfitsAgain, -⟩ := formRepeats there bound comes
      rw [bind_of_ok ((attempt_none _ _ _).mpr ⟨rfl, given, misfitsAgain⟩)]
      exact runAgain

end

end RereadsAt

theorem Rereads.fewer {α : Type} {most less : Nat} {parse again : Parse α}
    (reads : Rereads most parse again) (le : less ≤ most) : Rereads less parse again :=
  fun context reader here => (reads context reader here).fewer le

end RobotScript.Grammar
