import RobotScript.Proofs.Walking.Steps

/-! # Walks and readings

A walk mirrors a reading if it comes to an end from the cursor as the reading does from what a
reader sees there: with the same value at the same token, or with the same fault. It never
goes back behind the token that it began at and never beyond the first end token. -/
set_option autoImplicit false

namespace RobotScript.Grammar

/-- A walk that takes a token at least, if one is to be taken, and a reading. -/
inductive Mirrors {α : Type} (takes : Bool) (walk : Walk α) (parse : Parse α) (cursor : Cursor) :
    Prop where
  | ends {value : α} {after : Cursor} (walked : walk cursor = some (.ok value, after))
      (read : parse cursor.reader = .ok (value, after.reader))
      (reaches : cursor.Reaches takes after)
  | fails {fault : Fault} {after : Cursor} (walked : walk cursor = some (.error fault, after))
      (read : parse cursor.reader = .error fault) (onward : cursor.Onward after)

theorem bind_of_error {α β : Type} {first : Parse α} {reader : Reader} {fault : Fault}
    (run : first reader = .error fault) (next : α → Parse β) :
    (first >>= next) reader = .error fault := by
  change (first reader >>= fun pair => next pair.1 pair.2) = _
  rw [run]
  rfl

/-- A step of reading that goes by what is declared and by nothing else. -/
def Blind {α : Type} (step : Parse α) : Prop :=
  ∀ reader : Reader, step reader =
    (step (.ofTokens [] reader.context)).map fun ended =>
      (ended.1, { reader with context := ended.2.context })

namespace Mirrors

variable {α β : Type} {takes : Bool} {cursor : Cursor} {walk : Walk α} {parse : Parse α}
  {next : α → Walk β} {goOn : α → Parse β}

theorem of_walk {value : α} {after : Cursor} (mirrors : Mirrors takes walk parse cursor)
    (walked : walk cursor = some (.ok value, after)) :
    parse cursor.reader = .ok (value, after.reader) ∧ cursor.Reaches takes after := by
  cases mirrors with
  | ends walkedOn read reaches =>
    rw [walked] at walkedOn
    cases walkedOn
    exact ⟨read, reaches⟩
  | fails walkedOn read onward =>
    rw [walked] at walkedOn
    cases walkedOn

theorem loose (mirrors : Mirrors true walk parse cursor) : Mirrors takes walk parse cursor := by
  cases mirrors with
  | ends walked read reaches =>
    refine .ends walked read { reaches with taken := ?_ }
    exact Nat.le_trans (Nat.add_le_add_left takes.toNat_le _) reaches.taken
  | fails walked read onward => exact .fails walked read onward

theorem later {grips : Bool} {between : Cursor} {walk' : Walk β} {parse' : Parse β}
    {further : Walk β} {furtherOn : Parse β} (reaches : cursor.Reaches grips between)
    (walked : walk' cursor = further between)
    (read : parse' cursor.reader = furtherOn between.reader)
    (mirrors : Mirrors takes further furtherOn between) :
    Mirrors (grips || takes) walk' parse' cursor := by
  cases mirrors with
  | ends walkedOn readOn reachesOn =>
    exact .ends (walked.trans walkedOn) (read.trans readOn) (reaches.trans reachesOn)
  | fails walkedOn readOn onward =>
    exact .fails (walked.trans walkedOn) (read.trans readOn) (reaches.toOnward.trans onward)

theorem bind (first : Mirrors false walk parse cursor)
    (second : ∀ value after, cursor.Reaches false after →
      Mirrors takes (next value) (goOn value) after) :
    Mirrors takes (walk >>= next) (parse >>= goOn) cursor := by
  cases first with
  | ends walked read reaches =>
    have whole := later reaches (Walk.bind_of_ok walked) (bind_of_ok read _) (second _ _ reaches)
    rwa [Bool.false_or] at whole
  | fails walked read onward =>
    exact .fails (Walk.bind_of_error walked) (bind_of_error read _) onward

/-- What goes on behind a walk that has taken a token need not take another. -/
theorem behind (first : Mirrors true walk parse cursor)
    (second : ∀ value after, cursor.Reaches true after →
      Mirrors false (next value) (goOn value) after) :
    Mirrors takes (walk >>= next) (parse >>= goOn) cursor := by
  cases first with
  | ends walked read reaches =>
    exact .loose (later reaches (Walk.bind_of_ok walked) (bind_of_ok read _) (second _ _ reaches))
  | fails walked read onward =>
    exact .fails (Walk.bind_of_error walked) (bind_of_error read _) onward

theorem pure (value : α) (ended : cursor.Ended) :
    Mirrors false (Pure.pure value) (Pure.pure value) cursor :=
  .ends rfl rfl (.refl ended)

theorem throw (fault : Fault) (ended : cursor.Ended) :
    Mirrors takes (MonadExcept.throw fault : Walk α) (MonadExcept.throw fault) cursor :=
  .fails rfl rfl (.refl ended)

theorem refuse (cause : Cause) (span : Span) (ended : cursor.Ended) :
    Mirrors takes (Walk.refuse cause span : Walk α) (Grammar.refuse cause span) cursor :=
  .fails rfl rfl (.refl ended)

theorem ite {condition : Prop} [Decidable condition] {walk' : Walk α} {parse' : Parse α}
    (holds : condition → Mirrors takes walk parse cursor)
    (fails : ¬ condition → Mirrors takes walk' parse' cursor) :
    Mirrors takes (if condition then walk else walk') (if condition then parse else parse')
      cursor := by
  by_cases here : condition
  · rw [if_pos here, if_pos here]
    exact holds here
  · rw [if_neg here, if_neg here]
    exact fails here

theorem step {walk' : Walk α} {parse' : Parse α} (walked : walk' cursor = walk cursor)
    (read : parse' cursor.reader = parse cursor.reader)
    (mirrors : Mirrors takes walk parse cursor) : Mirrors takes walk' parse' cursor := by
  cases mirrors with
  | ends walkedOn readOn reaches =>
    exact .ends (walked.trans walkedOn) (read.trans readOn) reaches
  | fails walkedOn readOn onward => exact .fails (walked.trans walkedOn) (read.trans readOn) onward

theorem passing {walk' : Walk α} {parse' : Parse α} (ended : cursor.Ended)
    (goesOn : cursor.reader.peek.kind ≠ .eof) (walked : walk' cursor = walk cursor.passed)
    (read : parse' cursor.reader = parse cursor.reader.next)
    (mirrors : Mirrors false walk parse cursor.passed) : Mirrors takes walk' parse' cursor := by
  rw [← Cursor.passed_reader goesOn ended] at read
  exact .loose (later (.passed goesOn ended) walked read mirrors)

/-- A walk through a part with other loops and functions around it, which are left behind it
however it ends. -/
theorem around {walk' : Walk α} {loops : Nat} {results : List Ty} (loopsLeft : Cursor → Nat)
    (resultsLeft : Cursor → List Ty)
    (rule : walk' cursor = (walk { cursor with loops, results }).bind fun ended =>
      some (ended.1,
        { ended.2 with loops := loopsLeft ended.2, results := resultsLeft ended.2 }))
    (left : ∀ after : Cursor, after.loops = loops → after.results = results →
      loopsLeft after = cursor.loops ∧ resultsLeft after = cursor.results)
    (mirrors : Mirrors takes walk parse { cursor with loops, results }) :
    Mirrors takes walk' parse cursor := by
  cases mirrors with
  | @ends value after walked read reaches =>
    obtain ⟨loopsBack, resultsBack⟩ := left after reaches.loops reaches.results
    have walkedToo : walk' cursor = some (.ok value, { after with
        loops := loopsLeft after
        results := resultsLeft after }) := by
      rw [rule, walked]
      rfl
    refine .ends walkedToo read ?_
    exact ⟨⟨reaches.tokens, reaches.ended, reaches.stop, reaches.forward⟩, reaches.taken, loopsBack,
      resultsBack⟩
  | @fails fault after walked read onward =>
    have walkedToo : walk' cursor = some (.error fault, { after with
        loops := loopsLeft after
        results := resultsLeft after }) := by
      rw [rule, walked]
      rfl
    exact .fails walkedToo read ⟨onward.tokens, onward.ended, onward.stop, onward.forward⟩

theorem remaining {goOn : List Token → Parse α}
    (mirrors : Mirrors takes walk (goOn cursor.reader.ahead) cursor) :
    Mirrors takes walk (Grammar.remaining >>= goOn) cursor :=
  .step rfl (bind_remaining _ _) mirrors

theorem changeContext (change : Context → Context) (ended : cursor.Ended) :
    Mirrors false (Walk.changeContext change) (Grammar.changeContext change) cursor :=
  .ends rfl rfl (.recontext ended (change cursor.context))

theorem ofContext {step : Parse α} (blind : Blind step) (ended : cursor.Ended) :
    Mirrors false (Walk.ofContext step) step cursor := by
  have read := blind cursor.reader
  change _ = (step (.ofTokens [] cursor.context)).map _ at read
  cases run : step (.ofTokens [] cursor.context) with
  | ok result =>
    rw [run] at read
    have walked : Walk.ofContext step cursor =
        some (.ok result.1, { cursor with context := result.2.context }) := by
      rw [Walk.ofContext, run]
    exact .ends walked read (.recontext ended _)
  | error fault =>
    rw [run] at read
    have walked : Walk.ofContext step cursor = some (.error fault, cursor) := by
      rw [Walk.ofContext, run]
    exact .fails walked read (.refl ended)

section

variable {next : Token → Walk β} {goOn : Token → Parse β}

theorem peek (ended : cursor.Ended)
    (second : Mirrors takes (next cursor.reader.peek) (goOn cursor.reader.peek) cursor) :
    Mirrors takes (Walk.peek >>= next) (Grammar.peek >>= goOn) cursor :=
  .step (Walk.bind_of_ok (Walk.peek_run ended.peek)) (bind_peek _ _) second

theorem advance (ended : cursor.Ended) (goesOn : cursor.reader.peek.kind ≠ .eof)
    (second : Mirrors false (next cursor.reader.peek) (goOn cursor.reader.peek) cursor.passed) :
    Mirrors takes (Walk.advance >>= next) (Grammar.advance >>= goOn) cursor :=
  .passing ended goesOn (Walk.bind_of_ok (Walk.advance_run ended.peek goesOn)) (bind_advance _ _)
    second

theorem expect {kind : TokenKind} (what : Expected) (token : kind ≠ .eof) (ended : cursor.Ended)
    (second : cursor.reader.peek.kind = kind →
      Mirrors false (next cursor.reader.peek) (goOn cursor.reader.peek) cursor.passed) :
    Mirrors takes (Walk.expect kind what >>= next) (Grammar.expect kind what >>= goOn) cursor := by
  by_cases here : cursor.reader.peek.kind = kind
  · exact .passing ended (here ▸ token)
      (Walk.bind_of_ok (Walk.expect_here ended.peek what here token))
      (bind_of_ok (expect_here what here) _) (second here)
  · exact .fails (Walk.bind_of_error (Walk.expect_absent what here ended))
      (bind_of_error (expect_absent what here) _) (.refl ended)

end

section

variable {kind : TokenKind} {next : Bool → Walk β} {goOn : Bool → Parse β}

theorem check (ended : cursor.Ended)
    (second : Mirrors takes (next (decide (cursor.reader.peek.kind = kind)))
      (goOn (decide (cursor.reader.peek.kind = kind))) cursor) :
    Mirrors takes (Walk.check kind >>= next) (Grammar.check kind >>= goOn) cursor :=
  .step (Walk.bind_of_ok (Walk.check_run ended.peek)) (bind_check _ _ _) second

theorem accept (token : kind ≠ .eof) (ended : cursor.Ended)
    (taken : cursor.reader.peek.kind = kind → Mirrors false (next true) (goOn true) cursor.passed)
    (absent : cursor.reader.peek.kind ≠ kind → Mirrors takes (next false) (goOn false) cursor) :
    Mirrors takes (Walk.accept kind >>= next) (Grammar.accept kind >>= goOn) cursor := by
  by_cases here : cursor.reader.peek.kind = kind
  · exact .passing ended (here ▸ token) (Walk.bind_of_ok (Walk.accept_here ended.peek here token))
      (bind_of_ok (accept_here here) _) (taken here)
  · exact .step (Walk.bind_of_ok (Walk.accept_absent ended.peek here))
      (bind_of_ok (accept_absent here) _) (absent here)

end

end Mirrors

namespace Blind

variable {α : Type}

theorem pure (value : α) : Blind (Pure.pure value) := fun _ => rfl

theorem refuse (cause : Cause) (span : Span) : Blind (Grammar.refuse cause span : Parse α) :=
  fun _ => rfl

theorem ite {condition : Prop} [Decidable condition] {step other : Parse α}
    (blind : Blind step) (blindToo : Blind other) : Blind (if condition then step else other) := by
  by_cases here : condition
  · rwa [if_pos here]
  · rwa [if_neg here]

theorem get {next : Reader → Parse α} (blind : ∀ reader, Blind (next reader))
    (alike : ∀ reader, next (.ofTokens [] reader.context) = next reader) :
    Blind (MonadState.get >>= next) := by
  intro reader
  rw [bind_get, bind_get, alike reader]
  exact blind reader reader

theorem changeContext (change : Context → Context) : Blind (Grammar.changeContext change) :=
  fun _ => rfl

end Blind

end RobotScript.Grammar
