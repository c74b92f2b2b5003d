import RobotScript.Proofs.Walking.ScriptMirrors

/-! # Deciding without going back

An `if` may begin a statement or a value, which is told by what stands behind its condition.
To read the condition, to go back and to read it again comes to the same as to read it once
and to decide then. -/
set_option autoImplicit false

namespace RobotScript.Grammar

namespace Walk

/-- What a walk comes to, whatever is left behind where it fails. -/
def outcome {α : Type} (walk : Walk α) (cursor : Cursor) :
    Option (Except Fault (α × Cursor)) :=
  (walk cursor).map fun ended => ended.1.map fun value => (value, ended.2)

def furtherLevels (atom : Node) : Walk Node := do
  let power ← (Phrase.further .power atom).walk
  let product ← (Phrase.further .product power).walk
  let sum ← (Phrase.further .sum product).walk
  let comparison ← (Phrase.further .comparison sum).walk
  (Phrase.further .logic comparison).walk

/-- A statement that begins with `if` or `try`, with its first condition read once. -/
def decidedStatement : Walk Node := do
  let start ← peek
  if ← check .try then
    if ← checkNext .leftBrace then Clause.chainStatement.walk else expressionStatement
  else
    let keyword ← advance
    let condition ← Phrase.expression.walk
    if ← check .leftBrace then
      let branches ← (Clause.blockTest keyword condition []).walk
      (Clause.chainEnd start.span branches).walk
    else
      let (branches, ty) ← (Phrase.valueTest keyword condition [] none).walk
      let chain ← (Phrase.valueChainEnd start.span branches ty).walk
      let node ← furtherLevels chain
      endStatement
      return node

section

variable {α β : Type} {cursor after : Cursor}

/-- Walks that begin alike, from wherever, go on alike. -/
theorem bind_alike {walk other : Walk α} (alike : walk cursor = other after) (next : α → Walk β) :
    (walk >>= next) cursor = (other >>= next) after := by
  change (walk cursor).bind _ = (other after).bind _
  rw [alike]

theorem outcome_alike {walk other : Walk α} (alike : walk cursor = other cursor) :
    walk.outcome cursor = other.outcome cursor := by
  rw [outcome, outcome, alike]

theorem outcome_fault {walk other : Walk α} {fault : Fault} {last : Cursor}
    (walked : walk cursor = some (.error fault, after))
    (walkedToo : other cursor = some (.error fault, last)) :
    walk.outcome cursor = other.outcome cursor := by
  rw [outcome, outcome, walked, walkedToo]
  rfl

theorem level_alike (here : Level) {chain : Walk Node}
    (alike : here.operand.walk cursor = chain cursor) :
    (Phrase.level here).walk cursor =
      (chain >>= fun node => (Phrase.further here node).walk) cursor := by
  rw [Phrase.walk, bind_alike alike]

section

variable (opens : cursor.reader.peek.kind = .if ∨ cursor.reader.peek.kind = .try)
  (ended : cursor.Ended)

include opens ended

theorem expression_chain :
    Phrase.expression.walk cursor = (Phrase.valueChain.walk >>= furtherLevels) cursor := by
  have atoms : Phrase.atom.walk cursor = Phrase.valueChain.walk cursor := by
    conv => lhs; rw [Phrase.walk, bind_of_ok (peek_run ended.peek)]
    rcases opens with kind | kind <;> rw [kind]
  have negations : Phrase.negation.walk cursor = Phrase.atom.walk cursor := by
    have absent : cursor.reader.peek.kind ≠ .minus := by
      rcases opens with kind | kind <;> rw [kind] <;> decide
    conv => lhs; rw [Phrase.walk, bind_of_ok (check_run ended.peek), decide_eq_false absent]
    rfl
  have powers := level_alike .power (negations.trans atoms)
  have products := level_alike .product powers
  have sums := level_alike .sum products
  have comparisons := level_alike .comparison sums
  have denials : Phrase.denial.walk cursor = (Phrase.level .comparison).walk cursor := by
    have absent : cursor.reader.peek.kind ≠ .not := by
      rcases opens with kind | kind <;> rw [kind] <;> decide
    conv => lhs; rw [Phrase.walk, bind_of_ok (check_run ended.peek), decide_eq_false absent]
    rfl
  have logic := level_alike .logic (denials.trans comparisons)
  rw [Phrase.walk, logic]
  simp only [bind_assoc]
  rfl

theorem statement_chain : Clause.statement.walk cursor =
    (do if ← startsChain then Clause.chainStatement.walk else expressionStatement) cursor := by
  conv => lhs; rw [Clause.walk, bind_of_ok (peek_run ended.peek)]
  rcases opens with kind | kind <;> rw [kind]

end

section

variable {test : Node} (isIf : cursor.reader.peek.kind = .if) (ended : cursor.Ended)

include isIf ended

/-- A chain of blocks goes on behind its first condition. -/
theorem chainStatement_behind
    (walked : Phrase.expression.walk cursor.passed = some (.ok test, after)) :
    Clause.chainStatement.walk cursor =
      (do
        let branches ← (Clause.blockTest cursor.reader.peek test []).walk
        (Clause.chainEnd cursor.reader.peek.span branches).walk) after := by
  have first : (Clause.blockBranches []).walk cursor =
      (Clause.blockTest cursor.reader.peek test []).walk after := by
    rw [Clause.walk, bind_of_ok (peek_run ended.peek), isIf]
    change (advance >>= _) cursor = _
    rw [bind_of_ok (advance_run ended.peek (isIf ▸ by decide)), bind_of_ok walked]
  rw [Clause.walk, bind_of_ok (peek_run ended.peek), bind_alike first]

theorem expressionStatement_behind
    (walked : Phrase.expression.walk cursor.passed = some (.ok test, after)) :
    expressionStatement cursor =
      (do
        let (branches, ty) ← (Phrase.valueTest cursor.reader.peek test [] none).walk
        let chain ← (Phrase.valueChainEnd cursor.reader.peek.span branches ty).walk
        let node ← furtherLevels chain
        endStatement
        return node) after := by
  have first : (Phrase.valueBranches [] none).walk cursor =
      (Phrase.valueTest cursor.reader.peek test [] none).walk after := by
    rw [Phrase.walk, bind_of_ok (peek_run ended.peek), isIf]
    change (advance >>= _) cursor = _
    rw [bind_of_ok (advance_run ended.peek (isIf ▸ by decide)), bind_of_ok walked]
  have chain : Phrase.valueChain.walk cursor =
      (do
        let (branches, ty) ← (Phrase.valueTest cursor.reader.peek test [] none).walk
        (Phrase.valueChainEnd cursor.reader.peek.span branches ty).walk) after := by
    rw [Phrase.walk, bind_of_ok (peek_run ended.peek), bind_alike first]
  have whole := (expression_chain (.inl isIf) ended).trans (bind_alike chain furtherLevels)
  rw [expressionStatement, bind_alike whole]
  simp only [bind_assoc]

/-- A condition that is refused is refused as the value that it would begin. -/
theorem expressionStatement_refused {fault : Fault}
    (walked : Phrase.expression.walk cursor.passed = some (.error fault, after)) :
    expressionStatement cursor = some (.error fault, after) := by
  have first : (Phrase.valueBranches [] none).walk cursor = some (.error fault, after) := by
    rw [Phrase.walk, bind_of_ok (peek_run ended.peek), isIf]
    change (advance >>= _) cursor = _
    rw [bind_of_ok (advance_run ended.peek (isIf ▸ by decide)), bind_of_error walked]
  have chain : Phrase.valueChain.walk cursor = some (.error fault, after) := by
    rw [Phrase.walk, bind_of_ok (peek_run ended.peek), bind_of_error first]
  have whole : Phrase.expression.walk cursor = some (.error fault, after) :=
    (expression_chain (.inl isIf) ended).trans (bind_of_error chain)
  rw [expressionStatement, bind_of_error whole]

end

section

variable (opens : cursor.reader.peek.kind = .if ∨ cursor.reader.peek.kind = .try)
  (ended : cursor.Ended)

include opens ended

/-- To find out what an `if` or `try` begins leaves all as it was; where it fails, so does the
value that would begin there, and with the same fault. -/
theorem startsChain_traceless :
    (∃ braced, startsChain cursor = some (.ok braced, cursor)) ∨
      ∃ fault after last, startsChain cursor = some (.error fault, after) ∧
        expressionStatement cursor = some (.error fault, last) := by
  rcases opens with isIf | isTry
  · have inside := Cursor.passed_ended (isIf ▸ by decide) ended
    cases readExpression_mirrors _ cursor.passed (.self inside) with
    | ends walked run reaches =>
      have kept := ((read_sound _).expressions ⟨rfl, cursor.passed.finish_kind⟩ run).1.context
      exact .inl ⟨_, startsChain_read isIf ended walked reaches kept⟩
    | fails walked run onward =>
      exact .inr ⟨_, _, _, startsChain_refused isIf ended walked onward,
        expressionStatement_refused isIf ended walked⟩
  · exact .inl ⟨_, startsChain_try isTry ended⟩

theorem statement_decided :
    Clause.statement.walk.outcome cursor = decidedStatement.outcome cursor := by
  have split := statement_chain opens ended
  rcases opens with isIf | isTry
  · have notTry : cursor.reader.peek.kind ≠ .try := isIf ▸ by decide
    have inside := Cursor.passed_ended (isIf ▸ by decide) ended
    have decided : decidedStatement cursor =
        (do
          let condition ← Phrase.expression.walk
          if ← check .leftBrace then
            let branches ← (Clause.blockTest cursor.reader.peek condition []).walk
            (Clause.chainEnd cursor.reader.peek.span branches).walk
          else
            let (branches, ty) ← (Phrase.valueTest cursor.reader.peek condition [] none).walk
            let chain ← (Phrase.valueChainEnd cursor.reader.peek.span branches ty).walk
            let node ← furtherLevels chain
            endStatement
            return node) cursor.passed := by
      rw [decidedStatement, bind_of_ok (peek_run ended.peek), bind_of_ok (check_run ended.peek),
        decide_eq_false notTry]
      exact bind_of_ok (advance_run ended.peek (isIf ▸ by decide))
    -- That the condition is read as well says that it has changed no declaration.
    cases readExpression_mirrors _ cursor.passed (.self inside) with
    | @ends test after walked run reaches =>
      have kept := ((read_sound _).expressions ⟨rfl, cursor.passed.finish_kind⟩ run).1.context
      refine outcome_alike ?_
      rw [split, bind_of_ok (startsChain_read isIf ended walked reaches kept), decided,
        bind_of_ok walked, bind_of_ok (check_run reaches.ended.peek)]
      by_cases braced : after.reader.peek.kind = .leftBrace
      · rw [decide_eq_true braced]
        exact chainStatement_behind isIf ended walked
      · rw [decide_eq_false braced]
        exact expressionStatement_behind isIf ended walked
    | @fails fault after walked run onward =>
      have refused := split.trans (bind_of_error (startsChain_refused isIf ended walked onward))
      exact outcome_fault refused (decided.trans (bind_of_error walked))
  · refine outcome_alike ?_
    rw [split, bind_of_ok (startsChain_try isTry ended), decidedStatement,
      bind_of_ok (peek_run ended.peek), bind_of_ok (check_run ended.peek), decide_eq_true isTry,
      if_pos rfl, bind_of_ok (checkNext_run .leftBrace (isTry ▸ by decide) ended)]

end

end

theorem outcome_read {takes : Bool} {walk : Walk Node} {parse : Parse Node} {cursor : Cursor}
    (mirrors : Mirrors takes walk parse cursor) :
    (walk.outcome cursor).map (fun ended => ended.map fun (node, after) => (node, after.reader)) =
      some (parse cursor.reader) := by
  cases mirrors with
  | ends walked run reaches =>
    rw [outcome, walked, run]
    rfl
  | fails walked run onward =>
    rw [outcome, walked, run]
    rfl

end Walk

open Walk (Phrase Clause)

/-- Trying the forms of a name in turn comes to looking at the token behind the name. To find
out what an `if` or `try` begins leaves all as it was, or fails as the value would that would
begin there; so the statement comes to one whose first condition is read once, and that is
what is read. -/
theorem speculation_unseen :
    Phrase.nameForm.walk = Walk.predictedForm ∧ (∀ inner, nameForm inner = predictedForm inner) ∧
      ∀ cursor : Cursor, cursor.Ended →
        cursor.reader.peek.kind = .if ∨ cursor.reader.peek.kind = .try →
        ((∃ braced, Walk.startsChain cursor = some (.ok braced, cursor)) ∨
          ∃ fault after last, Walk.startsChain cursor = some (.error fault, after) ∧
            Walk.expressionStatement cursor = some (.error fault, last)) ∧
          Clause.statement.walk.outcome cursor = Walk.decidedStatement.outcome cursor ∧
          (Walk.decidedStatement.outcome cursor).map
              (fun ended => ended.map fun (node, after) => (node, after.reader)) =
            some (read (cursor.ahead.length + 1) (.statement cursor.place) cursor.reader) := by
  refine ⟨Walk.nameForm_predicted, nameForm_predicted, fun cursor ended opens => ?_⟩
  have decided := Walk.statement_decided opens ended
  refine ⟨Walk.startsChain_traceless opens ended, decided, ?_⟩
  rw [← decided]
  exact Walk.outcome_read
    ((read_walkable (cursor.ahead.length + 1)).statements cursor (.self ended))

/-- `if ready = check(ready) { }` -/
def assigningChain : List Token :=
  [⟨.if, "if", default⟩, ⟨.identifier, "ready", default⟩, ⟨.equal, "=", default⟩,
    ⟨.identifier, "check", default⟩, ⟨.leftParen, "(", default⟩,
    ⟨.identifier, "ready", default⟩, ⟨.rightParen, ")", default⟩,
    ⟨.leftBrace, "\x7b", default⟩, ⟨.rightBrace, "\x7d", default⟩]

/-- At the first token of that, where `check` and `ready` are known. -/
def beforeChain : Cursor :=
  .start assigningChain
    ((Context.withNatives (.ofList [("check", ⟨.exactly [.bool], .bool⟩)])).withVariable "ready"
      .bool)

/-- The assignment and the call in it are read ahead, given back and read again. -/
theorem speculation_unseen_assigningChain :
    beforeChain.reader.peek.kind = .if ∧
      (∃ braced, Walk.startsChain beforeChain = some (.ok braced, beforeChain)) ∧
      ∃ node after, Clause.statement.walk.outcome beforeChain = some (.ok (node, after)) ∧
        Walk.decidedStatement.outcome beforeChain = some (.ok (node, after)) := by
  obtain ⟨-, -, chains⟩ := speculation_unseen
  have isIf : beforeChain.reader.peek.kind = .if := rfl
  have ended : beforeChain.Ended := Cursor.start_ended _ _
  obtain ⟨traceless, same, runs⟩ := chains beforeChain ended (.inl isIf)
  have reads : (read 10 (.statement topLevel) beforeChain.reader).isOk = true := by
    decide +kernel
  change _ = some (read 10 (.statement topLevel) _) at runs
  rw [← same] at runs ⊢
  cases walked : Clause.statement.walk.outcome beforeChain with
  | none =>
    rw [walked] at runs
    cases runs
  | some result =>
    rw [walked] at runs
    cases result with
    | error fault =>
      rw [← Option.some.inj runs] at reads
      cases reads
    | ok made =>
      refine ⟨isIf, traceless.resolve_right ?_, made.1, made.2, rfl, rfl⟩
      rintro ⟨fault, after, last, failed, -⟩
      rw [Walk.outcome, Walk.statement_chain (.inl isIf) ended, Walk.bind_of_error failed] at walked
      cases walked

end RobotScript.Grammar
