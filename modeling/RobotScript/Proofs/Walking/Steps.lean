import RobotScript.Proofs.Walking.Ahead

/-! # Walks, step by step

What each step of a walk comes to, by the token that is there. -/
set_option autoImplicit false

namespace RobotScript.Grammar

namespace Walk

variable {α β : Type} {cursor between after : Cursor} {walk : Walk α} {next : α → Walk β}

theorem bind_of_none (ran : walk cursor = none) : (walk >>= next) cursor = none := by
  change (walk cursor).bind _ = none
  rw [ran]
  rfl

theorem bind_of_ok {value : α} (ran : walk cursor = some (.ok value, between)) :
    (walk >>= next) cursor = next value between := by
  change (walk cursor).bind _ = _
  rw [ran]
  rfl

theorem bind_of_error {fault : Fault} (ran : walk cursor = some (.error fault, between)) :
    (walk >>= next) cursor = some (.error fault, between) := by
  change (walk cursor).bind _ = _
  rw [ran]
  rfl

theorem bind_get (next : Cursor → Walk β) (cursor : Cursor) :
    ((get : Walk Cursor) >>= next) cursor = next cursor cursor := rfl

theorem token_run {index : Nat} {token : Token} (found : cursor.tokens[index]? = some token) :
    Walk.token index cursor = some (.ok token, cursor) := by
  rw [Walk.token, bind_get, found]
  rfl

section

variable {token : Token} {kind : TokenKind}

section

variable (missing : cursor.tokens[cursor.current]? = none)

include missing

theorem peek_missing : peek cursor = none := by
  rw [peek, bind_get, Walk.token, bind_get, missing]
  rfl

theorem check_missing : check kind cursor = none := by
  rw [check, bind_of_none (peek_missing missing)]

theorem advance_missing : advance cursor = none := by
  rw [advance, bind_get, bind_of_none (check_missing missing)]

theorem accept_missing : accept kind cursor = none := by
  rw [accept, bind_of_none (check_missing missing)]

end

variable (found : cursor.tokens[cursor.current]? = some token)

include found

theorem peek_run : peek cursor = some (.ok token, cursor) := by
  rw [peek, bind_get, token_run found]

theorem check_run : check kind cursor = some (.ok (decide (token.kind = kind)), cursor) := by
  rw [check, bind_of_ok (peek_run found)]
  rfl

theorem advance_run (goesOn : token.kind ≠ .eof) :
    advance cursor = some (.ok token, cursor.passed) := by
  have still : cursor.passed.tokens[cursor.current]? = some token := found
  rw [advance, bind_get, bind_of_ok (check_run found), decide_eq_false goesOn]
  exact token_run still

theorem advance_end (isEnd : token.kind = .eof) : advance cursor = some (.ok token, cursor) := by
  rw [advance, bind_get, bind_of_ok (check_run found), decide_eq_true isEnd]
  exact token_run found

/-- Whether a token is passed or not, nothing else changes. -/
theorem advance_cases : ∃ current, advance cursor = some (.ok token, { cursor with current }) := by
  by_cases isEnd : token.kind = .eof
  · exact ⟨cursor.current, advance_end found isEnd⟩
  · exact ⟨cursor.current + 1, advance_run found isEnd⟩

theorem accept_here (here : token.kind = kind) (goesOn : kind ≠ .eof) :
    accept kind cursor = some (.ok true, cursor.passed) := by
  rw [accept, bind_of_ok (check_run found), decide_eq_true here]
  change (advance >>= _) cursor = _
  rw [bind_of_ok (advance_run found (here ▸ goesOn))]
  rfl

theorem accept_absent (absent : token.kind ≠ kind) :
    accept kind cursor = some (.ok false, cursor) := by
  rw [accept, bind_of_ok (check_run found), decide_eq_false absent]
  rfl

theorem expect_here (what : Expected) (here : token.kind = kind) (goesOn : kind ≠ .eof) :
    expect kind what cursor = some (.ok token, cursor.passed) := by
  rw [expect, bind_of_ok (check_run found), decide_eq_true here]
  exact advance_run found (here ▸ goesOn)

end

theorem checkNext_run (kind : TokenKind) (goesOn : cursor.reader.peek.kind ≠ .eof)
    (ended : cursor.Ended) :
    checkNext kind cursor = some (.ok (decide (cursor.reader.next.peek.kind = kind)), cursor) := by
  have found := (Cursor.passed_ended goesOn ended).peek
  rw [Cursor.passed_reader goesOn ended] at found
  change cursor.tokens[cursor.current + 1]? = _ at found
  rw [checkNext, bind_get, found]
  rfl

theorem missingSpan_run (ended : cursor.Ended) :
    missingSpan cursor = some (.ok cursor.reader.missingSpan, cursor) := by
  rw [missingSpan, bind_get, bind_of_ok (check_run ended.peek)]
  -- Only at the end, and behind some token, is the place not that of the next token.
  by_cases atEnd : cursor.reader.peek.kind = .eof ∧ 0 < cursor.current
  · obtain ⟨isEnd, positive⟩ := atEnd
    have empty : cursor.reader.ahead = [] := Cursor.ahead_of_end isEnd
    obtain ⟨token, member, -⟩ := ended
    have inside : cursor.current - 1 < cursor.tokens.length := by
      have := List.length_pos_of_mem member
      rw [Cursor.rest, List.length_drop] at this
      omega
    have found := List.getElem?_eq_getElem inside
    have last : cursor.reader.last = some cursor.tokens[cursor.current - 1].span.stop := by
      change cursor.last = _
      rw [Cursor.last, if_neg (Nat.ne_of_gt positive), found]
      rfl
    rw [decide_eq_true isEnd, decide_eq_true positive, Reader.missingSpan, empty, last]
    change (Walk.token (cursor.current - 1) >>= _) cursor = _
    rw [bind_of_ok (token_run found)]
    rfl
  · have skipped : (decide (cursor.reader.peek.kind = .eof) && decide (0 < cursor.current)) =
        false := by
      rw [← Bool.decide_and]
      exact decide_eq_false atEnd
    have missing : cursor.reader.missingSpan = cursor.reader.peek.span := by
      rw [Reader.missingSpan]
      by_cases isEnd : cursor.reader.peek.kind = .eof
      · have first : cursor.current = 0 := by
          by_contra positive
          exact atEnd ⟨isEnd, Nat.pos_of_ne_zero positive⟩
        have last : cursor.reader.last = none := if_pos first
        rw [last]
        cases cursor.reader.ahead <;> rfl
      · obtain ⟨others, ahead⟩ := Cursor.ahead_of_kind isEnd
        have ahead : cursor.reader.ahead = cursor.reader.peek :: others := ahead
        rw [ahead]
    rw [skipped]
    change (peek >>= _) cursor = _
    rw [bind_of_ok (peek_run ended.peek), missing]
    rfl

theorem expect_absent {kind : TokenKind} (what : Expected)
    (absent : cursor.reader.peek.kind ≠ kind) (ended : cursor.Ended) :
    expect kind what cursor =
      some (.error ⟨.grammar (.expected what), cursor.reader.missingSpan⟩, cursor) := by
  rw [expect, bind_of_ok (check_run ended.peek), decide_eq_false absent]
  change (missingSpan >>= _) cursor = _
  rw [bind_of_ok (missingSpan_run ended)]
  rfl

end Walk

end RobotScript.Grammar
