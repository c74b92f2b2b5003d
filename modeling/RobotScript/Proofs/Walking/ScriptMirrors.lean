import RobotScript.Proofs.Reading.Soundness
import RobotScript.Proofs.Walking.StatementMirrors

/-! # Scripts walked and read

The depth that a reading spends on what is nested is never used up before the tokens are, so
a walk, which spends nothing, comes to what a reading of enough depth comes to. -/
set_option autoImplicit false

namespace RobotScript.Grammar

open Walk (Phrase Clause)

/-! ## The end -/

theorem expression_atEnd (inner : Parse Node) {reader : Reader} (empty : reader.ahead = [])
    (isEnd : reader.peek.kind = .eof) :
    expression inner reader = .error ⟨.grammar .unexpectedEnd, reader.peek.span⟩ := by
  have atoms : atom inner reader = .error ⟨.grammar .unexpectedEnd, reader.peek.span⟩ := by
    rw [atom, bind_peek, isEnd]
    rfl
  have negations : negation inner reader = .error ⟨.grammar .unexpectedEnd, reader.peek.span⟩ := by
    rw [negation, bind_remaining, empty]
    exact atoms
  have comparisons :
      comparison inner reader = .error ⟨.grammar .unexpectedEnd, reader.peek.span⟩ :=
    bind_of_error (bind_of_error (bind_of_error (bind_of_error negations _) _) _) _
  have denials : denial inner reader = .error ⟨.grammar .unexpectedEnd, reader.peek.span⟩ := by
    rw [denial, bind_remaining, empty]
    exact comparisons
  exact bind_of_error denials _

/-! ## Whatever is nested -/

theorem readExpression_mirrors (depth : Nat) : Nested (depth + 1) (read depth .expression) := by
  induction depth with
  | zero =>
    intro cursor within
    have none (other : Cursor) (within : other.Within 0) :
        Mirrors true Phrase.expression.walk (read 0 .expression) other :=
      absurd within.fewer (Nat.not_lt_zero _)
    have empty : cursor.reader.ahead = [] :=
      List.length_eq_zero_iff.mp (Nat.lt_one_iff.mp within.fewer)
    have ends := expression_atEnd (read 0 .expression) empty within.atEnd
    exact .step rfl ends.symm (expression_mirrors none within)
  | succ depth ih =>
    intro cursor within
    exact expression_mirrors ih within

theorem read_walkable (depth : Nat) : Walkable depth (read depth) := by
  induction depth with
  | zero =>
    exact ⟨readExpression_mirrors 0, fun _ within => absurd within.fewer (Nat.not_lt_zero _),
      read_sound 0⟩
  | succ depth ih =>
    exact ⟨readExpression_mirrors (depth + 1), fun _ within => statement_mirrors ih within,
      read_sound (depth + 1)⟩

/-! ## Scripts -/

section

variable {most : Nat} {cursor : Cursor} {inner : Goal → Parse Node}

theorem topStatements_mirrors (walkable : Walkable most inner) (rounds : List Token)
    (top : cursor.place = topLevel) (within : cursor.Within most)
    (counted : cursor.Within (rounds.length + 1)) :
    Mirrors false Clause.topStatements.walk (topStatements inner rounds) cursor := by
  induction rounds generalizing cursor with
  | nil =>
    rw [Clause.walk, topStatements]
    refine .step (Walk.bind_of_ok (Walk.check_run within.ended.peek)) rfl ?_
    rw [counted.atEnd]
    exact .pure [] within.ended
  | cons round rounds ih =>
    rw [Clause.walk, topStatements]
    refine .check within.ended (.ite (fun _ => .pure [] within.ended) fun _ => ?_)
    rw [← top]
    refine .behind (walkable.statements cursor within) fun first after reaches => ?_
    refine .bind (ih (reaches.place.trans top) (within.onward reaches) (counted.inside reaches))
      fun rest behind further => ?_
    exact .pure _ further.ended

theorem script_mirrors (top : cursor.place = topLevel) (ended : cursor.Ended) :
    Mirrors false Walk.script script cursor := by
  rw [Walk.script, script]
  refine .peek ended (.remaining ?_)
  refine .bind (topStatements_mirrors (read_walkable _) _ top (.self ended) (.self ended))
    fun nodes after reaches => ?_
  exact .peek reaches.ended (.pure _ reaches.ended)

end

namespace Cursor

/-- Tokens are closed by the end token that a reader makes up, unless they end with one. -/
theorem closed_cases (tokens : List Token) :
    (closed tokens = tokens ∧ ∃ token ∈ tokens, token.kind = .eof) ∨
      closed tokens = tokens ++
        [⟨.eof, "", Span.point ((tokens.getLast?.map (·.span.stop)).getD Position.start)⟩] := by
  rw [closed]
  cases last : tokens.getLast? with
  | none =>
    rw [List.getLast?_eq_none_iff] at last
    subst last
    exact .inr rfl
  | some token =>
    by_cases isEnd : token.kind = .eof
    · exact .inl ⟨if_pos isEnd, token, List.mem_of_getLast? last, isEnd⟩
    · exact .inr (if_neg isEnd)

theorem start_ended (tokens : List Token) (context : Context) : (start tokens context).Ended := by
  change ∃ token ∈ closed tokens, token.kind = .eof
  rcases closed_cases tokens with ⟨same, token, member, isEnd⟩ | closes
  · exact ⟨token, same.symm ▸ member, isEnd⟩
  · rw [closes]
    exact ⟨_, List.mem_append_right _ List.mem_cons_self, rfl⟩

theorem takeWhile_closed {last : Token} (isEnd : last.kind = .eof) (tokens : List Token) :
    ((tokens ++ [last]).takeWhile fun token => token.kind ≠ .eof) =
      tokens.takeWhile fun token => token.kind ≠ .eof := by
  induction tokens with
  | nil => simp only [List.nil_append, List.takeWhile_cons, isEnd, ne_eq, not_true_eq_false,
      decide_false, List.takeWhile_nil, Bool.false_eq_true, if_false]
  | cons token rest ih => rw [List.cons_append, List.takeWhile_cons, List.takeWhile_cons, ih]

theorem dropWhile_closed {last : Token} (isEnd : last.kind = .eof) (tokens : List Token) :
    ((tokens ++ [last]).dropWhile fun token => token.kind ≠ .eof) =
      (tokens.dropWhile fun token => token.kind ≠ .eof) ++ [last] := by
  induction tokens with
  | nil => simp only [List.nil_append, List.dropWhile_cons, isEnd, ne_eq, not_true_eq_false,
      decide_false, List.dropWhile_nil, Bool.false_eq_true, if_false]
  | cons token rest ih =>
    rw [List.cons_append, List.dropWhile_cons, List.dropWhile_cons, ih]
    split <;> rfl

theorem start_reader (tokens : List Token) (context : Context) :
    (start tokens context).reader = .ofTokens tokens context := by
  change Reader.mk ((closed tokens).takeWhile _) (((closed tokens).dropWhile _).headD _) none
    context = _
  rw [Reader.ofTokens]
  rcases closed_cases tokens with ⟨same, token, member, isEnd⟩ | closes
  · rw [same]
    cases others : tokens.dropWhile fun token => token.kind ≠ .eof with
    | nil =>
      have goesOn := List.dropWhile_eq_nil_iff.mp others token member
      exact absurd isEnd (of_decide_eq_true goesOn)
    | cons first rest => rfl
  · rw [closes, takeWhile_closed rfl, dropWhile_closed rfl]
    cases tokens.dropWhile fun token => token.kind ≠ .eof <;> rfl

end Cursor

/-- The script of any tokens is walked as it is read. -/
theorem script_walked (tokens : List Token) (context : Context) :
    Mirrors false Walk.script script (Cursor.start tokens context) :=
  script_mirrors rfl (Cursor.start_ended tokens context)

end RobotScript.Grammar
