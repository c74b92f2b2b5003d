import RobotScript.Proofs.Walking.ScriptMirrors

/-! # Walks come to an end

Wherever an end token is ahead, a walk of an expression or of a statement ends: it asks for no
token that is not there and does not go on for ever. It passes no end token, also where it
fails, and takes a token where it succeeds. So does the walk of a script, for any tokens, and
it ends as the reading does, which sees nothing behind the first end token. -/
set_option autoImplicit false

namespace RobotScript

open Grammar
open Walk (Phrase Clause)

/-- From wherever an end token is ahead a walk ends at a token that is there, before which it
has passed no end token; it goes no way back, and where it succeeds it goes on. -/
def Grammar.Walk.Progresses (walk : Walk Node) : Prop :=
  ∀ cursor : Cursor, cursor.Ended → ∃ outcome after, walk cursor = some (outcome, after) ∧
    after.tokens = cursor.tokens ∧ after.Ended ∧ cursor.current ≤ after.current ∧
    (∀ number token, cursor.current ≤ number → number < after.current →
      cursor.tokens[number]? = some token → token.kind ≠ .eof) ∧
    ∀ node, outcome = .ok node → cursor.current + 1 ≤ after.current

namespace Grammar

theorem Mirrors.progresses {walk : Walk Node} {parse : Cursor → Parse Node}
    (mirrors : ∀ cursor : Cursor, cursor.Ended → Mirrors true walk (parse cursor) cursor) :
    walk.Progresses := by
  intro cursor ended
  cases mirrors cursor ended with
  | @ends value after walked read reaches =>
    exact ⟨.ok value, after, walked, reaches.tokens, reaches.ended, reaches.forward,
      fun _ _ => reaches.goesOn, fun _ _ => reaches.taken⟩
  | @fails fault after walked read onward =>
    exact ⟨.error fault, after, walked, onward.tokens, onward.ended, onward.forward,
      fun _ _ => onward.goesOn, by rintro _ ⟨⟩⟩

theorem Walk.expression_progresses : Phrase.expression.walk.Progresses :=
  Mirrors.progresses fun cursor ended =>
    readExpression_mirrors cursor.ahead.length cursor (.self ended)

theorem Walk.statement_progresses : Clause.statement.walk.Progresses :=
  Mirrors.progresses fun cursor ended =>
    (read_walkable (cursor.ahead.length + 1)).statements cursor (.self ended)

theorem parse_walked (tokens : List Token) (context : Context) :
    ∃ outcome after, Walk.script (.start tokens context) = some (outcome, after) ∧
      parse tokens context = outcome.map (fun root => (root, after.context)) ∧
      (Cursor.start tokens context).Onward after := by
  have starts := Cursor.start_reader tokens context
  cases script_walked tokens context with
  | @ends root after walked read reaches =>
    refine ⟨.ok root, after, walked, ?_, reaches.toOnward⟩
    rw [starts] at read
    rw [parse, StateT.run, read]
    rfl
  | @fails fault after walked read onward =>
    refine ⟨.error fault, after, walked, ?_, onward⟩
    rw [starts] at read
    rw [parse, StateT.run, read]
    rfl

theorem Reader.ofTokens_eq {before : List Token} {last : Token}
    (goesOn : ∀ token ∈ before, token.kind ≠ .eof) (isEnd : last.kind = .eof)
    (behind : List Token) (context : Context) :
    Reader.ofTokens (before ++ last :: behind) context = ⟨before, last, none, context⟩ := by
  have through : ∀ token ∈ before, decide (token.kind ≠ .eof) = true :=
    fun token member => decide_eq_true (goesOn token member)
  have stops : ¬ decide (last.kind ≠ .eof) = true := by simp only [isEnd, ne_eq,
    not_true_eq_false, decide_false, Bool.false_eq_true, not_false_eq_true]
  have ahead : ((before ++ last :: behind).takeWhile fun token => token.kind ≠ .eof) = before := by
    rw [List.takeWhile_append_of_pos through,
      List.takeWhile_cons_of_neg (p := fun token : Token => decide (token.kind ≠ .eof)) stops,
      List.append_nil]
  have rest : ((before ++ last :: behind).dropWhile fun token => token.kind ≠ .eof) =
      last :: behind := by
    rw [List.dropWhile_append_of_pos through,
      List.dropWhile_cons_of_neg (p := fun token : Token => decide (token.kind ≠ .eof)) stops]
  rw [Reader.ofTokens, ahead, rest]

end Grammar

/-- Expressions and statements progress; every script comes to an end, at a number before
which there is no end token, and as it is parsed; and what stands behind the first end token
is never looked at. -/
theorem parse_progresses :
    Phrase.expression.walk.Progresses ∧ Clause.statement.walk.Progresses ∧
      (∀ tokens context, ∃ outcome after,
        Walk.script (.start tokens context) = some (outcome, after) ∧
          parse tokens context = outcome.map (fun root => (root, after.context)) ∧
          (∃ token, (Cursor.closed tokens)[after.current]? = some token) ∧
          ∀ number token, number < after.current →
            (Cursor.closed tokens)[number]? = some token → token.kind ≠ .eof) ∧
      ∀ before last behind others context, (∀ token ∈ before, token.kind ≠ .eof) →
        last.kind = .eof →
        parse (before ++ last :: behind) context = parse (before ++ last :: others) context := by
  refine ⟨Walk.expression_progresses, Walk.statement_progresses, ?_, ?_⟩
  · intro tokens context
    obtain ⟨outcome, after, walked, parsed, onward⟩ := parse_walked tokens context
    have here := onward.ended.peek
    rw [onward.tokens] at here
    exact ⟨outcome, after, walked, parsed, ⟨_, here⟩, fun _ _ => onward.goesOn (Nat.zero_le _)⟩
  · intro before last behind others context goesOn isEnd
    rw [parse, parse, Reader.ofTokens_eq goesOn isEnd, Reader.ofTokens_eq goesOn isEnd]

/-- An end token in the middle is where the walk of a script stops. -/
theorem parse_progresses_counting :
    (∃ outcome after, Walk.script (.start (counting ++ ⟨.eof, "", default⟩ :: counting)
        (.withNatives .empty)) = some (outcome, after) ∧ after.current ≤ counting.length) ∧
      parse (counting ++ ⟨.eof, "", default⟩ :: counting) (.withNatives .empty) =
        parse (counting ++ [⟨.eof, "", default⟩]) (.withNatives .empty) := by
  obtain ⟨-, -, ends, ignores⟩ := parse_progresses
  refine ⟨?_, ignores counting ⟨.eof, "", default⟩ counting [] _ (by decide) rfl⟩
  obtain ⟨outcome, after, walked, -, -, goesOn⟩ :=
    ends (counting ++ ⟨.eof, "", default⟩ :: counting) (.withNatives .empty)
  refine ⟨outcome, after, walked, Nat.le_of_not_lt fun passed => ?_⟩
  exact goesOn counting.length ⟨.eof, "", default⟩ passed rfl rfl

end RobotScript
