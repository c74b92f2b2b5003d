import RobotScript.Grammar.Script
import RobotScript.Proofs.Reading.StatementSound

/-! # Whatever parses is well typed

The grammar is closed by induction on the depth of nesting: a reader of one more
level reads well-typed nodes if the reader of the levels below does. -/
set_option autoImplicit false

namespace RobotScript

namespace Grammar

open Typing

theorem read_sound (depth : Nat) : Reads (read depth) := by
  induction depth with
  | zero =>
    constructor
    · intro context reader after node here run
      cases run
    · intro place context reader after node here run
      cases run
  | succ depth ih => exact ⟨expression_sound ih.expressions, statement_sound ih⟩

theorem topStatements_sound {inner : Goal → Parse Node} (reads : Reads inner)
    (rounds : List Token) {context : Context} {reader after : Reader} {list : List Node}
    (here : At context reader) (run : topStatements inner rounds reader = .ok (list, after)) :
    At (context.afterAll list) after ∧ Sequence (Statement topLevel) context list := by
  induction rounds generalizing context reader after list with
  | nil =>
    cases run
    exact ⟨here, .nil⟩
  | cons token rounds ih =>
    rw [topStatements, bind_check] at run
    split at run
    · cases run
      exact ⟨here, .nil⟩
    · obtain ⟨first, between, firstRun, rest⟩ := bind_ok run
      obtain ⟨between_at, firstTyped⟩ := reads.statements topLevel here firstRun
      obtain ⟨others, behind, othersRun, made⟩ := bind_ok rest
      obtain ⟨behind_at, othersTyped⟩ := ih between_at othersRun
      cases made
      exact ⟨behind_at, .cons firstTyped othersTyped⟩

theorem script_sound {context : Context} {reader after : Reader} {root : Node}
    (here : At context reader) (run : script reader = .ok (root, after)) :
    At (context.afterAll root.statements) after ∧ Program context root := by
  rw [script, bind_peek, bind_remaining] at run
  obtain ⟨list, between, listRun, made⟩ := bind_ok run
  obtain ⟨between_at, typed⟩ := topStatements_sound (read_sound _) _ here listRun
  cases made
  exact ⟨between_at, ⟨list, rfl, rfl⟩, typed⟩

theorem Reader.ofTokens_at (tokens : List Token) (context : Context) :
    At context (Reader.ofTokens tokens context) := by
  refine ⟨rfl, ?_⟩
  rw [ofTokens]
  cases behind : tokens.dropWhile fun token => token.kind ≠ .eof with
  | nil => rfl
  | cons token rest =>
    have stops := List.head?_dropWhile_not (fun token : Token => token.kind ≠ .eof) tokens
    rw [behind] at stops
    simpa using stops

theorem parse_ok {tokens : List Token} {context after : Context} {root : Node}
    (run : parse tokens context = .ok (root, after)) :
    ∃ reader, script.run (Reader.ofTokens tokens context) = .ok (root, reader) ∧
      reader.context = after := by
  rw [parse] at run
  cases scriptRun : script.run (Reader.ofTokens tokens context) with
  | error fault =>
    rw [scriptRun] at run
    cases run
  | ok result =>
    obtain ⟨made, reader⟩ := result
    rw [scriptRun] at run
    cases run
    exact ⟨reader, rfl, rfl⟩

end Grammar

theorem parseText_ok {source : String} {context after : Context} {root : Node}
    (run : parseText source context = .ok (root, after)) :
    ∃ tokens, scan source = .ok tokens ∧ parse tokens context = .ok (root, after) := by
  rw [parseText] at run
  cases scanned : scan source with
  | error fault =>
    rw [scanned] at run
    cases run
  | ok tokens =>
    rw [scanned] at run
    exact ⟨tokens, rfl, run⟩

open Grammar in
theorem parseText_wellTyped {source : String} {context behind : Context} {root : Node}
    (parsed : parseText source context = .ok (root, behind)) :
    Typing.Program context root ∧ behind = context.afterAll root.statements := by
  obtain ⟨tokens, -, run⟩ := parseText_ok parsed
  obtain ⟨reader, scriptRun, rfl⟩ := parse_ok run
  obtain ⟨last, typed⟩ := script_sound (Reader.ofTokens_at tokens context) scriptRun
  exact ⟨typed, last.context⟩

open Grammar in
/-- A script that parses is well typed in the context it is read in, and what it
declares at its top level is in view behind it. -/
theorem parse_wellTyped {tokens : List Token} {context after : Context} {root : Node}
    (run : parse tokens context = .ok (root, after)) :
    Typing.Program context root ∧ after = context.afterAll root.statements := by
  obtain ⟨reader, scriptRun, rfl⟩ := parse_ok run
  obtain ⟨after_at, typed⟩ := script_sound (Reader.ofTokens_at tokens context) scriptRun
  exact ⟨typed, after_at.context⟩

/-- `int n = 2; repeat n { n ++; }` -/
def counting : List Token :=
  let token (kind : TokenKind) (lexeme : String) : Token := ⟨kind, lexeme, default⟩
  [token .intType "int", token .identifier "n", token .equal "=", token .int "2",
   token .semicolon ";", token .repeat "repeat", token .identifier "n", token .leftBrace "\x7b",
   token .identifier "n", token .plusPlus "++", token .semicolon ";", token .rightBrace "\x7d"]

theorem counting_wellTyped :
    ∃ root after, parse counting (.withNatives .empty) = .ok (root, after) ∧
      Typing.Program (.withNatives .empty) root ∧
      after = (Context.withNatives .empty).afterAll root.statements := by
  have parses : (parse counting (.withNatives .empty)).isOk = true := by decide +kernel
  cases run : parse counting (.withNatives .empty) with
  | error fault =>
    rw [run] at parses
    cases parses
  | ok result =>
    obtain ⟨root, after⟩ := result
    exact ⟨root, after, rfl, parse_wellTyped run⟩

end RobotScript
