import RobotScript.Proofs.Reading.Outcomes
import RobotScript.Proofs.Refusing.Causes
import RobotScript.Proofs.Scanning.Rewriting

/-! # Scanning what was scanned

What is written back from the tokens of a text scans to tokens of the same kinds with the
same lexemes. The numerals among the tokens of a text can all be read, so neither scanning
nor reading ever refuses one as invalid. -/
set_option autoImplicit false

namespace RobotScript

/-! ## Numerals ahead -/

namespace Grammar

/-- The numerals among the tokens that a reader has ahead have their shapes. -/
def Reader.Shaped (reader : Reader) : Prop :=
  ∀ token ∈ reader.finish :: reader.ahead, token.kind.Shapes token.lexeme

theorem Reader.Shaped.peek {reader : Reader} (shaped : reader.Shaped) :
    reader.peek.kind.Shapes reader.peek.lexeme := by
  obtain ⟨ahead, finish, last, context⟩ := reader
  cases ahead with
  | nil => exact shaped finish List.mem_cons_self
  | cons token rest => exact shaped token (List.mem_cons_of_mem _ List.mem_cons_self)

theorem Reader.Shaped.next {reader : Reader} (shaped : reader.Shaped) : reader.next.Shaped := by
  obtain ⟨ahead, finish, last, context⟩ := reader
  cases ahead with
  | nil => exact shaped
  | cons token rest =>
    obtain ⟨atEnd, ahead⟩ := List.forall_mem_cons.mp shaped
    exact List.forall_mem_cons.mpr ⟨atEnd, (List.forall_mem_cons.mp ahead).2⟩

theorem Reader.ofTokens_shaped {tokens : List Token}
    (shapes : ∀ token ∈ tokens, token.kind.Shapes token.lexeme) (context : Context) :
    (Reader.ofTokens tokens context).Shaped := by
  refine List.forall_mem_cons.mpr ⟨?_, fun token member =>
    shapes token ((List.takeWhile_prefix _).subset member)⟩
  rw [Reader.ofTokens]
  dsimp only
  split
  next token rest left =>
    exact shapes token ((List.dropWhile_suffix _).subset (left ▸ List.mem_cons_self))
  next => exact .plain (by rintro ⟨⟩) (by rintro ⟨⟩) _

theorem lasting_shaped : Lasting Reader.Shaped Ordinary where
  next _ shaped := shaped.next
  inContext _ _ shaped := shaped
  ordinary _ ordinary := ordinary
  invalidInt _ shaped isInt unread := by
    have reads := Decimal.int?_isSome (shaped.peek.int isInt)
    rw [unread] at reads
    cases reads
  invalidDouble _ shaped isDouble unread := by
    have reads := Decimal.double?_isSome (shaped.peek.double isDouble)
    rw [unread] at reads
    cases reads

end Grammar

/-! ## Scanned tokens -/

variable {source : String} {tokens : List Token}

theorem scan_shapes (run : scan source = .ok tokens) :
    ∀ token ∈ tokens, token.kind.Shapes token.lexeme := by
  obtain ⟨ahead, ended, scans⟩ := scan_ok run
  obtain ⟨finish, isEnd, rfl⟩ := ended.last
  intro token member
  rcases List.mem_append.mp member with member | member
  · obtain ⟨first, rest, isToken⟩ := scans.exists_piece token.bare (List.mem_map_of_mem member)
    exact (Piece.cut_shaped first rest).token _ _ isToken
  · obtain rfl := List.mem_singleton.mp member
    have atEnd : token.kind = .eof := congrArg Prod.fst isEnd
    exact .plain (by rw [atEnd]; decide) (by rw [atEnd]; decide) _

theorem rewritten_of_ended {ahead : List Token} (ended : Grammar.Ended tokens ahead) :
    rewritten tokens =
      " ".intercalate (ahead.map fun token => token.kind.written token.lexeme) := by
  obtain ⟨finish, isEnd, rfl⟩ := ended.last
  have atEnd : finish.kind = .eof := congrArg Prod.fst isEnd
  have kept : ahead.filter (fun token => token.kind ≠ .eof) = ahead :=
    List.filter_eq_self.mpr fun token member => decide_eq_true (ended.endless token member)
  have left : [finish].filter (fun token => token.kind ≠ .eof) = [] := by
    rw [List.filter_singleton, atEnd]
    rfl
  rw [rewritten, List.filter_append, kept, left, List.append_nil]

theorem scan_rewritten (run : scan source = .ok tokens) :
    ∃ again, scan (rewritten tokens) = .ok again ∧
      again.map Token.bare = tokens.map Token.bare := by
  obtain ⟨ahead, ended, scans⟩ := scan_ok run
  have rescans : ∀ token ∈ ahead, Rescans token.kind token.lexeme := by
    intro token member
    obtain ⟨first, rest, isToken⟩ := scans.exists_piece token.bare (List.mem_map_of_mem member)
    exact Piece.rescans isToken
  obtain ⟨again, behind, runAgain, endedAgain, same⟩ :=
    (scans_intercalate rescans).scanFrom Position.start
  refine ⟨again, ?_, ?_⟩
  · rw [rewritten_of_ended ended]
    exact runAgain
  · obtain ⟨finish, isEnd, rfl⟩ := ended.last
    obtain ⟨finishAgain, isEndAgain, rfl⟩ := endedAgain.last
    simp only [List.map_append, same, List.map_cons, List.map_nil, isEnd, isEndAgain]

/-- The tokens of a text can be written and scanned again, and no numeral is ever refused
as invalid, neither when a text is scanned nor when its tokens are read. -/
theorem scan_stable (source : String) :
    (∀ tokens, scan source = .ok tokens →
      (∃ again, scan (rewritten tokens) = .ok again ∧
        again.map Token.bare = tokens.map Token.bare) ∧
      (∀ token ∈ tokens, token.kind.Shapes token.lexeme) ∧
      ∀ context fault lexeme, parse tokens context = .error fault →
        fault.cause ≠ .grammar (.invalidInt lexeme) ∧
          fault.cause ≠ .grammar (.invalidDouble lexeme)) ∧
      ∀ fault lexeme, scan source = .error fault →
        fault.cause ≠ .lexical (.invalidDouble lexeme) := by
  refine ⟨fun tokens run => ⟨scan_rewritten run, scan_shapes run, ?_⟩,
    fun fault lexeme run => scanFrom_valid run lexeme⟩
  intro context fault lexeme refused
  have ordinary := parse_refusesOnly Grammar.lasting_shaped
    (Grammar.Reader.ofTokens_shaped (scan_shapes run) context) refused
  constructor <;> intro same <;> rw [same] at ordinary <;> exact ordinary

/-- Tokens without blanks between them, and a string with a line break, quotes and what
would be a comment in it. -/
def crowded : String := "12-3.;x=\"\\\"#\\\\\n\"if"

theorem crowded_stable :
    ∃ tokens again, scan crowded = .ok tokens ∧
      rewritten tokens = "12 - 3. ; x = \"\\\"#\\\\\n\" if" ∧
      scan (rewritten tokens) = .ok again ∧ again.map Token.bare = tokens.map Token.bare := by
  have checked : (scan crowded).toOption.any (fun tokens =>
      decide (rewritten tokens = "12 - 3. ; x = \"\\\"#\\\\\n\" if")) = true := by decide +kernel
  obtain ⟨tokens, isScan, isWritten⟩ := (Option.any_eq_true _ _).mp checked
  have run : scan crowded = .ok tokens := ok_of_toOption isScan
  obtain ⟨⟨again, runAgain, same⟩, -⟩ := (scan_stable crowded).1 tokens run
  exact ⟨tokens, again, run, of_decide_eq_true isWritten, runAgain, same⟩

end RobotScript
