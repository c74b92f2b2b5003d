import RobotScript.Proofs.Scanning.Tiling

/-! # A text below another

Where a text begins only moves the places in what scanning makes of it: below another text
they are so many characters and lines further on, in the same columns. If all comments of
the text above end in it, the line break between the two ends its last piece, and so both
are scanned as they are by themselves. -/
set_option autoImplicit false

namespace RobotScript

/-! ## Moved places -/

structure Distance where
  characters : Nat
  lines : Nat
deriving DecidableEq, Repr

def Distance.past (text : List Char) : Distance := ⟨text.length + 1, text.count '\n' + 1⟩

def Position.moved (distance : Distance) (position : Position) : Position :=
  ⟨position.index + distance.characters, position.line + distance.lines, position.column⟩

def Span.moved (distance : Distance) (span : Span) : Span :=
  ⟨span.start.moved distance, span.stop.moved distance⟩

def Token.moved (distance : Distance) (token : Token) : Token :=
  { token with span := token.span.moved distance }

def Fault.moved (distance : Distance) (fault : Fault) : Fault :=
  { fault with span := fault.span.moved distance }

def movedScan (distance : Distance) : Except Fault (List Token) → Except Fault (List Token)
  | .ok tokens => .ok (tokens.map (·.moved distance))
  | .error fault => .error (fault.moved distance)

namespace Position

variable (distance : Distance)

theorem advance_moved (position : Position) (character : Char) :
    (position.moved distance).advance character = (position.advance character).moved distance := by
  unfold advance moved
  split
  · rw [Nat.add_right_comm, Nat.add_right_comm position.line]
  · rw [Nat.add_right_comm]

theorem advanceOver_moved (position : Position) (characters : List Char) :
    (position.moved distance).advanceOver characters =
      (position.advanceOver characters).moved distance := by
  induction characters generalizing position with
  | nil => rfl
  | cons character rest ih => rw [advanceOver_cons, advanceOver_cons, advance_moved, ih]

theorem advanceOver_line (position : Position) (characters : List Char) :
    (position.advanceOver characters).line = position.line + characters.count '\n' := by
  induction characters generalizing position with
  | nil => rfl
  | cons character rest ih =>
    rw [advanceOver_cons, ih, advance, List.count_cons]
    by_cases breaks : character = '\n'
    · simp only [if_pos breaks, beq_iff_eq]
      omega
    · simp only [if_neg breaks, beq_iff_eq]
      omega

theorem start_below (text : List Char) :
    start.advanceOver (text ++ ['\n']) = start.moved (.past text) := by
  rw [advanceOver_append]
  change (start.advanceOver text).advance '\n' = _
  rw [advance, if_pos rfl, advanceOver_index, advanceOver_line]
  simp only [moved, start, Distance.past, Nat.zero_add]

end Position

/-! ## Scanning -/

/-- A text further on has the same pieces, and moved places. -/
theorem scanFrom_moved (distance : Distance) (position : Position) (characters : List Char) :
    scanFrom (position.moved distance) characters =
      movedScan distance (scanFrom position characters) := by
  fun_induction scanFrom position characters with
  | case1 position =>
    rw [scanFrom]
    rfl
  | case2 position first rest piece span blank ih =>
    rw [scanFrom]
    simp only [Position.advanceOver_moved, blank, piece]
    exact ih
  | case3 position first rest piece span cause refused =>
    rw [scanFrom]
    simp only [Position.advanceOver_moved, refused, piece]
    rfl
  | case4 position first rest piece span kind lexeme isToken fault failed ih =>
    rw [scanFrom]
    rw [failed] at ih
    simp only [Position.advanceOver_moved, isToken, piece]
    rw [ih]
    rfl
  | case5 position first rest piece span kind lexeme isToken tokens scanned ih =>
    rw [scanFrom]
    rw [scanned] at ih
    simp only [Position.advanceOver_moved, isToken, piece]
    rw [ih]
    rfl

theorem Piece.stop_advanceOver (position : Position) (first : Char) (rest more : List Char) :
    (position.advanceOver (first :: (cut first rest).taken)).advanceOver
        ((cut first rest).rest ++ more) =
      position.advanceOver (first :: rest ++ more) := by
  rw [← Position.advanceOver_append, List.cons_append, ← List.append_assoc, cut_append,
    List.cons_append]

open Grammar (Ended)

/-- The tokens of a text come first in what is scanned with another text below it; then it
goes on behind the line break. -/
theorem scanFrom_below {position : Position} {above : List Char} {tokens : List Token}
    (closes : ClosesComments above) (run : scanFrom position above = .ok tokens)
    (below : List Char) :
    ∃ body, Ended tokens body ∧
      scanFrom position (above ++ '\n' :: below) =
        (scanFrom (position.advanceOver (above ++ ['\n'])) below).map (body ++ ·) := by
  fun_induction scanFrom position above generalizing tokens with
  | case1 position =>
    cases run
    refine ⟨[], .nil position, ?_⟩
    rw [List.nil_append, scanFrom]
    change scanFrom (position.advance '\n') below = Except.map id _
    exact (Except.map_id ▸ rfl)
  | case2 position first rest piece span blank =>
    rename_i ih
    change (Piece.cut first rest).kind = _ at blank
    cases closes with
    | cons closes closesBehind =>
      -- The line break ends whatever would go on; only an open comment would run over it.
      have same := Piece.cut_before (.inl rfl) closes (by rw [blank]; rintro _ ⟨⟩) below
      obtain ⟨body, ended, behind⟩ := ih closesBehind run
      refine ⟨body, ended, ?_⟩
      rw [List.cons_append, scanFrom, same]
      simp only [Piece.before, blank]
      rw [behind, Piece.stop_advanceOver]
  | case3 => cases run
  | case4 => cases run
  | case5 position first rest piece span kind lexeme isToken tokens scanned =>
    rename_i ih
    cases run
    change (Piece.cut first rest).kind = _ at isToken
    cases closes with
    | cons closes closesBehind =>
      have same := Piece.cut_before (.inl rfl) closes (by rw [isToken]; rintro _ ⟨⟩) below
      obtain ⟨body, ended, behind⟩ := ih closesBehind scanned
      have goesOn := Piece.cut_notEnd first rest kind lexeme isToken
      refine ⟨⟨kind, lexeme, span⟩ :: body, ended.cons goesOn, ?_⟩
      rw [List.cons_append, scanFrom, same]
      simp only [Piece.before, isToken]
      rw [behind, Piece.stop_advanceOver]
      cases scanFrom (position.advanceOver (first :: rest ++ ['\n'])) below <;> rfl

/-! ## Open comments -/

/-- Looks through a text for a comment that is left open. -/
def closesComments (characters : List Char) : Bool :=
  match characters with
  | [] => true
  | first :: rest =>
    (first ≠ '#' || rest.contains '#') && closesComments (Piece.cut first rest).rest
termination_by characters.length
decreasing_by exact Nat.lt_succ_of_le (Piece.cut_rest_length first rest)

theorem closesComments_iff {characters : List Char} :
    closesComments characters = true ↔ ClosesComments characters := by
  fun_induction closesComments characters with
  | case1 => exact ⟨fun _ => .nil, fun _ => rfl⟩
  | case2 first rest ih =>
    rw [Bool.and_eq_true, Bool.or_eq_true, decide_eq_true_eq, List.contains_iff_mem, ih]
    constructor
    · rintro ⟨closes, behind⟩
      exact .cons (fun isHash => closes.resolve_left fun noHash => noHash isHash) behind
    · rintro (_ | ⟨closes, behind⟩)
      exact ⟨(Decidable.em (first = '#')).symm.imp_right closes, behind⟩

instance (characters : List Char) : Decidable (ClosesComments characters) :=
  decidable_of_iff _ closesComments_iff

/-! ## Two texts -/

/-- A text that scans, with no comment left open, and a text below it scan as they do by
themselves: the tokens of the one, without the end, and then those of the other, or its
fault, as many characters and lines further on as the first text takes. -/
theorem scan_below {above : String} {tokens : List Token} (closes : ClosesComments above.toList)
    (run : scan above = .ok tokens) (below : String) :
    ∃ body, Ended tokens body ∧
      (∀ others, scan below = .ok others →
        scan (above ++ "\n" ++ below) =
          .ok (body ++ others.map (·.moved (.past above.toList)))) ∧
      ∀ fault, scan below = .error fault →
        scan (above ++ "\n" ++ below) = .error (fault.moved (.past above.toList)) := by
  obtain ⟨body, ended, whole⟩ := scanFrom_below closes run below.toList
  have characters : (above ++ "\n" ++ below).toList = above.toList ++ '\n' :: below.toList := by
    simp
  rw [Position.start_below, scanFrom_moved, ← characters] at whole
  change scan (above ++ "\n" ++ below) = (movedScan _ (scan below)).map _ at whole
  refine ⟨body, ended, fun others scanned => ?_, fun fault failed => ?_⟩
  · rw [whole, scanned]
    rfl
  · rw [whole, failed]
    rfl

/-- A string and a comment over line breaks, and a number that the end of the text ends. -/
def stacked : String := "\"a\nb\" # c\nd # 1."

theorem stacked_below :
    ∃ tokens body, ClosesComments stacked.toList ∧ scan stacked = .ok tokens ∧
      Ended tokens body ∧
      scan (stacked ++ "\n" ++ "5\n y") =
        .ok (body ++ [⟨.int, "5", ⟨17, 3, 0⟩, ⟨18, 3, 1⟩⟩,
          ⟨.identifier, "y", ⟨20, 4, 1⟩, ⟨21, 4, 2⟩⟩, ⟨.eof, "", ⟨21, 4, 2⟩, ⟨21, 4, 2⟩⟩]) ∧
      scan (stacked ++ "\n" ++ "\n?") =
        .error ⟨.lexical (.illegalCharacter '?'), ⟨18, 4, 0⟩, ⟨19, 4, 1⟩⟩ := by
  have scans : (scan stacked).toOption.isSome = true := by decide +kernel
  obtain ⟨tokens, isScan⟩ := Option.isSome_iff_exists.mp scans
  have run : scan stacked = .ok tokens := ok_of_toOption isScan
  have closes : ClosesComments stacked.toList := by decide +kernel
  have past : Distance.past stacked.toList = ⟨17, 3⟩ := by decide +kernel
  have below : scan "5\n y" = .ok [⟨.int, "5", ⟨0, 0, 0⟩, ⟨1, 0, 1⟩⟩,
      ⟨.identifier, "y", ⟨3, 1, 1⟩, ⟨4, 1, 2⟩⟩, ⟨.eof, "", ⟨4, 1, 2⟩, ⟨4, 1, 2⟩⟩] := by
    decide +kernel
  have fails : scan "\n?" = .error ⟨.lexical (.illegalCharacter '?'), ⟨1, 1, 0⟩, ⟨2, 1, 1⟩⟩ := by
    decide +kernel
  obtain ⟨body, ended, composes, -⟩ := scan_below closes run "5\n y"
  obtain ⟨-, -, -, failsToo⟩ := scan_below closes run "\n?"
  rw [past] at composes failsToo
  exact ⟨tokens, body, closes, run, ended, composes _ below, failsToo _ fails⟩

end RobotScript
