import RobotScript.Proofs.Placing.Texts
import RobotScript.Proofs.Reading.Outcomes
import RobotScript.Proofs.Scanning.Pieces

/-! # Tokens tile their text

The spans of the tokens of a text follow one another; each holds the text of its token, and
between them there is nothing but white space and comments. -/
set_option autoImplicit false

namespace RobotScript

variable {text rest : List Char} {low : Nat}

/-! ## Ranges of a text -/

def between (text : List Char) (low high : Nat) : List Char := (text.take high).drop low

def Span.characters (text : List Char) (span : Span) : List Char :=
  between text span.start.index span.stop.index

theorem between_self (text : List Char) (index : Nat) : between text index index = [] :=
  List.drop_eq_nil_of_le (List.length_take_le ..)

theorem Position.index_le_advanceOver (position : Position) (taken : List Char) :
    position.index ≤ (position.advanceOver taken).index :=
  (advanceOver_index ..).symm ▸ Nat.le_add_right _ _

theorem Piece.taken_at {position : Position} {first : Char} (here : position.At text (first :: rest)) :
    position.At text ((first :: (cut first rest).taken) ++ (cut first rest).rest) := by
  rw [List.cons_append, cut_append]
  exact here

theorem Position.At.take {position : Position} (here : position.At text rest) :
    text = text.take position.index ++ rest ∧ (text.take position.index).length = position.index := by
  obtain ⟨front, rfl, rfl⟩ := here
  have index : (start.advanceOver front).index = front.length :=
    (advanceOver_index start front).trans (Nat.zero_add _)
  rw [index, List.take_left]
  exact ⟨rfl, rfl⟩

theorem Position.At.between {position : Position} {taken : List Char}
    (here : position.At text (taken ++ rest)) (before : low ≤ position.index) :
    between text low (position.advanceOver taken).index =
      between text low position.index ++ taken := by
  obtain ⟨whole, length⟩ := here.take
  have behind := here.advanceOver.take
  have same : text.take (position.advanceOver taken).index = text.take position.index ++ taken := by
    refine List.append_cancel_right (behind.1.symm.trans ?_)
    rw [List.append_assoc]
    exact whole
  have inside : low ≤ (text.take position.index).length := length.symm ▸ before
  rw [RobotScript.between, RobotScript.between, same, List.drop_append_of_le_length inside]

theorem Position.At.drop {position : Position} (here : position.At text []) (low : Nat) :
    text.drop low = RobotScript.between text low position.index := by
  have whole := here.take.1
  rw [List.append_nil] at whole
  rw [RobotScript.between, ← whole]

/-! ## Tilings -/

/-- Where the last of some tokens is over; `low` if there is none. -/
def endFrom (low : Nat) : List Token → Nat
  | [] => low
  | token :: tokens => endFrom token.span.stop.index tokens

/-- The tokens tile a text from an index on. Their spans are not empty, run between positions of
the text and follow one another; each holds the text of its token, and what is left between them
and behind the last one is white space and comments. -/
structure Tiles (text : List Char) (low : Nat) (tokens : List Token) : Prop where
  kinds : ∀ token ∈ tokens, token.kind ≠ .eof
  within : ∀ token ∈ tokens, token.span.In text
  filled : ∀ token ∈ tokens, token.span.start.index < token.span.stop.index
  starts : ∀ token ∈ tokens, low ≤ token.span.start.index
  ordered : tokens.Pairwise fun one two => one.span.stop.index ≤ two.span.start.index
  written : ∀ token ∈ tokens, token.kind.Writes token.lexeme (token.span.characters text)
  gaps : ∀ front token back, tokens = front ++ token :: back →
    Gap (between text (endFrom low front) token.span.start.index)
  rest : LastGap (text.drop (endFrom low tokens))

namespace Tiles

theorem nil (rest : LastGap (text.drop low)) : Tiles text low [] where
  kinds := by rintro _ ⟨⟩
  within := by rintro _ ⟨⟩
  filled := by rintro _ ⟨⟩
  starts := by rintro _ ⟨⟩
  ordered := .nil
  written := by rintro _ ⟨⟩
  gaps front token back same := by
    cases front <;> cases same
  rest := rest

theorem cons {token : Token} {tokens : List Token} (kind : token.kind ≠ .eof)
    (within : token.span.In text) (filled : token.span.start.index < token.span.stop.index)
    (starts : low ≤ token.span.start.index)
    (written : token.kind.Writes token.lexeme (token.span.characters text))
    (gap : Gap (between text low token.span.start.index))
    (behind : Tiles text token.span.stop.index tokens) : Tiles text low (token :: tokens) where
  kinds := List.forall_mem_cons.mpr ⟨kind, behind.kinds⟩
  within := List.forall_mem_cons.mpr ⟨within, behind.within⟩
  filled := List.forall_mem_cons.mpr ⟨filled, behind.filled⟩
  starts := List.forall_mem_cons.mpr ⟨starts, fun other member =>
    Nat.le_trans starts (Nat.le_trans (Nat.le_of_lt filled) (behind.starts other member))⟩
  ordered := .cons behind.starts behind.ordered
  written := List.forall_mem_cons.mpr ⟨written, behind.written⟩
  gaps front other back same := by
    cases front with
    | nil =>
      obtain ⟨rfl, -⟩ := List.cons.inj same
      exact gap
    | cons first front =>
      obtain ⟨rfl, others⟩ := List.cons.inj same
      exact behind.gaps front other back others
  rest := behind.rest

end Tiles

/-! ## Scanning -/

def endToken (text : List Char) : Token :=
  ⟨.eof, "", .point (Position.start.advanceOver text)⟩

/-- Scanning on from a position, behind a gap, gives tokens that tile the text from there. -/
theorem scanFrom_tiles {position : Position} {characters : List Char} {tokens : List Token}
    (here : position.At text characters) (before : low ≤ position.index)
    (gap : Gap (between text low position.index) ∨
      characters = [] ∧ LastGap (between text low position.index))
    (run : scanFrom position characters = .ok tokens) :
    ∃ body, tokens = body ++ [endToken text] ∧ Tiles text low body := by
  fun_induction scanFrom position characters generalizing low tokens with
  | case1 position =>
    cases run
    refine ⟨[], ?_, .nil ?_⟩
    · obtain ⟨front, rfl, rfl⟩ := here
      rw [endToken, List.append_nil]
      rfl
    · rw [here.drop]
      exact gap.elim .closed And.right
  | case2 =>
    rename_i position first rest piece span blank ih
    have open_ : Gap (between text low position.index) := gap.resolve_right fun none => List.cons_ne_nil _ _ none.1
    have taken := Piece.taken_at here
    have tells := Piece.cut_tells first rest
    rw [Piece.Tells, blank] at tells
    -- A blank or a comment only widens the gap before the next token.
    refine ih taken.advanceOver (Nat.le_trans before (Position.index_le_advanceOver ..)) ?_ run
    rw [taken.between before]
    exact tells.imp open_.append fun last => ⟨last.1, last.2.behind open_⟩
  | case3 => cases run
  | case4 => cases run
  | case5 =>
    rename_i position first rest piece span kind lexeme isToken tokens scanned ih
    cases run
    have open_ : Gap (between text low position.index) := gap.resolve_right fun none => List.cons_ne_nil _ _ none.1
    have taken := Piece.taken_at here
    have tells := Piece.cut_tells first rest
    rw [Piece.Tells, isToken] at tells
    -- Behind a token the gap is empty again.
    obtain ⟨body, rfl, tiles⟩ :=
      ih taken.advanceOver (Nat.le_refl _) (.inl (between_self text _ ▸ .nil)) scanned
    refine ⟨⟨kind, lexeme, span⟩ :: body, rfl, .cons ?_ ?_ ?_ before ?_ open_ tiles⟩
    · exact Piece.cut_notEnd first rest kind lexeme isToken
    · exact (Piece.cut_at here).1
    · exact (Position.advanceOver_index ..).symm ▸ Nat.lt_add_of_pos_right (Nat.succ_pos _)
    · have characters : Span.characters text span = first :: piece.taken := by
        rw [Span.characters, taken.between (Nat.le_refl _), between_self]
        rfl
      exact characters ▸ tells

/-- The tokens of a text that scans are those that tile it, and one that marks its end. -/
theorem scan_tiles (source : String) (tokens : List Token) (run : scan source = .ok tokens) :
    ∃ body, tokens = body ++ [endToken source.toList] ∧ Tiles source.toList 0 body :=
  scanFrom_tiles (Position.at_start source.toList) (Nat.le_refl 0)
    (.inl (between_self source.toList 0 ▸ .nil)) run

/-- A string with a quote in it, a comment over the line break, and a comment left open. -/
def annotated : String := "x =+ \"a\\\"b\" # over\nlines # 12 # open"

theorem annotated_tiles :
    ∃ tokens body, scan annotated = .ok tokens ∧ tokens = body ++ [endToken annotated.toList] ∧
      Tiles annotated.toList 0 body ∧ body.map (·.lexeme) = ["x", "=+", "a\"b", "12"] := by
  have checked : (scan annotated).toOption.any (fun tokens =>
      decide (tokens.map (·.lexeme) = ["x", "=+", "a\"b", "12", ""])) = true := by decide +kernel
  obtain ⟨tokens, isScan, lexemes⟩ := (Option.any_eq_true _ _).mp checked
  have run : scan annotated = .ok tokens := ok_of_toOption isScan
  obtain ⟨body, rfl, tiles⟩ := scan_tiles annotated tokens run
  refine ⟨_, body, run, rfl, tiles, ?_⟩
  have lexemes := of_decide_eq_true lexemes
  rw [List.map_append] at lexemes
  exact List.append_cancel_right lexemes

end RobotScript
