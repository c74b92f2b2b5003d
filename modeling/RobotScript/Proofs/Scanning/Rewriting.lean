import RobotScript.Proofs.Scanning.Numerals
import RobotScript.Proofs.Scanning.Tiling

/-! # Tokens written back

A token can be written back as text: as its lexeme or, for a string, with quotes around
the content and a backslash before each quote and backslash in it. The texts of the tokens
of a script, with single spaces between them, have the same tokens. -/
set_option autoImplicit false

namespace RobotScript

/-! ## Writing -/

def escaped (content : List Char) : List Char :=
  content.flatMap fun character =>
    if character = '"' ∨ character = '\\' then ['\\', character] else [character]

def TokenKind.written (kind : TokenKind) (lexeme : String) : String :=
  if kind = .string then String.ofList ('"' :: (escaped lexeme.toList ++ ['"'])) else lexeme

/-- The tokens written back, the end left out, with a space between each two. -/
def rewritten (tokens : List Token) : String :=
  " ".intercalate ((tokens.filter fun token => token.kind ≠ .eof).map fun token =>
    token.kind.written token.lexeme)

/-! ## Pieces by themselves -/

namespace Piece

/-- The second piece is what the first one is, with nothing behind it; strings apart. -/
def Alone (piece again : Piece) : Prop :=
  ∀ kind lexeme, piece.kind = .token kind lexeme → kind ≠ .string →
    again = ⟨.token kind lexeme, piece.taken, []⟩

theorem pairOr_alone (kind : TokenKind) (pairs : List (Char × TokenKind)) (first : Char)
    (rest : List Char) :
    (pairOr kind pairs first rest).Alone
      (pairOr kind pairs first (pairOr kind pairs first rest).taken) := by
  cases rest with
  | nil =>
    rintro _ _ ⟨⟩ -
    rfl
  | cons second more =>
    rw [pairOr]
    split
    next found =>
      rintro _ _ ⟨⟩ -
      rw [pairOr, found]
    next =>
      rintro _ _ ⟨⟩ -
      rfl

theorem word_alone (first : Char) (rest : List Char) :
    (word first rest).Alone (word first (word first rest).taken) := by
  rintro _ _ ⟨⟩ -
  have left : (rest.takeWhile isNameCharacter).dropWhile isNameCharacter = [] :=
    List.dropWhile_eq_nil_iff.mpr fun _ => List.mem_takeWhile_imp
  simp only [word, List.takeWhile_idem, left]

theorem number_alone (first : Char) (rest : List Char) :
    (number first rest).Alone (number first (number first rest).taken) := by
  have left (characters : List Char) :
      (characters.takeWhile Decimal.isDigit).dropWhile Decimal.isDigit = [] :=
    List.dropWhile_eq_nil_iff.mpr (digits_takeWhile characters)
  intro kind lexeme isToken _
  by_cases point : ∃ more, rest.dropWhile Decimal.isDigit = '.' :: more
  · obtain ⟨more, point⟩ := point
    obtain ⟨again, behind⟩ := Decimal.takeWhile_digits (digits_takeWhile rest)
      (more.takeWhile Decimal.isDigit)
    rw [number_of_point point] at isToken ⊢
    rw [number_of_point behind, again, List.takeWhile_idem, left]
    dsimp only at isToken ⊢
    rw [isToken]
  · have whole : ∀ more, rest.dropWhile Decimal.isDigit ≠ '.' :: more :=
      fun more here => point ⟨more, here⟩
    rw [number_of_whole whole] at isToken ⊢
    rw [number_of_whole (by rw [left]; rintro _ ⟨⟩), List.takeWhile_idem, left]
    dsimp only at isToken ⊢
    rw [isToken]

theorem quoted_alone (rest : List Char) (again : Piece) : (quoted rest).Alone again := by
  intro kind lexeme isToken noString
  rw [quoted] at isToken
  dsimp only at isToken
  split at isToken
  · cases isToken
    exact absurd rfl noString
  · cases isToken

theorem cut_alone (first : Char) (rest : List Char) :
    (cut first rest).Alone (cut first (cut first rest).taken) := by
  generalize same : (cut first rest).taken = taken
  revert same
  unfold cut
  split <;> rintro rfl
  all_goals first
    | (rintro _ _ ⟨⟩ -; rfl)
    | exact pairOr_alone _ _ _ _
    | (rintro _ _ ⟨⟩)
    | skip
  · exact quoted_alone rest _
  · split
    · rintro _ _ ⟨⟩
    · split
      · exact number_alone _ _
      · split
        · exact word_alone _ _
        · rintro _ _ ⟨⟩

/-- What was escaped is read back as it was, up to the quote behind it. -/
theorem quotedTail_escaped (content : List Char) :
    quotedTail (escaped content ++ ['"']) = ⟨true, content, escaped content ++ ['"'], []⟩ := by
  induction content with
  | nil => rfl
  | cons character rest ih =>
    rw [escaped, List.flatMap_cons, ← escaped]
    by_cases special : character = '"' ∨ character = '\\'
    · rw [if_pos special]
      change quotedTail ('\\' :: character :: (escaped rest ++ ['"'])) = _
      rw [quotedTail, ih]
      rfl
    · have noQuote : character ≠ '"' := fun isQuote => special (.inl isQuote)
      have noEscape : character ≠ '\\' := fun isEscape => special (.inr isEscape)
      rw [if_neg special]
      change quotedTail (character :: (escaped rest ++ ['"'])) = _
      rw [quotedTail.eq_def]
      simp only [if_neg noQuote, if_neg noEscape, ih]
      rfl

theorem cut_escaped (content : List Char) :
    cut '"' (escaped content ++ ['"']) =
      ⟨.token .string (String.ofList content), escaped content ++ ['"'], []⟩ := by
  change quoted _ = _
  rw [quoted, quotedTail_escaped]
  rfl

end Piece

/-! ## Texts of tokens -/

structure Rescans (kind : TokenKind) (lexeme : String) : Prop where
  scans : Scans (kind.written lexeme).toList [(kind, lexeme)]
  closes : ClosesComments (kind.written lexeme).toList

theorem Rescans.of_cut {kind : TokenKind} {lexeme : String} {first : Char} {taken : List Char}
    (written : (kind.written lexeme).toList = first :: taken)
    (again : Piece.cut first taken = ⟨.token kind lexeme, taken, []⟩) : Rescans kind lexeme := by
  have noComment : first ≠ '#' := by
    rintro rfl
    cases congrArg Piece.kind again
  refine ⟨written ▸ .token (congrArg Piece.kind again) ?_, written ▸ .cons ?_ ?_⟩
  · exact (congrArg Piece.rest again).symm ▸ .nil
  · exact fun isComment => absurd isComment noComment
  · exact (congrArg Piece.rest again).symm ▸ .nil

theorem Piece.rescans {first : Char} {rest : List Char} {kind : TokenKind} {lexeme : String}
    (isToken : (Piece.cut first rest).kind = .token kind lexeme) : Rescans kind lexeme := by
  by_cases isString : kind = .string
  · subst isString
    have again := cut_escaped lexeme.toList
    rw [String.ofList_toList] at again
    refine .of_cut ?_ again
    rw [TokenKind.written, if_pos rfl, String.toList_ofList]
  · have tells := Piece.cut_tells first rest
    rw [Piece.Tells, isToken] at tells
    refine .of_cut ?_ (cut_alone first rest kind lexeme isToken isString)
    rw [TokenKind.written, if_neg isString]
    exact ((if_neg isString).mp tells).symm

theorem scans_intercalate {tokens : List Token}
    (rescans : ∀ token ∈ tokens, Rescans token.kind token.lexeme) :
    Scans (" ".intercalate (tokens.map fun token => token.kind.written token.lexeme)).toList
      (tokens.map Token.bare) := by
  induction tokens with
  | nil => exact .nil
  | cons token others ih =>
    have one := rescans token List.mem_cons_self
    have behind := ih fun other member => rescans other (List.mem_cons_of_mem _ member)
    cases others with
    | nil => simpa [Token.bare] using one.scans
    | cons second others =>
      have whole := Scans.joined (.inr rfl) one.closes one.scans behind
      simpa [Token.bare, String.intercalate_cons_cons] using whole

end RobotScript
