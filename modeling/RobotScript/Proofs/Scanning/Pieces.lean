import RobotScript.Proofs.Joining.Texts

/-! # What stands in a piece

A piece that is no token holds white space or a comment. A token's lexeme is its text, as
it stands; that of a string is what its text spells between the quotes. -/
set_option autoImplicit false

namespace RobotScript

/-! ## Between tokens -/

/-- White space and comments, each of which runs from a `#` to the next one. -/
inductive Gap : List Char → Prop
  | nil : Gap []
  | blank {character : Char} {rest : List Char} (isBlank : Text.isBlank character = true)
      (behind : Gap rest) : Gap (character :: rest)
  | comment {inside rest : List Char} (within : '#' ∉ inside) (behind : Gap rest) :
      Gap ('#' :: inside ++ '#' :: rest)

/-- At the end of a text the last comment may be left open. -/
inductive LastGap : List Char → Prop
  | closed {characters : List Char} (gap : Gap characters) : LastGap characters
  | opened {front inside : List Char} (gap : Gap front) (within : '#' ∉ inside) :
      LastGap (front ++ '#' :: inside)

theorem Gap.append {first second : List Char} (one : Gap first) (two : Gap second) :
    Gap (first ++ second) := by
  induction one with
  | nil => exact two
  | blank isBlank _ ih => exact .blank isBlank ih
  | @comment inside rest within _ ih =>
    have same : '#' :: inside ++ '#' :: rest ++ second = '#' :: inside ++ '#' :: (rest ++ second) :=
      List.append_assoc _ _ _
    exact same ▸ .comment within ih

theorem LastGap.behind {first second : List Char} (one : Gap first) (two : LastGap second) :
    LastGap (first ++ second) := by
  cases two with
  | closed gap => exact .closed (one.append gap)
  | opened gap within => exact (List.append_assoc ..).symm ▸ .opened (one.append gap) within

/-- A comment is closed by the next `#`, or it takes all that is left. -/
theorem commentTail_gap (characters : List Char) :
    Gap ('#' :: (commentTail characters).1) ∨
      (commentTail characters).2 = [] ∧ LastGap ('#' :: (commentTail characters).1) := by
  have taken : (∃ inside, '#' ∉ inside ∧ (commentTail characters).1 = inside ++ ['#']) ∨
      (commentTail characters).2 = [] ∧ '#' ∉ (commentTail characters).1 := by
    induction characters with
    | nil => exact .inr ⟨rfl, List.not_mem_nil⟩
    | cons character rest ih =>
      rw [commentTail]
      by_cases closes : character = '#'
      · rw [if_pos closes]
        exact .inl ⟨[], List.not_mem_nil, congrArg ([·]) closes⟩
      · rw [if_neg closes]
        rcases ih with ⟨inside, within, same⟩ | ⟨rest, within⟩
        · refine .inl ⟨character :: inside, ?_, congrArg (character :: ·) same⟩
          exact fun member => (List.mem_cons.mp member).elim (Ne.symm closes) within
        · refine .inr ⟨rest, ?_⟩
          exact fun member => (List.mem_cons.mp member).elim (Ne.symm closes) within
  rcases taken with ⟨inside, within, same⟩ | ⟨rest, within⟩
  · exact .inl (same ▸ .comment within .nil)
  · exact .inr ⟨rest, .opened .nil within⟩

/-! ## How tokens are written -/

/-- The characters between the quotes of a string and the content that they spell, from left
to right: a backslash is left out and the character behind it is kept, whatever it is; any
other character stands for itself, and is no quote. -/
inductive Spells : List Char → List Char → Prop
  | nil : Spells [] []
  | kept (character : Char) {body content : List Char} (behind : Spells body content) :
      Spells ('\\' :: character :: body) (character :: content)
  | plain {character : Char} {body content : List Char} (noQuote : character ≠ '"')
      (noEscape : character ≠ '\\') (behind : Spells body content) :
      Spells (character :: body) (character :: content)

def TokenKind.Writes (kind : TokenKind) (lexeme : String) (written : List Char) : Prop :=
  if kind = .string then
    ∃ body, written = '"' :: (body ++ ['"']) ∧ Spells body lexeme.toList
  else written = lexeme.toList

theorem quotedTail_spells {characters : List Char} (closed : (quotedTail characters).closed = true) :
    ∃ body, (quotedTail characters).taken = body ++ ['"'] ∧
      Spells body (quotedTail characters).content := by
  fun_induction quotedTail characters with
  | case1 => cases closed
  | case2 rest => exact ⟨[], rfl, .nil⟩
  | case3 => cases closed
  | case4 kept rest _ tail ih =>
    obtain ⟨body, taken, spells⟩ := ih closed
    exact ⟨'\\' :: kept :: body, congrArg ('\\' :: kept :: ·) taken, .kept kept spells⟩
  | case5 character rest noQuote noEscape tail ih =>
    obtain ⟨body, taken, spells⟩ := ih closed
    exact ⟨character :: body, congrArg (character :: ·) taken, .plain noQuote noEscape spells⟩

namespace Piece

/-- What a piece is, is what its characters say. -/
def Tells (first : Char) (piece : Piece) : Prop :=
  match piece.kind with
  | .blank => Gap (first :: piece.taken) ∨ piece.rest = [] ∧ LastGap (first :: piece.taken)
  | .token kind lexeme => kind.Writes lexeme (first :: piece.taken)
  | .refused _ => True

theorem Verbatim.tells {first : Char} {piece : Piece}
    (verbatim : Verbatim (· ≠ .string) first piece) : piece.Tells first := by
  obtain ⟨plain, taken, rest⟩ := verbatim
  exact (if_neg plain).mpr String.toList_ofList.symm

theorem quoted_tells (rest : List Char) : (quoted rest).Tells '"' := by
  cases closed : (quotedTail rest).closed with
  | true =>
    obtain ⟨body, taken, spells⟩ := quotedTail_spells closed
    rw [Tells, quoted, closed]
    refine (if_pos rfl).mpr ⟨body, congrArg ('"' :: ·) taken, ?_⟩
    exact String.toList_ofList ▸ spells
  | false =>
    rw [Tells, quoted, closed]
    trivial

theorem accepted_tells {kind : TokenKind} (plain : kind ≠ .string) (accepted : Prop)
    [Decidable accepted] (cause : LexicalCause) (first : Char) (taken rest : List Char) :
    Tells first ⟨if accepted then .token kind (String.ofList (first :: taken))
      else .refused cause, taken, rest⟩ := by
  by_cases isAccepted : accepted
  · rw [if_pos isAccepted]
    exact (@Verbatim.intro (· ≠ .string) first kind plain taken rest).tells
  · rw [Tells, if_neg isAccepted]
    trivial

theorem number_tells (first : Char) (rest : List Char) : (number first rest).Tells first := by
  unfold number
  dsimp only
  split
  · exact accepted_tells (by decide) _ _ first _ _
  · exact accepted_tells (by decide) _ _ first _ _

theorem cut_tells (first : Char) (rest : List Char) : (cut first rest).Tells first := by
  unfold cut
  split
  all_goals first
    | exact (single_verbatim (by decide) _ _).tells
    | exact (pairOr_verbatim (by decide) (by decide) _ _).tells
    | exact commentTail_gap rest
    | exact quoted_tells rest
    | skip
  split
  next isBlank => exact .inl (.blank isBlank .nil)
  next =>
    split
    · exact number_tells _ _
    · split
      · exact (word_verbatim (by decide) (by decide) _ _).tells
      · trivial

end Piece

end RobotScript
