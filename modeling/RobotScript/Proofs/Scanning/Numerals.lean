import RobotScript.Proofs.Decimal.Shapes
import RobotScript.Proofs.Joining.Texts

/-! # Numerals among the pieces

The int tokens that scanning gives have values within 64 bits, and its double tokens are
digits with a point; what it takes for a double can always be read. -/
set_option autoImplicit false

namespace RobotScript

open Decimal (IntShaped DoubleShaped)

structure TokenKind.Shapes (kind : TokenKind) (lexeme : String) : Prop where
  int : kind = .int → IntShaped lexeme
  double : kind = .double → DoubleShaped lexeme

theorem TokenKind.Shapes.plain {kind : TokenKind} (notInt : kind ≠ .int) (notDouble : kind ≠ .double)
    (lexeme : String) : kind.Shapes lexeme :=
  ⟨fun isInt => absurd isInt notInt, fun isDouble => absurd isDouble notDouble⟩

namespace Piece

/-- The piece has the shape of what it is, and is not refused as a double. -/
structure Shaped (piece : Piece) : Prop where
  token : ∀ kind lexeme, piece.kind = .token kind lexeme → kind.Shapes lexeme
  valid : ∀ lexeme, piece.kind ≠ .refused (.invalidDouble lexeme)

theorem Shaped.plain {kind : TokenKind} (notInt : kind ≠ .int) (notDouble : kind ≠ .double)
    (lexeme : String) (taken rest : List Char) : Shaped ⟨.token kind lexeme, taken, rest⟩ where
  token := by
    rintro _ _ ⟨⟩
    exact .plain notInt notDouble lexeme
  valid := by rintro _ ⟨⟩

theorem Shaped.blank (taken rest : List Char) : Shaped ⟨.blank, taken, rest⟩ :=
  ⟨by rintro _ _ ⟨⟩, by rintro _ ⟨⟩⟩

theorem Shaped.refused {cause : LexicalCause} (other : ∀ lexeme, cause ≠ .invalidDouble lexeme)
    (taken rest : List Char) : Shaped ⟨.refused cause, taken, rest⟩ where
  token := by rintro _ _ ⟨⟩
  valid := by
    rintro lexeme ⟨⟩
    exact other lexeme rfl

theorem Verbatim.shaped {first : Char} {piece : Piece}
    (verbatim : Verbatim (fun kind => kind ≠ .int ∧ kind ≠ .double) first piece) :
    piece.Shaped := by
  obtain ⟨isOther, taken, rest⟩ := verbatim
  exact .plain isOther.1 isOther.2 _ _ _

theorem quoted_shaped (rest : List Char) : (quoted rest).Shaped := by
  rw [quoted]
  split
  · exact .plain (by decide) (by decide) _ _ _
  · exact .refused (by rintro _ ⟨⟩) _ _

theorem number_of_point {rest more : List Char}
    (point : rest.dropWhile Decimal.isDigit = '.' :: more) (first : Char) :
    let taken := rest.takeWhile Decimal.isDigit ++ '.' :: more.takeWhile Decimal.isDigit
    let lexeme := String.ofList (first :: taken)
    number first rest = ⟨if (Decimal.double? lexeme).isSome then .token .double lexeme
      else .refused (.invalidDouble lexeme), taken, more.dropWhile Decimal.isDigit⟩ := by
  intro taken lexeme
  unfold number
  rw [point]
  rfl

theorem number_of_whole {rest : List Char}
    (whole : ∀ more, rest.dropWhile Decimal.isDigit ≠ '.' :: more) (first : Char) :
    let lexeme := String.ofList (first :: rest.takeWhile Decimal.isDigit)
    number first rest = ⟨if (Decimal.int? lexeme).isSome then .token .int lexeme
      else .refused (.intOutOfRange lexeme), rest.takeWhile Decimal.isDigit,
      rest.dropWhile Decimal.isDigit⟩ := by
  intro lexeme
  unfold number
  dsimp only
  split
  next more point => exact absurd point (whole more)
  next => rfl

theorem digits_takeWhile (characters : List Char) :
    ∀ character ∈ characters.takeWhile Decimal.isDigit, Decimal.isDigit character = true :=
  fun _ => List.mem_takeWhile_imp

theorem number_shaped {first : Char} (digit : Decimal.isDigit first = true) (rest : List Char) :
    (number first rest).Shaped := by
  by_cases point : ∃ more, rest.dropWhile Decimal.isDigit = '.' :: more
  · obtain ⟨more, point⟩ := point
    have shaped : DoubleShaped (String.ofList (first :: (rest.takeWhile Decimal.isDigit ++
        '.' :: more.takeWhile Decimal.isDigit))) :=
      ⟨first :: rest.takeWhile Decimal.isDigit, more.takeWhile Decimal.isDigit,
        String.toList_ofList, List.cons_ne_nil _ _,
        List.forall_mem_cons.mpr ⟨digit, digits_takeWhile rest⟩, digits_takeWhile more⟩
    rw [number_of_point point, if_pos (Decimal.double?_isSome shaped)]
    refine ⟨?_, by rintro _ ⟨⟩⟩
    rintro _ _ ⟨⟩
    exact ⟨by rintro ⟨⟩, fun _ => shaped⟩
  · rw [number_of_whole fun more here => point ⟨more, here⟩]
    split
    next fits =>
      refine ⟨?_, by rintro _ ⟨⟩⟩
      rintro _ _ ⟨⟩
      exact ⟨fun _ => (Decimal.int?_isSome_iff digit _).mp fits, by rintro ⟨⟩⟩
    next => exact .refused (by rintro _ ⟨⟩) _ _

theorem cut_shaped (first : Char) (rest : List Char) : (cut first rest).Shaped := by
  unfold cut
  split
  all_goals first
    | exact (single_verbatim (by decide) _ _).shaped
    | exact (pairOr_verbatim (by decide) (by decide) _ _).shaped
    | exact .blank _ _
    | exact quoted_shaped rest
    | skip
  split
  · exact .blank _ _
  · split
    next digit => exact number_shaped digit rest
    next =>
      split
      · exact (word_verbatim (by decide) (by decide) _ _).shaped
      · exact .refused (by rintro _ ⟨⟩) _ _

end Piece

/-! ## Texts -/

theorem Scans.exists_piece {characters : List Char} {shown : List (TokenKind × String)}
    (scans : Scans characters shown) :
    ∀ token ∈ shown, ∃ first rest, (Piece.cut first rest).kind = .token token.1 token.2 := by
  induction scans with
  | nil => rintro _ ⟨⟩
  | blank _ _ ih => exact ih
  | token isToken _ ih => exact List.forall_mem_cons.mpr ⟨⟨_, _, isToken⟩, ih⟩

theorem scanFrom_valid {position : Position} {characters : List Char} {fault : Fault}
    (run : scanFrom position characters = .error fault) (lexeme : String) :
    fault.cause ≠ .lexical (.invalidDouble lexeme) := by
  fun_induction scanFrom position characters with
  | case1 => cases run
  | case2 => rename_i ih; exact ih run
  | case3 =>
    rename_i position first rest piece span cause isRefused
    cases run
    rintro ⟨⟩
    exact (Piece.cut_shaped first rest).valid lexeme isRefused
  | case4 => rename_i failed ih; cases run; exact ih failed
  | case5 => cases run

end RobotScript
