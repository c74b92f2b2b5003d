import RobotScript.Proofs.Decimal.IntText
import RobotScript.Proofs.Rendering.ExpressionReads
import RobotScript.Proofs.Scanning.Numerals

/-! # Texts of ints are scanned as tokens

What an int or a list of ints is printed as is scanned as the tokens of a tree: a sign is a
token of its own, so the digits behind it have to be those of an int. The digits of the least
int are not: its opposite is no int. -/
set_option autoImplicit false

namespace RobotScript

/-! ## Trees of values -/

/-- A literal, or a minus and the literal of the opposite int. -/
def spelledInt (number : Int64) : Node :=
  if number < 0 then
    ⟨.unary .negate ⟨.literal (.int (-number)), .int, default⟩, .int, default⟩
  else ⟨.literal (.int number), .int, default⟩

def spelledList (numbers : List Int64) : Node :=
  ⟨.list (numbers.map spelledInt), .listOf .int, default⟩

theorem toInt_opposite {number : Int64} (bounded : number ≠ Int64.minValue) :
    (-number).toInt = -number.toInt := by
  have least : number.toInt ≠ -9223372036854775808 := fun same => bounded (Int64.toInt_inj.mp same)
  have above := number.le_toInt
  have below := number.toInt_lt
  rw [Int64.toInt_neg]
  exact Int.bmod_eq_of_le (by omega) (by omega)

theorem opposite_natural {number : Int64} (negative : number < 0)
    (bounded : number ≠ Int64.minValue) : 0 ≤ -number := by
  have below : number.toInt < 0 := Int64.lt_iff_toInt_lt.mp negative
  rw [Int64.le_iff_toInt_le, toInt_opposite bounded]
  show (0 : Int) ≤ -number.toInt
  omega

namespace Decimal

theorem intText_natural {number : Int64} (natural : 0 ≤ number) :
    (intText number).toList = Nat.toDigits 10 number.toInt.natAbs := by
  rw [intText, if_neg (Int64.not_lt.mpr natural), naturalText, String.toList_ofList]

theorem intText_negative {number : Int64} (negative : number < 0) :
    (intText number).toList = '-' :: Nat.toDigits 10 number.toInt.natAbs := by
  rw [intText, if_pos negative]
  simp [naturalText]

theorem isBlank_digit {character : Char} (digit : isDigit character = true) :
    Text.isBlank character = false := by
  simp only [isDigit, Bool.and_eq_true, decide_eq_true_eq, Char.le_def,
    UInt32.le_iff_toNat_le] at digit
  have above : 48 ≤ character.toNat := digit.1
  have below : character.toNat ≤ 57 := digit.2
  simp [Text.isBlank, Text.blankRanges]
  omega

end Decimal

/-! ## Tokens off the front -/

/-- Scanning takes these tokens off the front of a text and leaves the rest. -/
inductive ScansTo : List Char → List (TokenKind × String) → List Char → Prop where
  | refl {characters : List Char} : ScansTo characters [] characters
  | blank {first : Char} {rest behind : List Char} {shown : List (TokenKind × String)}
      (kind : (Piece.cut first rest).kind = .blank)
      (further : ScansTo (Piece.cut first rest).rest shown behind) :
      ScansTo (first :: rest) shown behind
  | token {first : Char} {rest behind : List Char} {shown : List (TokenKind × String)}
      {kind : TokenKind} {lexeme : String}
      (isToken : (Piece.cut first rest).kind = .token kind lexeme)
      (further : ScansTo (Piece.cut first rest).rest shown behind) :
      ScansTo (first :: rest) ((kind, lexeme) :: shown) behind

/-- Wherever the text begins, scanning it is refused with this cause. -/
def Stuck (cause : LexicalCause) (characters : List Char) : Prop :=
  ∀ position, ∃ span, scanFrom position characters = .error ⟨.lexical cause, span⟩

namespace ScansTo

variable {characters middle behind : List Char} {shown others : List (TokenKind × String)}

theorem trans (front : ScansTo characters shown middle) (back : ScansTo middle others behind) :
    ScansTo characters (shown ++ others) behind := by
  induction front with
  | refl => exact back
  | blank kind _ ih => exact .blank kind (ih back)
  | token isToken _ ih => exact .token isToken (ih back)

theorem scans (front : ScansTo characters shown []) : Scans characters shown := by
  generalize isEnd : ([] : List Char) = behind at front
  induction front with
  | refl =>
    subst isEnd
    exact .nil
  | blank kind _ ih => exact .blank kind (ih isEnd)
  | token isToken _ ih => exact .token isToken (ih isEnd)

theorem stuck {cause : LexicalCause} (front : ScansTo characters shown behind)
    (refused : Stuck cause behind) : Stuck cause characters := by
  induction front with
  | refl => exact refused
  | @blank first rest behind shown kind _ ih =>
    intro position
    obtain ⟨span, run⟩ := ih refused (position.advanceOver (first :: (Piece.cut first rest).taken))
    refine ⟨span, ?_⟩
    rw [scanFrom]
    simp only [kind, run]
  | @token first rest behind shown kind lexeme isToken _ ih =>
    intro position
    obtain ⟨span, run⟩ := ih refused (position.advanceOver (first :: (Piece.cut first rest).taken))
    refine ⟨span, ?_⟩
    rw [scanFrom]
    simp only [isToken, run]

end ScansTo

/-! ## Digits -/

/-- What may stand behind a whole number without becoming part of it. -/
def EndsNumber (character : Char) : Prop := Decimal.isDigit character = false ∧ character ≠ '.'

instance (character : Char) : Decidable (EndsNumber character) :=
  inferInstanceAs (Decidable (_ ∧ _))

namespace Piece

theorem cut_digit {first : Char} (digit : Decimal.isDigit first = true) (rest : List Char) :
    cut first rest = number first rest := by
  unfold cut
  split
  all_goals first
    | exact absurd digit (by decide)
    | rw [Decimal.isBlank_digit digit, digit, if_neg Bool.false_ne_true, if_pos rfl]

theorem cut_digits {first stop : Char} {digits : List Char}
    (all : ∀ character ∈ first :: digits, Decimal.isDigit character = true)
    (ends : EndsNumber stop) (rest : List Char) :
    cut first (digits ++ stop :: rest) =
      ⟨if (Decimal.int? (String.ofList (first :: digits))).isSome then
          .token .int (String.ofList (first :: digits))
        else .refused (.intOutOfRange (String.ofList (first :: digits))), digits, stop :: rest⟩ := by
  obtain ⟨digit, others⟩ := List.forall_mem_cons.mp all
  have taken : (digits ++ stop :: rest).takeWhile Decimal.isDigit = digits := by
    rw [List.takeWhile_append_of_pos others, List.takeWhile_cons, ends.1]
    exact List.append_nil digits
  have left : (digits ++ stop :: rest).dropWhile Decimal.isDigit = stop :: rest := by
    rw [List.dropWhile_append_of_pos others, List.dropWhile_cons, ends.1]
    rfl
  have whole : ∀ more, (digits ++ stop :: rest).dropWhile Decimal.isDigit ≠ '.' :: more := by
    intro more point
    rw [left] at point
    exact ends.2 (List.cons.inj point).1
  rw [cut_digit digit, number_of_whole whole, taken, left]

end Piece

theorem toDigits_cons (number : Nat) :
    ∃ first digits, Nat.toDigits 10 number = first :: digits ∧
      ∀ character ∈ first :: digits, Decimal.isDigit character = true := by
  have nonempty : Nat.toDigits 10 number ≠ [] := Nat.toDigits_ne_nil
  obtain ⟨first, digits, isDigits⟩ := List.exists_cons_of_ne_nil nonempty
  exact ⟨first, digits, isDigits, fun _ member =>
    Decimal.isDigit_of_mem_toDigits (isDigits ▸ member)⟩

namespace ScansTo

open Rendering
open Grammar (atPosition_zero)

variable {stop : Char} {number : Int64}

theorem sign {first : Char} {kind : TokenKind} {rest : List Char}
    (single : Piece.cut first rest = Piece.single kind first rest) :
    ScansTo (first :: rest) [(kind, String.singleton first)] rest := by
  refine .token (congrArg Piece.kind single) ?_
  rw [single]
  exact .refl

theorem minus {first : Char} (differs : first ≠ '-') (rest : List Char) :
    ScansTo ('-' :: first :: rest) [(.minus, "-")] (first :: rest) := by
  have single : Piece.cut '-' (first :: rest) = Piece.single .minus '-' (first :: rest) := by
    show Piece.pairOr .minus [('-', .minusMinus)] '-' (first :: rest) = _
    have unpaired : [('-', TokenKind.minusMinus)].lookup first = none := by
      rw [List.lookup_cons, beq_eq_false_iff_ne.mpr differs]
      rfl
    rw [Piece.pairOr, unpaired]
  exact sign single

theorem minus_digits (number : Nat) (rest : List Char) :
    ScansTo ('-' :: (Nat.toDigits 10 number ++ rest)) [(.minus, "-")]
      (Nat.toDigits 10 number ++ rest) := by
  obtain ⟨first, digits, isDigits, all⟩ := toDigits_cons number
  rw [isDigits, List.cons_append]
  refine minus ?_ _
  rintro rfl
  exact absurd (all _ List.mem_cons_self) (by decide)

theorem natural (isNatural : 0 ≤ number) (ends : EndsNumber stop) (rest : List Char) :
    ScansTo ((Decimal.intText number).toList ++ stop :: rest)
      [(.int, Decimal.intText number)] (stop :: rest) := by
  obtain ⟨first, digits, isDigits, all⟩ := toDigits_cons number.toInt.natAbs
  have characters : (Decimal.intText number).toList = first :: digits :=
    (Decimal.intText_natural isNatural).trans isDigits
  have lexeme : String.ofList (first :: digits) = Decimal.intText number := by
    rw [← characters, String.ofList_toList]
  have piece := Piece.cut_digits all ends rest
  rw [lexeme, Decimal.int?_intText, Option.isSome_some, if_pos rfl] at piece
  rw [characters, List.cons_append]
  refine .token (congrArg Piece.kind piece) ?_
  rw [piece]
  exact .refl

theorem int (style : Style) (bounded : number ≠ Int64.minValue) (ends : EndsNumber stop)
    (rest : List Char) :
    ScansTo ((Decimal.intText number).toList ++ stop :: rest)
      ((atPosition style 0 (spelledInt number)).map Token.bare) (stop :: rest) := by
  rw [atPosition_zero]
  by_cases negative : number < 0
  · have opposite := opposite_natural negative bounded
    have digits : (Decimal.intText (-number)).toList = Nat.toDigits 10 number.toInt.natAbs := by
      rw [Decimal.intText_natural opposite, toInt_opposite bounded, Int.natAbs_neg]
    have signed := minus_digits number.toInt.natAbs (stop :: rest)
    rw [← digits] at signed
    rw [spelledInt, if_pos negative, Decimal.intText_negative negative, ← digits]
    exact signed.trans (natural opposite ends rest)
  · rw [spelledInt, if_neg negative]
    exact natural (Int64.not_lt.mp negative) ends rest

/-! ## Lists -/

theorem comma (rest : List Char) : ScansTo (',' :: ' ' :: rest) [(.comma, ",")] rest :=
  (sign rfl).trans (.blank rfl .refl)

theorem itemsText_cons (first next : Int64) (others : List Int64) (rest : List Char) :
    (Value.itemsText ((first :: next :: others).map .int)).toList ++ rest =
      (Decimal.intText first).toList ++
        ',' :: ' ' :: ((Value.itemsText ((next :: others).map .int)).toList ++ rest) := by
  show (Decimal.intText first ++ ", " ++ Value.itemsText ((next :: others).map .int)).toList ++ rest
    = _
  simp only [String.toList_append, List.append_assoc]
  rfl

theorem items (style : Style) {numbers : List Int64} (nonempty : numbers ≠ [])
    (bounded : Int64.minValue ∉ numbers) (ends : EndsNumber stop) (rest : List Char) :
    ScansTo ((Value.itemsText (numbers.map .int)).toList ++ stop :: rest)
      ((commaSeparated (each style (numbers.map spelledInt))).map Token.bare) (stop :: rest) := by
  induction numbers with
  | nil => exact absurd rfl nonempty
  | cons first others ih =>
    obtain ⟨differs, absent⟩ := not_or.mp (mt List.mem_cons.mpr bounded)
    cases others with
    | nil => exact int style (Ne.symm differs) ends rest
    | cons next others =>
      -- All but the last int have a comma behind them, which ends their digits.
      rw [itemsText_cons]
      have front := int style (Ne.symm differs) (by decide : EndsNumber ',')
        (' ' :: ((Value.itemsText ((next :: others).map .int)).toList ++ stop :: rest))
      have whole := front.trans ((comma _).trans (ih (List.cons_ne_nil _ _) absent))
      have tokens : commaSeparated (each style ((first :: next :: others).map spelledInt)) =
          atPosition style 0 (spelledInt first) ++
            mark .comma :: commaSeparated (each style ((next :: others).map spelledInt)) := rfl
      rw [tokens, List.map_append]
      exact whole

end ScansTo

/-! ## The least int -/

def beyond : LexicalCause := .intOutOfRange "9223372036854775808"

namespace Stuck

open Rendering

variable {stop : Char}

theorem digits {number : Nat} (outside : Decimal.int? (Decimal.naturalText number) = none)
    (ends : EndsNumber stop) (rest : List Char) :
    Stuck (.intOutOfRange (Decimal.naturalText number))
      (Nat.toDigits 10 number ++ stop :: rest) := by
  obtain ⟨first, digits, isDigits, all⟩ := toDigits_cons number
  have piece := Piece.cut_digits all ends rest
  rw [← isDigits, ← Decimal.naturalText, outside, Option.isSome_none,
    if_neg Bool.false_ne_true] at piece
  intro position
  refine ⟨⟨position, position.advanceOver (first :: digits)⟩, ?_⟩
  rw [isDigits, List.cons_append, scanFrom]
  simp only [piece]

theorem least (ends : EndsNumber stop) (rest : List Char) :
    Stuck beyond ((Decimal.intText Int64.minValue).toList ++ stop :: rest) := by
  have lexeme : Decimal.naturalText 9223372036854775808 = "9223372036854775808" := by
    decide +kernel
  have outside : Decimal.int? (Decimal.naturalText 9223372036854775808) = none := by
    decide +kernel
  have text : (Decimal.intText Int64.minValue).toList =
      '-' :: Nat.toDigits 10 9223372036854775808 := Decimal.intText_negative (by decide)
  rw [text, beyond, ← lexeme]
  exact (ScansTo.minus_digits _ _).stuck (digits outside ends rest)

theorem items {numbers : List Int64} (member : Int64.minValue ∈ numbers) (ends : EndsNumber stop)
    (rest : List Char) :
    Stuck beyond ((Value.itemsText (numbers.map .int)).toList ++ stop :: rest) := by
  induction numbers with
  | nil => cases member
  | cons first others ih =>
    by_cases isLeast : first = Int64.minValue
    · subst isLeast
      cases others with
      | nil => exact least ends rest
      | cons next others =>
        rw [ScansTo.itemsText_cons]
        exact least (by decide) _
    · have behind := (List.mem_cons.mp member).resolve_left (Ne.symm isLeast)
      cases others with
      | nil => cases behind
      | cons next others =>
        rw [ScansTo.itemsText_cons]
        have front := ScansTo.int ⟨Decimal.doubleText, fun _ => true⟩ isLeast
          (by decide : EndsNumber ',')
          (' ' :: ((Value.itemsText ((next :: others).map .int)).toList ++ stop :: rest))
        exact front.stuck ((ScansTo.comma _).stuck (ih behind))

end Stuck

/-! ## Whole texts -/

open Rendering

variable {number : Int64} {numbers : List Int64}

theorem int_characters (number : Int64) :
    ((Value.int number).text ++ ";").toList = (Decimal.intText number).toList ++ [';'] := by
  rw [String.toList_append]
  rfl

theorem list_characters (numbers : List Int64) :
    ((Value.list .int (numbers.map .int)).text ++ ";").toList =
      '[' :: ((Value.itemsText (numbers.map .int)).toList ++ [']', ';']) := by
  show ("[" ++ Value.itemsText (numbers.map .int) ++ "]" ++ ";").toList = _
  simp only [String.toList_append, List.append_assoc]
  rfl

theorem int_scans (style : Style) (bounded : number ≠ Int64.minValue) :
    Scans ((Value.int number).text ++ ";").toList
      ((written style (spelledInt number).form ++ [mark .semicolon]).map Token.bare) := by
  have front := ScansTo.int style bounded (by decide : EndsNumber ';') []
  have whole : ScansTo _ (_ ++ [(TokenKind.semicolon, ";")]) [] := front.trans (.sign rfl)
  rw [int_characters, List.map_append, ← Grammar.atPosition_zero]
  exact whole.scans

theorem list_scans (style : Style) (nonempty : numbers ≠ []) (bounded : Int64.minValue ∉ numbers) :
    Scans ((Value.list .int (numbers.map .int)).text ++ ";").toList
      ((written style (spelledList numbers).form ++ [mark .semicolon]).map Token.bare) := by
  have items := ScansTo.items style nonempty bounded (by decide : EndsNumber ']') [';']
  have closing : ScansTo [']', ';'] ([(.rightBracket, "]")] ++ [(.semicolon, ";")]) [] :=
    (ScansTo.sign rfl).trans (.sign rfl)
  have opening : ScansTo ('[' :: ((Value.itemsText (numbers.map .int)).toList ++ [']', ';']))
      [(.leftBracket, "[")] _ := .sign rfl
  have whole := opening.trans (items.trans closing)
  rw [list_characters, spelledList, written]
  simp only [List.map_append, List.map_cons, List.map_nil, List.cons_append, List.append_assoc,
    List.nil_append] at whole ⊢
  exact whole.scans

theorem least_stuck : Stuck beyond ((Value.int Int64.minValue).text ++ ";").toList := by
  rw [int_characters]
  exact .least (by decide) []

theorem list_stuck (member : Int64.minValue ∈ numbers) :
    Stuck beyond ((Value.list .int (numbers.map .int)).text ++ ";").toList := by
  rw [list_characters]
  exact (ScansTo.sign rfl).stuck (.items member (by decide) [';'])

end RobotScript
