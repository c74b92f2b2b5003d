import Mathlib.Data.List.TakeWhile
import RobotScript.Proofs.Decimal.IntText

/-! # The shapes of numerals

Digits without a sign are the numeral of an int if their value is within 64 bits, and
digits with a point behind the first of them are always that of a double. -/
set_option autoImplicit false

namespace RobotScript.Decimal

variable {digits places : List Char}

/-- Digits whose value an int can hold. -/
def IntShaped (lexeme : String) : Prop :=
  ∃ value, natural? lexeme.toList = some value ∧ value ≤ 9223372036854775807

/-- One digit or more, a point, and digits or nothing. -/
def DoubleShaped (lexeme : String) : Prop :=
  ∃ whole places, lexeme.toList = whole ++ '.' :: places ∧ whole ≠ [] ∧
    (∀ character ∈ whole, isDigit character = true) ∧
    ∀ character ∈ places, isDigit character = true

theorem natural?_isSome (nonempty : digits ≠ [])
    (all : ∀ character ∈ digits, isDigit character = true) : (natural? digits).isSome = true := by
  rw [natural?, List.isEmpty_eq_false_iff.mpr nonempty, List.all_eq_true.mpr all]
  rfl

theorem isDigit_of_natural? {value : Nat} (reads : natural? digits = some value) :
    digits ≠ [] ∧ ∀ character ∈ digits, isDigit character = true := by
  rw [natural?] at reads
  split at reads
  next => cases reads
  next isNumeral =>
    obtain ⟨nonempty, all⟩ := Bool.or_eq_false_iff.mp (Bool.eq_false_iff.mpr isNumeral)
    refine ⟨List.isEmpty_eq_false_iff.mp nonempty, List.all_eq_true.mp ?_⟩
    simpa using all

theorem int?_isSome_iff {first : Char} (digit : isDigit first = true) (rest : List Char) :
    (int? (String.ofList (first :: rest))).isSome = true ↔
      IntShaped (String.ofList (first :: rest)) := by
  rw [int?, IntShaped, String.toList_ofList, signed_digit digit]
  dsimp only
  cases natural? (first :: rest) with
  | none => simp
  | some value =>
    simp [exactInt?, fits]
    omega

theorem int?_isSome {lexeme : String} (shaped : IntShaped lexeme) :
    (int? lexeme).isSome = true := by
  obtain ⟨value, reads, -⟩ := id shaped
  obtain ⟨nonempty, all⟩ := isDigit_of_natural? reads
  obtain ⟨first, rest, same⟩ := List.exists_cons_of_ne_nil nonempty
  have lexemeEq : lexeme = String.ofList (first :: rest) := by rw [← same, String.ofList_toList]
  have digit := all first (same ▸ List.mem_cons_self)
  rw [lexemeEq] at shaped ⊢
  exact (int?_isSome_iff digit rest).mpr shaped

/-! ## Doubles -/

theorem takeWhile_digits (all : ∀ character ∈ digits, isDigit character = true)
    (rest : List Char) :
    (digits ++ '.' :: rest).takeWhile isDigit = digits ∧
      (digits ++ '.' :: rest).dropWhile isDigit = '.' :: rest := by
  rw [List.takeWhile_append_of_pos all, List.dropWhile_append_of_pos all]
  exact ⟨List.append_nil _, rfl⟩

theorem magnitude?_isSome (nonempty : digits ≠ [])
    (all : ∀ character ∈ digits, isDigit character = true)
    (allPlaces : ∀ character ∈ places, isDigit character = true) :
    (magnitude? (digits ++ '.' :: places)).isSome = true := by
  obtain ⟨value, reads⟩ := Option.isSome_iff_exists.mp
    (natural?_isSome (List.append_ne_nil_of_left_ne_nil nonempty places)
      fun character member => (List.mem_append.mp member).elim (all character) (allPlaces character))
  obtain ⟨taken, left⟩ := takeWhile_digits all places
  have takenPlaces : places.takeWhile isDigit = places := List.takeWhile_eq_self_iff.mpr allPlaces
  have leftPlaces : places.dropWhile isDigit = [] := List.dropWhile_eq_nil_iff.mpr allPlaces
  simp only [magnitude?, taken, left, takenPlaces, leftPlaces, reads]
  rfl

theorem toLower_digit {character : Char} (digit : isDigit character = true) :
    character.toLower = character := by
  have above : character ≤ '9' := of_decide_eq_true (Bool.and_eq_true_iff.mp digit).2
  refine dif_neg ?_
  rintro ⟨upper, -⟩
  exact absurd (UInt32.le_trans upper above) (by decide)

/-- Whatever begins with a digit is no name of a double. -/
theorem double?_isSome {lexeme : String} (shaped : DoubleShaped lexeme) :
    (double? lexeme).isSome = true := by
  obtain ⟨whole, places, same, nonempty, all, allPlaces⟩ := shaped
  obtain ⟨first, rest, rfl⟩ := List.exists_cons_of_ne_nil nonempty
  have digit := all first List.mem_cons_self
  have noName (name : String) (letter : name.toList.head?.any (!isDigit ·) = true) :
      String.ofList ((first :: rest ++ '.' :: places).map Char.toLower) ≠ name := by
    rintro rfl
    rw [String.toList_ofList, List.cons_append, List.map_cons, toLower_digit digit] at letter
    simp [digit] at letter
  rw [double?, same, List.cons_append, signed_digit digit, ← List.cons_append]
  dsimp only
  simp only [noName "inf" (by decide), noName "infinity" (by decide), noName "nan" (by decide),
    decide_false, Bool.or_self, Bool.false_eq_true, if_false, Option.isSome_map]
  exact magnitude?_isSome nonempty all allPlaces

end RobotScript.Decimal
