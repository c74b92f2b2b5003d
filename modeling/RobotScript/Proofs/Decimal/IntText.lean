import RobotScript.Decimal.Numeral
import RobotScript.Decimal.Places

/-! # Ints read back from their text

What `intText` writes is an int numeral, and it stands for the int it was written
for. -/
set_option autoImplicit false

namespace RobotScript.Decimal

theorem isDigit_of_mem_toDigits {number : Nat} {character : Char}
    (member : character ∈ Nat.toDigits 10 number) : isDigit character = true := by
  have digit := Nat.isDigit_of_mem_toDigits (by omega) (by omega) member
  simpa [Char.isDigit, isDigit, Char.le_def, UInt32.le_iff_toNat_le] using digit

theorem natural?_toDigits (number : Nat) : natural? (Nat.toDigits 10 number) = some number := by
  have digits : (Nat.toDigits 10 number).all isDigit = true :=
    List.all_eq_true.mpr fun _ => isDigit_of_mem_toDigits
  have nonempty : (Nat.toDigits 10 number).isEmpty = false := by
    rw [List.isEmpty_eq_false_iff]
    exact Nat.toDigits_ne_nil
  rw [natural?, nonempty, digits]
  simp only [Bool.not_true, Bool.or_self, Bool.false_eq_true, if_false,
    Nat.ofDigitChars_ten_toDigits]

theorem signed_digit {first : Char} (digit : isDigit first = true) (rest : List Char) :
    signed (first :: rest) = (false, first :: rest) := by
  unfold signed
  split
  next same =>
    cases same
    cases digit
  next same =>
    cases same
    cases digit
  next => rfl

theorem signed_toDigits (number : Nat) :
    signed (Nat.toDigits 10 number) = (false, Nat.toDigits 10 number) := by
  cases split : Nat.toDigits 10 number with
  | nil => exact absurd split Nat.toDigits_ne_nil
  | cons first rest =>
    have member : first ∈ Nat.toDigits 10 number := split ▸ List.mem_cons_self
    exact signed_digit (isDigit_of_mem_toDigits member) rest

theorem exactInt?_toInt (number : Int64) : exactInt? number.toInt = some number := by
  have least := Int64.le_toInt number
  have greatest := Int64.toInt_lt number
  have within : fits number.toInt = true := by
    simp only [fits, Bool.and_eq_true, decide_eq_true_eq]
    omega
  rw [exactInt?, if_pos within, Int64.ofInt_toInt]

/-- The text of an int reads back as the int. -/
theorem int?_intText (number : Int64) : int? (intText number) = some number := by
  rw [intText]
  split
  · rename_i negative
    have below : number.toInt < 0 := by simpa using Int64.lt_iff_toInt_lt.mp negative
    have magnitude : -(number.toInt.natAbs : Int) = number.toInt := by omega
    have characters : ("-" ++ naturalText number.toInt.natAbs).toList =
        '-' :: Nat.toDigits 10 number.toInt.natAbs := by
      simp [naturalText]
    rw [int?, characters]
    simp only [signed, natural?_toDigits, if_true, magnitude, exactInt?_toInt]
  · rename_i notNegative
    have above : 0 ≤ number.toInt := by
      have := mt Int64.lt_iff_toInt_lt.mpr notNegative
      simpa using this
    have magnitude : (number.toInt.natAbs : Int) = number.toInt := by omega
    rw [int?, naturalText, String.toList_ofList, signed_toDigits]
    simp only [natural?_toDigits, Bool.false_eq_true, if_false, magnitude, exactInt?_toInt]

end RobotScript.Decimal
