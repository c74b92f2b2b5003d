/-! # Reading numerals

Decimal digits, signs, points and exponents read as exact whole numbers first.
An integer is read only if it fits 64 bits. A double is the number nearest to
the numeral, so a numeral too large is an infinity and one too small a zero. -/
set_option autoImplicit false

namespace RobotScript.Decimal

def isDigit (character : Char) : Bool := '0' ≤ character && character ≤ '9'

/-- The number a run of digits stands for; nothing if it is empty or holds
another character. -/
def natural? (digits : List Char) : Option Nat :=
  if digits.isEmpty || !digits.all isDigit then none
  else some (Nat.ofDigitChars 10 digits 0)

/-- A leading sign and the rest; true for a minus. -/
def signed : List Char → Bool × List Char
  | '-' :: rest => (true, rest)
  | '+' :: rest => (false, rest)
  | rest => (false, rest)

/-- Whole numbers from -2^63 up to 2^63 - 1 are the ones an int holds. -/
def fits (number : Int) : Bool :=
  -9223372036854775808 ≤ number && number < 9223372036854775808

/-- The int of a whole number, if it fits. -/
def exactInt? (number : Int) : Option Int64 :=
  if fits number then some (Int64.ofInt number) else none

/-- An int numeral: an optional sign and digits, within 64 bits. -/
def int? (numeral : String) : Option Int64 :=
  let (negative, digits) := signed numeral.toList
  match natural? digits with
  | none => none
  | some magnitude => exactInt? (if negative then -(magnitude : Int) else magnitude)

/-- A count: digits, perhaps behind a plus sign, below 2^64. -/
def count? (numeral : String) : Option Nat :=
  let digits :=
    match numeral.toList with
    | '+' :: rest => rest
    | rest => rest
  (natural? digits).filter fun number => number < 18446744073709551616

/-- The exponents behind which a numeral is nearest to zero or to an infinity. -/
def exponentBound : Int := 400

/-- The double nearest to `digits · 10 ^ exponent`. -/
def nearest (digits : Nat) (exponent : Int) : Float :=
  let leading : Int := (Nat.toDigits 10 digits).length + exponent
  if digits = 0 || leading < -exponentBound then 0
  else if exponentBound < leading then 1 / 0
  else if exponent < 0 then Float.ofScientific digits true exponent.natAbs
  else Float.ofScientific digits false exponent.natAbs

/-- The exponent behind the mark `e`; zero if there is no mark. -/
def exponent? : List Char → Option Int
  | [] => some 0
  | mark :: rest =>
    if mark = 'e' || mark = 'E' then
      let (negative, digits) := signed rest
      (natural? digits).map fun magnitude => if negative then -(magnitude : Int) else magnitude
    else none

/-- Digits with at most one point among or around them, and an optional
exponent. -/
def magnitude? (numeral : List Char) : Option Float :=
  let whole := numeral.takeWhile isDigit
  let rest := numeral.dropWhile isDigit
  let (places, tail) :=
    match rest with
    | '.' :: more => (more.takeWhile isDigit, more.dropWhile isDigit)
    | more => ([], more)
  match natural? (whole ++ places), exponent? tail with
  | some digits, some exponent => some (nearest digits (exponent - places.length))
  | _, _ => none

/-- A double numeral: an optional sign before a magnitude, an infinity or what
is not a number, whose names may be in either case. -/
def double? (numeral : String) : Option Float :=
  let (negative, rest) := signed numeral.toList
  let name := String.ofList (rest.map Char.toLower)
  let magnitude :=
    if name = "inf" || name = "infinity" then some (1 / 0 : Float)
    else if name = "nan" then some (0 / 0 : Float)
    else magnitude? rest
  magnitude.map fun value => if negative then -value else value

end RobotScript.Decimal
