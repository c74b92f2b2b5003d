/-! # Writing doubles

A finite double is exactly `mantissa · 2 ^ scale`. A whole one is written with
all its digits and one zero behind the point. Any other is written with the
fewest places behind the point that still read back as the same double, and of
the numerals with that many places the nearest; of two equally near the upper
one. There is never an exponent. -/
set_option autoImplicit false

namespace RobotScript.Decimal

def twoTo (power : Nat) : Nat := Nat.pow 2 power

def tenTo (power : Nat) : Nat := Nat.pow 10 power

inductive Parts where
  | notANumber
  | infinite (negative : Bool)
  | finite (negative : Bool) (mantissa : Nat) (scale : Int)
deriving DecidableEq, Repr

/-- The least scale, that of zero and of the numbers next to it. -/
def leastScale : Int := -1074

/-- The hidden bit: the mantissa of every power of two that has a normal form. -/
def hiddenBit : Nat := twoTo 52

def parts (value : Float) : Parts :=
  let bits : Nat := value.toBits.toNat
  let negative := bits / twoTo 63 = 1
  let exponent : Nat := bits / twoTo 52 % twoTo 11
  let fraction : Nat := bits % twoTo 52
  if exponent = 2047 then
    if fraction = 0 then .infinite negative else .notANumber
  else if exponent = 0 then .finite negative fraction leastScale
  else .finite negative (hiddenBit + fraction) (leastScale + exponent - 1)

/-- The numbers that read back as `mantissa / 2 ^ shift` run from
`low / 2 ^ (shift + 2)` to `high / 2 ^ (shift + 2)`; the ends belong to them if
the mantissa is even. Below a power of two the spacing halves. -/
def lowEnd (mantissa shift : Nat) : Nat :=
  if mantissa = hiddenBit && shift < 1074 then 4 * mantissa - 1 else 4 * mantissa - 2

def highEnd (mantissa : Nat) : Nat := 4 * mantissa + 2

/-- Whether `digits / 10 ^ places` reads back as `mantissa / 2 ^ shift`. -/
def readsBack (mantissa shift digits places : Nat) : Bool :=
  let point := digits * twoTo (shift + 2)
  let low := lowEnd mantissa shift * tenTo places
  let high := highEnd mantissa * tenTo places
  if mantissa % 2 = 0 then low ≤ point && point ≤ high
  else low < point && point < high

/-- The numeral with the given number of places nearest to `mantissa / 2 ^ shift`,
if it reads back. -/
def atPlaces? (mantissa shift places : Nat) : Option Nat :=
  let scaled := mantissa * tenTo places
  let below := scaled / twoTo shift
  let remainder := scaled % twoTo shift
  let near := if 2 * remainder < twoTo shift then below else below + 1
  let far := if 2 * remainder < twoTo shift then below + 1 else below
  if readsBack mantissa shift near places then some near
  else if readsBack mantissa shift far places then some far
  else none

/-- Tries one place more at a time; with `shift` places the numeral is exact. -/
def fewestPlaces (mantissa shift : Nat) : (left : Nat) → (places : Nat) → Nat × Nat
  | 0, places => (mantissa * tenTo places / twoTo shift, places)
  | left + 1, places =>
    match atPlaces? mantissa shift places with
    | some digits => (digits, places)
    | none => fewestPlaces mantissa shift left (places + 1)

def naturalText (number : Nat) : String := String.ofList (Nat.toDigits 10 number)

/-- Digits with a point in front of the last `places` of them. -/
def pointed (digits places : Nat) : String :=
  let behind := Nat.toDigits 10 (digits % tenTo places)
  naturalText (digits / tenTo places) ++ "." ++
    String.ofList (List.replicate (places - behind.length) '0' ++ behind)

def magnitudeText (mantissa : Nat) (scale : Int) : String :=
  if 0 ≤ scale then naturalText (mantissa * twoTo scale.natAbs) ++ ".0"
  else
    let shift := scale.natAbs
    if mantissa % twoTo shift = 0 then naturalText (mantissa / twoTo shift) ++ ".0"
    else
      let (digits, places) := fewestPlaces mantissa shift (shift - 1) 1
      pointed digits places

def doubleText (value : Float) : String :=
  match parts value with
  | .notANumber => "NaN"
  | .infinite negative => if negative then "-inf" else "inf"
  | .finite negative mantissa scale =>
    if negative then "-" ++ magnitudeText mantissa scale else magnitudeText mantissa scale

def intText (value : Int64) : String :=
  if value < 0 then "-" ++ naturalText value.toInt.natAbs else naturalText value.toInt.natAbs

example : doubleText 0.1 = "0.1" := by decide +kernel

/-- Two to the power -25 lies half way between two numerals of 24 places. -/
example : doubleText 2.98023223876953125e-8 = "0.000000029802322387695313" := by decide +kernel

example : doubleText 1e23 = "99999999999999991611392.0" := by decide +kernel

end RobotScript.Decimal
