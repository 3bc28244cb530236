import IiifRules.Numeric.Shortest

/-! # Numbers with a given count of digits

The exact value of a number rounded half to even at a given place, written without an exponent
(`fixed`), with one (`exponential`), or in whichever of the two forms is customary for its magnitude
(`general`). -/

namespace IiifRules.Numeric.Binary64

/-- A sign only for a negative number. -/
def signChars (neg : Bool) : List Char := if neg then ['-'] else []

/-- The words for numbers that are not finite. -/
def infinityChars (neg : Bool) : List Char := signChars neg ++ ['i', 'n', 'f']
def nanChars : List Char := ['n', 'a', 'n']

/-- Digits with a point before the last `places` of them; with `keepPoint` also before none. -/
def pointed (keepPoint : Bool) (places : Nat) (ds : List Char) : List Char :=
  let ds := List.replicate (places + 1 - ds.length) '0' ++ ds
  ds.take (ds.length - places) ++
    if places = 0 then (if keepPoint then ['.'] else []) else '.' :: ds.drop (ds.length - places)

/-- A magnitude with a fixed count of decimal places. -/
def fixedChars (keepPoint : Bool) (places units : Nat) : List Char :=
  pointed keepPoint places (Numeral.digits (roundHalfEven (units * Nat.pow 10 places) unitsPerOne))

/-- The number with a fixed count of decimal places. -/
def fixed (places : Nat) : Binary64 → List Char
  | .nan => nanChars
  | .infinite neg => infinityChars neg
  | .finite neg units _ => signChars neg ++ fixedChars false places units

/-- The first `places + 1` digits of a magnitude as a number, and the power of ten of the first. -/
def leadingDigits (places units : Nat) : Nat × Int :=
  if units = 0 then (0, 0)
  else
    let power := Decimal.leadingPower units
    let (num, den) := Decimal.gridRatio units (power - places)
    let n := roundHalfEven num den
    if n < Nat.pow 10 (places + 1) then (n, power) else (n / 10, power + 1)

/-- A magnitude with one digit before the point, `places` after it, and an exponent. -/
def exponentialChars (keepPoint : Bool) (places units : Nat) : List Char :=
  let (n, power) := leadingDigits places units
  pointed keepPoint places (Numeral.digits n) ++ Decimal.exponentChars 'e' power

/-- The digits before an exponent without zeros at the end of a fraction. -/
def trimFraction (cs : List Char) : List Char :=
  let mantissa := cs.takeWhile (· ≠ 'e')
  let kept :=
    if mantissa.contains '.' then
      ((mantissa.reverse.dropWhile (· = '0')).dropWhile (· = '.')).reverse
    else mantissa
  kept ++ cs.drop mantissa.length

/-- A magnitude with `digits` significant digits, without an exponent from `10^-4` up to the
magnitude that they reach; `keepZeros` keeps the zeros at the end of a fraction. -/
def generalChars (keepZeros : Bool) (digits units : Nat) : List Char :=
  let places := digits - 1
  let (_, power) := leadingDigits places units
  let cs :=
    if -4 ≤ power ∧ power ≤ places then fixedChars keepZeros (places - power).toNat units
    else exponentialChars keepZeros places units
  if keepZeros then cs else trimFraction cs

end IiifRules.Numeric.Binary64
