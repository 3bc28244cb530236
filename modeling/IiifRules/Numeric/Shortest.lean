import IiifRules.Numeric.Binary64
import IiifRules.Numeric.Numeral

/-! # The shortest decimal that reads back

Among the decimals that are read to a given binary64 number, the one with the fewest digits, and of
those the nearest. With `k` digits only the two neighbours of the number on the grid of `k` digits
can be that decimal, so `shortest` tries these two for `k = 1, 2, …, 17`. -/

namespace IiifRules.Numeric

/-- The number `digits * 10^exponent`. -/
structure Decimal where
  digits : Nat
  exponent : Int
deriving DecidableEq, Repr

namespace Decimal

/-- Whether the decimal is read to the finite number of `units`. -/
def readsAs (d : Decimal) (units : Nat) : Bool :=
  match Binary64.ofDecimal false d.digits d.exponent with
  | .finite _ u _ => u = units
  | _ => false

/-- Divides zeros off the end of the digits, at most `fuel` of them. -/
def trimZeros : Nat → Decimal → Decimal
  | 0, d => d
  | fuel + 1, d =>
    if d.digits ≠ 0 ∧ d.digits % 10 = 0 then trimZeros fuel ⟨d.digits / 10, d.exponent + 1⟩ else d

/-- The power of ten of the first digit of `units`: no number of units is below `10^-400`. -/
def leadingPower (units : Nat) : Int :=
  (Numeral.digits (units * Nat.pow 10 400 / unitsPerOne)).length - 401

/-- The quotient of `units` by `10^power`, as numerator and denominator. -/
def gridRatio (units : Nat) (power : Int) : Nat × Nat :=
  if 0 ≤ power then (units, unitsPerOne * Nat.pow 10 power.toNat)
  else (units * Nat.pow 10 (-power).toNat, unitsPerOne)

/-- The neighbour of `units` on the grid of `10^power` that is read back, the nearer of two. -/
def onGrid? (units : Nat) (power : Int) : Option Decimal :=
  let (num, den) := gridRatio units power
  let below : Decimal := ⟨num / den, power⟩
  let above : Decimal := ⟨num / den + 1, power⟩
  match below.readsAs units, above.readsAs units with
  | true, true => some ⟨roundHalfEven num den, power⟩
  | true, false => some below
  | false, true => some above
  | false, false => none

/-- **The shortest decimal** that is read to `units`; `0` for none. -/
def shortest (units : Nat) : Decimal :=
  if units = 0 then ⟨0, 0⟩
  else
    let power := leadingPower units
    match (List.range 17).findSome? fun k : Nat => onGrid? units (power - k) with
    | some d => d.trimZeros 20
    | none => ⟨units, -1074⟩

/-- The digits with the point after the first `point` of them, filled up with zeros. -/
def positional (d : Decimal) : List Char :=
  let ds := Numeral.digits d.digits
  if 0 ≤ d.exponent then ds ++ List.replicate d.exponent.toNat '0'
  else
    let places := (-d.exponent).toNat
    if places < ds.length then
      ds.take (ds.length - places) ++ '.' :: ds.drop (ds.length - places)
    else '0' :: '.' :: List.replicate (places - ds.length) '0' ++ ds

/-- The exponent of the decimal written with its point after the first digit. -/
def scientificExponent (d : Decimal) : Int := (Numeral.digits d.digits).length - 1 + d.exponent

def exponentChars (mark : Char) (e : Int) : List Char :=
  let ds := Numeral.digits e.natAbs
  mark :: (if e < 0 then '-' else '+') :: (if ds.length < 2 then '0' :: ds else ds)

def scientific (d : Decimal) : List Char :=
  match Numeral.digits d.digits with
  | [] => []
  | [c] => c :: exponentChars 'e' d.scientificExponent
  | c :: cs => c :: '.' :: cs ++ exponentChars 'e' d.scientificExponent

end Decimal

/-- How a number is laid out: within these exponents without an exponent mark, whole numbers with a
fraction of one zero, and with these words for the numbers that are not finite. -/
structure Layout where
  leastExponent : Int
  greatestExponent : Int
  infinityWord : String
  nanWord : String

namespace Layout

def message : Layout := ⟨-4, 15, "inf", "nan"⟩

def document : Layout := ⟨-4, 15, "Infinity", "NaN"⟩

/-- The shortest text of a number that reads back. -/
def write (layout : Layout) : Binary64 → List Char
  | .nan => layout.nanWord.toList
  | .infinite neg => (if neg then ['-'] else []) ++ layout.infinityWord.toList
  | .finite neg units _ =>
    let d := Decimal.shortest units
    let body :=
      if units = 0 then ['0', '.', '0']
      else if d.scientificExponent < layout.leastExponent ∨
          layout.greatestExponent < d.scientificExponent then d.scientific
      else if 0 ≤ d.exponent then d.positional ++ ['.', '0']
      else d.positional
    if neg then '-' :: body else body

end Layout

namespace Binary64

/-- The number without an exponent: a whole number as an integer, any other by its shortest
decimal. -/
def plain : Binary64 → List Char
  | .nan => ['N', 'a', 'N']
  | .infinite neg => (if neg then ['-'] else []) ++ "Infinity".toList
  | x@(.finite neg units _) =>
    match x.toInt? with
    | some n => Numeral.chars n
    | none => (if neg then ['-'] else []) ++ (Decimal.shortest units).positional

end Binary64

end IiifRules.Numeric
