import IiifRules.Numeric.Binary64
import IiifRules.Numeric.Numeral
import IiifRules.Text.Fields

/-! # Number tokens

The numbers inside a segment. Each has one spelling: a natural number is a run of digits without a
redundant zero in front, a decimal is a natural number, alone or followed by a point and a run of
digits that does not end in zero. A decimal has at most fifteen digits, zeros before the first other
one not counted, so that it survives being read to binary64 and written again.

Only a natural number that is too long to be read at all is a failure; any other fault of a token is
the answer `none`. -/

namespace IiifRules.Segment.Token

open Numeric Text

/-- A non-empty run of digits. -/
def isDigits (cs : List Char) : Bool := !cs.isEmpty && cs.all Char.isDigit

/-- A run of digits in which a zero comes first only if it stands alone. -/
def isNatural (cs : List Char) : Bool := isDigits cs && (cs.length == 1 || cs.head? != some '0')

/-- Digits that can follow a point: at least one, the last of them no zero. -/
def isFraction (cs : List Char) : Bool := isDigits cs && cs.getLast? != some '0'

/-- Reads a natural number. -/
def readNatural (cs : List Char) : Except Failure (Option Nat) :=
  if isNatural cs then (Numeral.read cs).map some else .ok none

/-- The most digits of a decimal, zeros before the first other digit not counted. -/
def decimalDigits : Nat := 15

/-- Reads a decimal with at most `places?` digits after the point. -/
def readDecimal (places? : Option Nat) (cs : List Char) : Except Failure (Option Binary64) := do
  let (whole, fraction?) := cut '.' cs
  let fraction := fraction?.getD []
  match ← readNatural whole with
  | none => return none
  | some _ =>
    if decimalDigits < (whole.dropWhile (· = '0')).length + fraction.length then return none
    else if fraction?.isSome && !isFraction fraction then return none
    else if places?.any (· < fraction.length) then return none
    else return some (.ofDecimal false (Numeral.value (whole ++ fraction)) (-fraction.length))

end IiifRules.Segment.Token
