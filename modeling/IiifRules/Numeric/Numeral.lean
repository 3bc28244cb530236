import IiifRules.Failure

/-! # Decimal numerals of integers

Writing and reading integers in decimal, within the limit of `digitLimit` digits beyond which a
numeral is neither read nor written.

* `digits`: the digits of a natural number, most significant first, without a redundant zero.
* `value`: the number that a run of digits stands for. -/

namespace IiifRules.Numeric.Numeral

/-- The most digits a numeral may have to be read or written. -/
def digitLimit : Nat := 4300

def digitChar (d : Nat) : Char := Char.ofNat (48 + d)

def digitValue (c : Char) : Nat := c.toNat - 48

/-- Puts the last digits of `n`, at most `fuel` of them, in front of `acc`. -/
def digitsOnto : Nat → Nat → List Char → List Char
  | 0, _, acc => acc
  | fuel + 1, n, acc =>
    if n < 10 then digitChar n :: acc
    else digitsOnto fuel (n / 10) (digitChar (n % 10) :: acc)

/-- The decimal digits of `n`; a number has no more of them than binary ones. -/
def digits (n : Nat) : List Char := digitsOnto (n.log2 + 1) n []

/-- The number that a run of digits stands for. -/
def value (cs : List Char) : Nat := cs.foldl (fun n c => 10 * n + digitValue c) 0

/-- The number that a run of digits stands for, if it is not too long. -/
def read (cs : List Char) : Except Failure Nat :=
  if digitLimit < cs.length then .error .digitLimit else .ok (value cs)

/-- The characters of an integer, with a sign only if it is negative. -/
def chars (n : Int) : List Char :=
  if n < 0 then '-' :: digits n.natAbs else digits n.natAbs

/-- The text of an integer of any length. -/
def text (n : Int) : String := String.ofList (chars n)

/-- Whether an integer has few enough digits to be written. -/
def writable (n : Int) : Bool := (digits n.natAbs).length ≤ digitLimit

def writeChars (n : Int) : Except Failure (List Char) :=
  if writable n then .ok (chars n) else .error .digitLimit

def write (n : Int) : Except Failure String :=
  if writable n then .ok (text n) else .error .digitLimit

end IiifRules.Numeric.Numeral
