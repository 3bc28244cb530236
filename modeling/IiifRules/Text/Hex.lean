/-! # Hexadecimal digits

Fixed-width hexadecimal numerals, as escapes and bit patterns use them. -/

namespace IiifRules.Text.Hex

/-- The lower-case hexadecimal digit of a number below sixteen. -/
def lower (d : Nat) : Char := Char.ofNat (if d < 10 then 48 + d else 87 + d)

def upper (d : Nat) : Char := Char.ofNat (if d < 10 then 48 + d else 55 + d)

/-- The value of a hexadecimal digit of either case. -/
def value? (c : Char) : Option Nat :=
  let n := c.toNat
  if 48 ≤ n ∧ n ≤ 57 then some (n - 48)
  else if 97 ≤ n ∧ n ≤ 102 then some (n - 87)
  else if 65 ≤ n ∧ n ≤ 70 then some (n - 55)
  else none

/-- The last `width` hexadecimal digits of `n`. -/
def digits : Nat → Nat → List Char
  | 0, _ => []
  | width + 1, n => digits width (n / 16) ++ [lower (n % 16)]

end IiifRules.Text.Hex
