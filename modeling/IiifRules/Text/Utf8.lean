/-! # UTF-8

Characters as bytes and bytes as characters, a byte being a natural number below 256.

* `encode`: one to four bytes for each character.
* `decode`: bytes that are no part of an encoded character are replaced: each longest run of bytes
  that begins an encoded character without completing it gives one replacement character, and so
  does each byte that begins none. -/

namespace IiifRules.Text.Utf8

/-- The character that stands for bytes that encode none. -/
def replacement : Char := Char.ofNat 0xFFFD

/-- The bytes of one character. -/
def encodeChar (c : Char) : List Nat :=
  let n := c.toNat
  if n < 0x80 then [n]
  else if n < 0x800 then [0xC0 + n / 64, 0x80 + n % 64]
  else if n < 0x10000 then [0xE0 + n / 4096, 0x80 + n / 64 % 64, 0x80 + n % 64]
  else [0xF0 + n / 262144, 0x80 + n / 4096 % 64, 0x80 + n / 64 % 64, 0x80 + n % 64]

def encode (cs : List Char) : List Nat := cs.flatMap encodeChar

/-- An encoded character of which `left` bytes are to come, the next one from `least` to
`greatest`. -/
structure Pending where
  left : Nat
  code : Nat
  least : Nat
  greatest : Nat

/-- What a first byte announces: no shorter form, no surrogate and nothing above `0x10FFFF`
begins. -/
def announce? (b : Nat) : Option Pending :=
  if 0xC2 ≤ b ∧ b ≤ 0xDF then some ⟨1, b - 0xC0, 0x80, 0xBF⟩
  else if b = 0xE0 then some ⟨2, 0, 0xA0, 0xBF⟩
  else if b = 0xED then some ⟨2, 0xD, 0x80, 0x9F⟩
  else if 0xE1 ≤ b ∧ b ≤ 0xEF then some ⟨2, b - 0xE0, 0x80, 0xBF⟩
  else if b = 0xF0 then some ⟨3, 0, 0x90, 0xBF⟩
  else if 0xF1 ≤ b ∧ b ≤ 0xF3 then some ⟨3, b - 0xF0, 0x80, 0xBF⟩
  else if b = 0xF4 then some ⟨3, 4, 0x80, 0x8F⟩
  else none

/-- The characters that a byte completes when none is pending, and what is pending then. -/
def start (b : Nat) : List Char × Option Pending :=
  if b < 0x80 then ([Char.ofNat b], none)
  else
    match announce? b with
    | some p => ([], some p)
    | none => ([replacement], none)

/-- The characters that a byte completes, and what is pending then. -/
def step : Option Pending → Nat → List Char × Option Pending
  | none, b => start b
  | some p, b =>
    if p.least ≤ b ∧ b ≤ p.greatest then
      let code := p.code * 64 + (b - 0x80)
      if p.left ≤ 1 then ([Char.ofNat code], none) else ([], some ⟨p.left - 1, code, 0x80, 0xBF⟩)
    else
      let (cs, next) := start b
      (replacement :: cs, next)

/-- What an unfinished character comes to where the bytes end. -/
def finish : Option Pending → List Char
  | none => []
  | some _ => [replacement]

/-- The characters of the bytes that follow what is pending. -/
def decodeFrom (pending : Option Pending) : List Nat → List Char
  | [] => finish pending
  | b :: bs =>
    let (cs, next) := step pending b
    cs ++ decodeFrom next bs

def decode (bs : List Nat) : List Char := decodeFrom none bs

end IiifRules.Text.Utf8
