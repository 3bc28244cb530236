import IiifRules.Text.Hex
import IiifRules.Text.Utf8

/-! # Percent-coding of identifiers

An identifier as one segment of a URI: the bytes of its UTF-8 form that are no letter, digit,
hyphen, point, low line or tilde of ASCII are written as a percent sign and two hexadecimal digits.

* `encode`: writes an identifier.
* `decode`: reads one. A percent sign without two digits stands for itself, and bytes that encode no
  character are replaced. -/

namespace IiifRules.Uri.Percent

open Text

/-- The bytes that stand for themselves. -/
def isUnreserved (b : Nat) : Bool :=
  (0x30 ≤ b && b ≤ 0x39) || (0x41 ≤ b && b ≤ 0x5A) || (0x61 ≤ b && b ≤ 0x7A) ||
    b = 0x2D || b = 0x2E || b = 0x5F || b = 0x7E

def encodeByte (b : Nat) : List Char :=
  if isUnreserved b then [Char.ofNat b] else ['%', Hex.upper (b / 16), Hex.upper (b % 16)]

def encodeChars (cs : List Char) : List Char := (Utf8.encode cs).flatMap encodeByte

/-- A part of an encoded identifier: a byte, or a character that no byte of the encoded form is. -/
inductive Part
  | byte (b : Nat)
  | char (c : Char)

/-- One character that begins no escape. -/
def partOf (c : Char) : Part := if c.toNat < 0x80 then .byte c.toNat else .char c

/-- The byte of two hexadecimal digits. -/
def escaped? (high low : Char) : Option Nat := do
  let h ← Hex.value? high
  let l ← Hex.value? low
  return h * 16 + l

def parts : List Char → List Part
  | [] => []
  | c :: high :: low :: rest =>
    match if c = '%' then escaped? high low else none with
    | some b => .byte b :: parts rest
    | none => partOf c :: parts (high :: low :: rest)
  | c :: rest => partOf c :: parts rest

/-- The characters of the parts that follow what is pending. -/
def decodeParts (pending : Option Utf8.Pending) : List Part → List Char
  | [] => Utf8.finish pending
  | .byte b :: ps =>
    let (cs, next) := Utf8.step pending b
    cs ++ decodeParts next ps
  | .char c :: ps => Utf8.finish pending ++ c :: decodeParts none ps

def decodeChars (cs : List Char) : List Char := decodeParts none (parts cs)

/-- **Writes an identifier** as one segment of a URI. -/
def encode (s : String) : String := String.ofList (encodeChars s.toList)

/-- **Reads an identifier** from a segment of a URI. -/
def decode (s : String) : String := String.ofList (decodeChars s.toList)

end IiifRules.Uri.Percent
