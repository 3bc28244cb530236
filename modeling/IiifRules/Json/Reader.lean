import IiifRules.Json.Basic
import IiifRules.Numeric.Numeral
import IiifRules.Text.Hex

/-! # JSON text

Reading a JSON text, with the place of the first fault. Beyond the standard, `NaN`, `Infinity` and
`-Infinity` are numbers. A number with neither fraction nor exponent is an integer. Arrays and
objects are nested `depthLimit` deep at most.

The reader walks over the characters with a `Cursor` and stops with a `Stop`; `Json.read` turns the
offset of a fault into line and column. -/

namespace IiifRules.Json

open Numeric Text

/-- A place in a text: the characters that follow and how many went before. -/
structure Cursor where
  rest : List Char
  offset : Nat

/-- How deep arrays and objects may be nested. -/
def depthLimit : Nat := 990

/-- Why reading stops. -/
inductive Stop
  | fault (fault : JsonFault) (offset : Nat)
  | digitLimit
  | nestingLimit (inObject : Bool)

/-- The place `n` characters further on. -/
def Cursor.advance (c : Cursor) (n : Nat) : Cursor := ⟨c.rest.drop n, c.offset + n⟩

def isBlank (c : Char) : Bool := c = ' ' || c = '\t' || c = '\n' || c = '\r'

/-- The place after any blanks. -/
def Cursor.skipBlanks (c : Cursor) : Cursor := c.advance (c.rest.takeWhile isBlank).length

/-- The number of four hexadecimal digits. -/
def unit? : List Char → Option Nat
  | a :: b :: c :: d :: _ => do
    let a ← Hex.value? a
    let b ← Hex.value? b
    let c ← Hex.value? c
    let d ← Hex.value? d
    some (((a * 16 + b) * 16 + c) * 16 + d)
  | _ => none

def unitChar (n : Nat) : Char := if 0xD800 ≤ n ∧ n < 0xE000 then Char.ofNat 0xFFFD else Char.ofNat n

/-- The character of a backslash escape of one letter. -/
def letterEscape? (c : Char) : Option Char :=
  if c = '"' ∨ c = '\\' ∨ c = '/' then some c
  else if c = 'b' then some '\x08'
  else if c = 'f' then some '\x0c'
  else if c = 'n' then some '\n'
  else if c = 'r' then some '\r'
  else if c = 't' then some '\t'
  else none

/-- The character of an escape by code at `cs`, the characters after the `u` at `offset`, and how
many of `cs` it takes. A unit that begins a pair takes the other with it if more text follows. -/
def codeEscape? (cs : List Char) (offset : Nat) : Except Stop (Char × Nat) :=
  if (cs.drop 4).isEmpty then .error (.fault .badUnicodeEscape offset)
  else
    match unit? cs with
    | none => .error (.fault .badUnicodeEscape offset)
    | some high =>
      let rest := cs.drop 4
      if 0xD800 ≤ high ∧ high < 0xDC00 ∧ !(rest.drop 6).isEmpty ∧ rest.take 2 = ['\\', 'u'] then
        match unit? (rest.drop 2) with
        | none => .error (.fault .badUnicodeEscape (offset + 6))
        | some low =>
          if 0xDC00 ≤ low ∧ low < 0xE000 then
            .ok (Char.ofNat (0x10000 + (high - 0xD800) * 0x400 + (low - 0xDC00)), 10)
          else .ok (unitChar high, 4)
      else .ok (unitChar high, 4)

/-- Reads the rest of a text that began at `start`, `seen` being its characters so far, last
first. -/
def readText (start : Nat) : Nat → Cursor → List Char → Except Stop (String × Cursor)
  | 0, _, _ => .error (.fault .unterminatedString start)
  | fuel + 1, c, seen =>
    match c.rest with
    | [] => .error (.fault .unterminatedString start)
    | '"' :: _ => .ok (String.ofList seen.reverse, c.advance 1)
    | ['\\'] => .error (.fault .unterminatedString start)
    | '\\' :: 'u' :: rest =>
      match codeEscape? rest (c.offset + 1) with
      | .error stop => .error stop
      | .ok (ch, n) => readText start fuel (c.advance (n + 2)) (ch :: seen)
    | '\\' :: e :: _ =>
      match letterEscape? e with
      | none => .error (.fault .badEscape c.offset)
      | some ch => readText start fuel (c.advance 2) (ch :: seen)
    | ch :: _ =>
      if ch.toNat < 0x20 then .error (.fault .controlCharacter c.offset)
      else readText start fuel (c.advance 1) (ch :: seen)

/-- The exponent part at the start of the characters: its length and value; length 0 for none. -/
def exponentPart (cs : List Char) : Nat × Int :=
  match cs with
  | e :: rest =>
    if e = 'e' ∨ e = 'E' then
      let signed := rest.head? = some '+' ∨ rest.head? = some '-'
      let ds := (if signed then rest.drop 1 else rest).takeWhile Char.isDigit
      let n : Int := Numeral.value ds
      if ds.isEmpty then (0, 0)
      else (ds.length + (if signed then 2 else 1), if rest.head? = some '-' then -n else n)
    else (0, 0)
  | [] => (0, 0)

/-- The digits of the fraction at the start of the characters, without the point. -/
def fractionPart (cs : List Char) : List Char :=
  match cs with
  | '.' :: rest => rest.takeWhile Char.isDigit
  | _ => []

def readNumber (c : Cursor) : Except Stop (Json × Cursor) :=
  let neg := c.rest.head? = some '-'
  let body := if neg then c.rest.drop 1 else c.rest
  let whole := if body.head? = some '0' then ['0'] else body.takeWhile Char.isDigit
  if whole.isEmpty then .error (.fault .expectingValue c.offset)
  else
    let rest := body.drop whole.length
    let fraction := fractionPart rest
    let places := if fraction.isEmpty then 0 else fraction.length + 1
    let (length, exponent) := exponentPart (rest.drop places)
    let after := c.advance ((if neg then 1 else 0) + whole.length + places + length)
    if fraction.isEmpty ∧ length = 0 then
      match Numeral.read whole with
      | .error _ => .error .digitLimit
      | .ok n => .ok (.int (if neg then -(n : Int) else n), after)
    else
      let digits := Numeral.value (whole ++ fraction)
      .ok (.float (.ofDecimal neg digits (exponent - fraction.length)), after)

def words : List (List Char × Json) :=
  [("null".toList, .null), ("true".toList, .bool true), ("false".toList, .bool false),
   ("NaN".toList, .float .nan), ("Infinity".toList, .float (.infinite false)),
   ("-Infinity".toList, .float (.infinite true))]

mutual

/-- Reads a value in which arrays and objects are nested at most `depth` deep. -/
def readValue (depth : Nat) : Nat → Cursor → Except Stop (Json × Cursor)
  | 0, c => .error (.fault .expectingValue c.offset)
  | fuel + 1, c =>
    match c.rest with
    | '"' :: _ =>
      match readText c.offset (c.rest.length + 1) (c.advance 1) [] with
      | .error stop => .error stop
      | .ok (s, c) => .ok (.text s, c)
    | '[' :: _ =>
      if depth = 0 then .error (.nestingLimit false)
      else
        let c := (c.advance 1).skipBlanks
        if c.rest.head? = some ']' then .ok (.array [], c.advance 1)
        else readItems (depth - 1) fuel c []
    | '{' :: _ =>
      if depth = 0 then .error (.nestingLimit true)
      else
        let c := (c.advance 1).skipBlanks
        if c.rest.head? = some '}' then .ok (.object [], c.advance 1)
        else readMembers (depth - 1) fuel c []
    | _ =>
      match words.find? fun word => word.1.isPrefixOf c.rest with
      | some (word, v) => .ok (v, c.advance word.length)
      | none => readNumber c

/-- Reads the items of an array from the next one on, `seen` being those before, last first. -/
def readItems (depth : Nat) : Nat → Cursor → List Json → Except Stop (Json × Cursor)
  | 0, c, _ => .error (.fault .expectingValue c.offset)
  | fuel + 1, c, seen =>
    match readValue depth fuel c with
    | .error stop => .error stop
    | .ok (v, c) =>
      let c := c.skipBlanks
      match c.rest with
      | ']' :: _ => .ok (.array (v :: seen).reverse, c.advance 1)
      | ',' :: _ => readItems depth fuel (c.advance 1).skipBlanks (v :: seen)
      | _ => .error (.fault .expectingComma c.offset)

/-- Reads the members of an object from the next one on, `seen` being those before. -/
def readMembers (depth : Nat) : Nat → Cursor → Members → Except Stop (Json × Cursor)
  | 0, c, _ => .error (.fault .expectingName c.offset)
  | fuel + 1, c, seen =>
    match c.rest with
    | '"' :: _ =>
      match readText c.offset (c.rest.length + 1) (c.advance 1) [] with
      | .error stop => .error stop
      | .ok (name, c) =>
        let c := c.skipBlanks
        match c.rest with
        | ':' :: _ =>
          match readValue depth fuel (c.advance 1).skipBlanks with
          | .error stop => .error stop
          | .ok (v, c) =>
            let c := c.skipBlanks
            match c.rest with
            | '}' :: _ => .ok (.object (put seen name v), c.advance 1)
            | ',' :: _ => readMembers depth fuel (c.advance 1).skipBlanks (put seen name v)
            | _ => .error (.fault .expectingComma c.offset)
        | _ => .error (.fault .expectingColon c.offset)
    | _ => .error (.fault .expectingName c.offset)

end

/-- Reads a text that is one value and blanks around it; a byte order mark is no blank. -/
def readWhole (cs : List Char) : Except Stop Json :=
  if cs.head? = some (Char.ofNat 0xFEFF) then .error (.fault .byteOrderMark 0)
  else
    match readValue depthLimit (2 * cs.length + 2) (Cursor.skipBlanks ⟨cs, 0⟩) with
    | .error stop => .error stop
    | .ok (v, c) =>
      let c := c.skipBlanks
      if c.rest.isEmpty then .ok v else .error (.fault .extraData c.offset)

/-- The line and column, from 1, of an offset. -/
def place (cs : List Char) (offset : Nat) : Nat × Nat :=
  let before := cs.take offset
  (before.count '\n' + 1, (before.reverse.takeWhile (· ≠ '\n')).length + 1)

/-- **Reads a JSON text.** -/
def read (text : String) : Except Failure Json :=
  match readWhole text.toList with
  | .ok v => .ok v
  | .error .digitLimit => .error .digitLimit
  | .error (.nestingLimit inObject) => .error (.nestingLimit inObject)
  | .error (.fault fault offset) =>
    let (line, column) := place text.toList offset
    .error (.json ⟨fault, line, column, offset⟩)

end IiifRules.Json
