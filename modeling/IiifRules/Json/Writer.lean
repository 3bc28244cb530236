import IiifRules.Json.Basic
import IiifRules.Numeric.Shortest
import IiifRules.Text.Hex

/-! # JSON text of a value

Two layouts: on one line, and indented by two blanks a level. In both the characters above ASCII may
be escaped as UTF-16 units. A value with an integer of too many digits has no text
(`Json.writable`). -/

namespace IiifRules.Json

open Numeric Text

/-- One UTF-16 unit as an escape. -/
def unitEscape (n : Nat) : List Char := '\\' :: 'u' :: Hex.digits 4 n

/-- A character that is not written as it is: two units above `0xFFFF`. -/
def codeEscape (n : Nat) : List Char :=
  if n < 0x10000 then unitEscape n
  else unitEscape (0xD800 + (n - 0x10000) / 0x400) ++ unitEscape (0xDC00 + (n - 0x10000) % 0x400)

/-- One character inside a text; with `ascii` nothing above ASCII is left. -/
def escapeChar (ascii : Bool) (c : Char) : List Char :=
  if c = '"' then ['\\', '"']
  else if c = '\\' then ['\\', '\\']
  else if c = '\n' then ['\\', 'n']
  else if c = '\r' then ['\\', 'r']
  else if c = '\t' then ['\\', 't']
  else if c = '\x08' then ['\\', 'b']
  else if c = '\x0c' then ['\\', 'f']
  else if c.toNat < 0x20 then unitEscape c.toNat
  else if ascii && 0x7F ≤ c.toNat then codeEscape c.toNat
  else [c]

/-- A text between double marks. -/
def writeText (ascii : Bool) (s : String) : List Char :=
  '"' :: s.toList.flatMap (escapeChar ascii) ++ ['"']

mutual

/-- A value on one line, with a separator after each entry and one after each name. -/
def line (ascii : Bool) (comma colon : List Char) : Json → List Char
  | null => "null".toList
  | bool true => "true".toList
  | bool false => "false".toList
  | int n => Numeral.chars n
  | float x => Layout.document.write x
  | text s => writeText ascii s
  | array items => '[' :: lineItems ascii comma colon items ++ [']']
  | object members => '{' :: lineMembers ascii comma colon members ++ ['}']

def lineItems (ascii : Bool) (comma colon : List Char) : List Json → List Char
  | [] => []
  | [v] => line ascii comma colon v
  | v :: rest => line ascii comma colon v ++ comma ++ lineItems ascii comma colon rest

def lineMembers (ascii : Bool) (comma colon : List Char) : List (String × Json) → List Char
  | [] => []
  | [(n, v)] => writeText ascii n ++ colon ++ line ascii comma colon v
  | (n, v) :: rest =>
    writeText ascii n ++ colon ++ line ascii comma colon v ++ comma ++
      lineMembers ascii comma colon rest

end

mutual

/-- Whether each integer in a value has few enough digits to be written. -/
def writable : Json → Bool
  | int n => Numeral.writable n
  | array items => writableItems items
  | object members => writableMembers members
  | _ => true

def writableItems : List Json → Bool
  | [] => true
  | v :: rest => writable v && writableItems rest

def writableMembers : List (String × Json) → Bool
  | [] => true
  | (_, v) :: rest => writable v && writableMembers rest

end

/-- The start of a line at a level. -/
def newline (level : Nat) : List Char := '\n' :: List.replicate (2 * level) ' '

mutual

/-- A value over several lines; an empty array or object stays on one. -/
def indented (level : Nat) : Json → List Char
  | array [] => ['[', ']']
  | object [] => ['{', '}']
  | array (v :: rest) =>
    '[' :: newline (level + 1) ++ indented (level + 1) v ++ indentedItems (level + 1) rest ++
      newline level ++ [']']
  | object ((n, v) :: rest) =>
    '{' :: newline (level + 1) ++ writeText true n ++ ':' :: ' ' :: indented (level + 1) v ++
      indentedMembers (level + 1) rest ++ newline level ++ ['}']
  | v => line true [','] [':'] v

def indentedItems (level : Nat) : List Json → List Char
  | [] => []
  | v :: rest => ',' :: newline level ++ indented level v ++ indentedItems level rest

def indentedMembers (level : Nat) : List (String × Json) → List Char
  | [] => []
  | (n, v) :: rest =>
    ',' :: newline level ++ writeText true n ++ ':' :: ' ' :: indented level v ++
      indentedMembers level rest

end

/-- The shortest text of a value, in ASCII. -/
def compact (v : Json) : String := String.ofList (line true [','] [':'] v)

/-- A value on one line with a blank after each separator. -/
def spaced (ascii : Bool) (v : Json) : String := String.ofList (line ascii [',', ' '] [':', ' '] v)

/-- A value over several lines, in ASCII. -/
def pretty (v : Json) : String := String.ofList (indented 0 v)

end IiifRules.Json
