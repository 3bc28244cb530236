import IiifRules.Text.Hex
import IiifRules.Text.Printable

/-! # Quoted text

A text between quotation marks, as a message shows it. The marks are single unless the text holds a
single mark and no double one; the mark in use and the backslash are escaped, and so is every
character that is not printable. -/

namespace IiifRules.Text.Quoted

/-- The mark that a text is quoted with. -/
def mark (holdsSingle holdsDouble : Bool) : Char :=
  if holdsSingle && !holdsDouble then '"' else '\''

/-- A character that is not printable, by the shortest escape that holds its code. -/
def escapeCode (n : Nat) : List Char :=
  if n < 0x100 then '\\' :: 'x' :: Hex.digits 2 n
  else if n < 0x10000 then '\\' :: 'u' :: Hex.digits 4 n
  else '\\' :: 'U' :: Hex.digits 8 n

/-- One character between the marks `q`; `shown` says which stay as they are. -/
def escape (q : Char) (shown : Char → Bool) (c : Char) : List Char :=
  if c = q ∨ c = '\\' then ['\\', c]
  else if c = '\n' then ['\\', 'n']
  else if c = '\r' then ['\\', 'r']
  else if c = '\t' then ['\\', 't']
  else if shown c then [c]
  else escapeCode c.toNat

/-- A text between marks, with the characters outside `shown` escaped. -/
def quoteWith (shown : Char → Bool) (cs : List Char) : List Char :=
  let q := mark (cs.contains '\'') (cs.contains '"')
  q :: cs.flatMap (escape q shown) ++ [q]

/-- A text between marks. -/
def quote (cs : List Char) : List Char := quoteWith isPrintable cs

/-- A text between marks, with everything but printable ASCII escaped. -/
def quoteAscii (cs : List Char) : List Char :=
  quoteWith (fun c => isPrintable c && c.toNat < 0x80) cs

/-- Bytes between marks after a `b`, as if each were the character of its number. -/
def quoteBytes (bs : List Nat) : List Char := 'b' :: quoteAscii (bs.map Char.ofNat)

def ofString (s : String) : String := String.ofList (quote s.toList)

end IiifRules.Text.Quoted
