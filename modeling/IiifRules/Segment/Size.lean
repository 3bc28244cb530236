import IiifRules.Numeric.Shortest
import IiifRules.Segment.GrammarError
import IiifRules.Segment.Token

/-! # Sizes

The size segment of an image request: how large the region is to be delivered. A caret in front
allows the region to be enlarged; whether the service allows that is judged elsewhere.

* `Size.parse`: reads a segment.
* `Size.format`: writes it; only an integer that is too long to be written is a failure. -/

namespace IiifRules

open Numeric Text

/-- The ways to say how large an image is to be. -/
inductive SizeForm
  /-- As large as the service delivers it. -/
  | max
  /-- Of this width, the height in proportion. -/
  | width (w : Int)
  /-- Of this height, the width in proportion. -/
  | height (h : Int)
  /-- A percentage of the region. -/
  | percent (n : Binary64)
  /-- Of this width and height, whatever the proportion. -/
  | exact (w h : Int)
  /-- As large as fits within this width and height, in proportion. -/
  | confined (w h : Int)
deriving DecidableEq

structure Size where
  form : SizeForm
  upscale : Bool
deriving DecidableEq

namespace Size

open Segment.Token

/-- Reads an optional natural number: the inner `none` is no number, the outer one no text. -/
def readOptional (cs : List Char) : Except Failure (Option (Option Nat)) :=
  if cs.isEmpty then .ok none else (readNatural cs).map some

/-- The form of a width and a height read around the comma. -/
def ofDimensions (confined : Bool) :
    Option Nat → Option Nat → Except (Option GrammarReason) SizeForm
  | some w, some h => .ok (if confined then .confined w h else .exact w h)
  | some w, none => if confined then .error (some .confinedNeedsBoth) else .ok (.width w)
  | none, some h => if confined then .error (some .confinedNeedsBoth) else .ok (.height h)
  | none, none => .error (if confined then some .confinedNeedsBoth else none)

/-- Reads a width and a height with a comma between them. -/
def parseDimensions (confined : Bool) (cs : List Char) :
    Except Failure (Except (Option GrammarReason) SizeForm) := do
  match cut ',' cs with
  | (_, none) => return .error none
  | (w, some h) =>
    let w ← readOptional w
    let h ← readOptional h
    if w = some none ∨ h = some none then return .error (some .dimensions)
    else if w = some (some 0) ∨ h = some (some 0) then return .error (some .dimensionZero)
    else return ofDimensions confined w.join h.join

def parsePercent (cs : List Char) : Except Failure (Except (Option GrammarReason) SizeForm) := do
  match ← readDecimal none cs with
  | none => return .error (some .percentage)
  | some n =>
    if n.le .zero && Binary64.le .zero n then return .error (some .percentageZero)
    else return .ok (.percent n)

/-- Reads a size segment without its caret. -/
def parseForm (cs : List Char) : Except Failure (Except (Option GrammarReason) SizeForm) :=
  if cs = "max".toList then .ok (.ok .max)
  else
    match after? "pct:".toList cs with
    | some rest => parsePercent rest
    | none =>
      match after? ['!'] cs with
      | some rest => parseDimensions true rest
      | none => parseDimensions false cs

/-- **Reads a size segment.** -/
def parse (text : String) : Except Failure (Parsed Size) := do
  let (upscale, body) :=
    match after? ['^'] text.toList with
    | some rest => (true, rest)
    | none => (false, text.toList)
  match ← parseForm body with
  | .ok form => return .ok ⟨form, upscale⟩
  | .error reason => return .error ⟨.size, text, reason⟩

/-- The characters of a form. -/
def formChars : SizeForm → Except Failure (List Char)
  | .max => .ok "max".toList
  | .width w => do return (← Numeral.writeChars w) ++ [',']
  | .height h => do return ',' :: (← Numeral.writeChars h)
  | .percent n => .ok ("pct:".toList ++ n.plain)
  | .exact w h => do return (← Numeral.writeChars w) ++ ',' :: (← Numeral.writeChars h)
  | .confined w h => do return '!' :: (← Numeral.writeChars w) ++ ',' :: (← Numeral.writeChars h)

def formatChars (s : Size) : Except Failure (List Char) := do
  return (if s.upscale then ['^'] else []) ++ (← formChars s.form)

/-- **Writes a size segment.** -/
def format (s : Size) : Except Failure String := (formatChars s).map String.ofList

end Size

end IiifRules
