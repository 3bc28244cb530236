import IiifRules.Numeric.Shortest
import IiifRules.Segment.GrammarError
import IiifRules.Segment.Token

/-! # Regions

The region segment of an image request: which part of the image is wanted.

* `Region.parse`: reads a segment.
* `Region.format`: writes it; only an integer that is too long to be written is a failure. -/

namespace IiifRules

open Numeric Text

/-- A part of an image. -/
inductive Region
  /-- The complete image. -/
  | full
  /-- The largest square in the middle of the image. -/
  | square
  /-- A rectangle in pixels. -/
  | pixels (x y w h : Int)
  /-- A rectangle in percent of the image. -/
  | percent (x y w h : Binary64)
deriving DecidableEq

namespace Region

open Segment.Token

/-- Reads the coordinates of a rectangle in percent. -/
def parsePercent (text : String) (parts : List (List Char)) : Except Failure (Parsed Region) :=
  match parts with
  | [x, y, w, h] => do
    let x ← readDecimal none x
    let y ← readDecimal none y
    let w ← readDecimal none w
    let h ← readDecimal none h
    match x, y, w, h with
    | some x, some y, some w, some h =>
      if w.le .zero || h.le .zero then
        return .error ⟨.region, text, some .percentExtentZero⟩
      else return .ok (.percent x y w h)
    | _, _, _, _ => return .error ⟨.region, text, some .percentCoordinates⟩
  | _ => .ok (.error ⟨.region, text, none⟩)

def parsePixels (text : String) (parts : List (List Char)) : Except Failure (Parsed Region) :=
  match parts with
  | [x, y, w, h] => do
    let x ← readNatural x
    let y ← readNatural y
    let w ← readNatural w
    let h ← readNatural h
    match x, y, w, h with
    | some x, some y, some w, some h =>
      if w = 0 ∨ h = 0 then return .error ⟨.region, text, some .pixelExtentZero⟩
      else return .ok (.pixels x y w h)
    | _, _, _, _ => return .error ⟨.region, text, some .pixelCoordinates⟩
  | _ => .ok (.error ⟨.region, text, none⟩)

/-- **Reads a region segment.** -/
def parse (text : String) : Except Failure (Parsed Region) :=
  if text = "full" then .ok (.ok .full)
  else if text = "square" then .ok (.ok .square)
  else
    match after? "pct:".toList text.toList with
    | some rest => parsePercent text (fields ',' rest)
    | none => parsePixels text (fields ',' text.toList)

def formatChars : Region → Except Failure (List Char)
  | full => .ok "full".toList
  | square => .ok "square".toList
  | pixels x y w h => do
    let parts ← [x, y, w, h].mapM Numeral.writeChars
    return join ',' parts
  | percent x y w h => .ok ("pct:".toList ++ join ',' ([x, y, w, h].map Binary64.plain))

/-- **Writes a region segment.** -/
def format (r : Region) : Except Failure String := (formatChars r).map String.ofList

end Region

end IiifRules
