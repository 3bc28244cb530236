import IiifRules.Json.Display
import IiifRules.Segment.Region
import IiifRules.Segment.Rotation
import IiifRules.Segment.Size

/-! # Segments

One axis of a request holds either the text of its segment or a value. The value may be one that
belongs to another axis or to none: such a request can be written down, and only what reads the axis
refuses it.

* `Segment.quoted`, `Segment.shown`: the segment in a message, inside another value or on its
  own. -/

namespace IiifRules

open Numeric Text

/-- What one axis of a request holds. -/
inductive Segment
  | text (s : String)
  | region (r : Region)
  | size (s : Size)
  | rotation (r : Rotation)
  | other (v : Json)

namespace Segment

def truthWord (b : Bool) : String := if b then "True" else "False"

/-- A value of several named entries, as a message shows it. -/
def entries (kind : String) (es : List (String × String)) : String :=
  kind ++ "(" ++ ", ".intercalate (es.map fun (n, v) => n ++ "=" ++ v) ++ ")"

def shownFloat (x : Binary64) : String := String.ofList (Layout.message.write x)

/-- The word for the kind of a region. -/
def regionKind : Region → String
  | .full => "FullRegion"
  | .square => "SquareRegion"
  | .pixels .. => "PixelRegion"
  | .percent .. => "PercentRegion"

/-- The word for the kind of a size. -/
def sizeKind : SizeForm → String
  | .max => "MaxSize"
  | .width _ => "WidthSize"
  | .height _ => "HeightSize"
  | .percent _ => "PercentSize"
  | .exact .. => "WidthHeightSize"
  | .confined .. => "ConfinedSize"

def quotedRegion (r : Region) : Except Failure String :=
  match r with
  | .full => .ok (entries (regionKind r) [])
  | .square => .ok (entries (regionKind r) [])
  | .pixels x y w h => do
    return entries (regionKind r) [("x", ← Numeral.write x), ("y", ← Numeral.write y),
      ("w", ← Numeral.write w), ("h", ← Numeral.write h)]
  | .percent x y w h =>
    .ok (entries (regionKind r)
      [("x", shownFloat x), ("y", shownFloat y), ("w", shownFloat w), ("h", shownFloat h)])

def quotedSize (s : Size) : Except Failure String := do
  let upscale := [("upscale", truthWord s.upscale)]
  let own ← (match s.form with
    | .max => .ok []
    | .width w => do return [("width", ← Numeral.write w)]
    | .height h => do return [("height", ← Numeral.write h)]
    | .percent n => .ok [("percent", shownFloat n)]
    | .exact w h => do return [("width", ← Numeral.write w), ("height", ← Numeral.write h)]
    | .confined w h => do return [("width", ← Numeral.write w), ("height", ← Numeral.write h)])
  return entries (sizeKind s.form) (own ++ upscale)

def quotedRotation (r : Rotation) : String :=
  entries "Rotation" [("degrees", shownFloat r.degrees), ("mirror", truthWord r.mirror)]

/-- The segment inside a message, a text between marks. -/
def quoted : Segment → Except Failure String
  | text s => .ok (Quoted.ofString s)
  | region r => quotedRegion r
  | size s => quotedSize s
  | rotation r => .ok (quotedRotation r)
  | other v => .ok v.quotedText

/-- The segment on its own in a message, a text as it is. -/
def shown : Segment → Except Failure String
  | text s => .ok s
  | other v => .ok v.shownText
  | s => s.quoted

/-- The word for the kind of what the segment holds. -/
def kind : Segment → String
  | text _ => "str"
  | region r => regionKind r
  | size s => sizeKind s.form
  | rotation _ => "Rotation"
  | other v => v.kindWord

/-- The region that the segment holds as a value. -/
def asRegion : Segment → Except Failure Region
  | region r => .ok r
  | s => do throw (.notRegion (← s.quoted))

/-- The size that the segment holds as a value. -/
def asSize : Segment → Except Failure Size
  | size s => .ok s
  | s => do throw (.notSize (← s.quoted))

/-- The rotation that the segment holds as a value. -/
def asRotation : Segment → Except Failure Rotation
  | rotation r => .ok r
  | s => .error (.lacksMember s.kind "mirror")

end Segment

end IiifRules
