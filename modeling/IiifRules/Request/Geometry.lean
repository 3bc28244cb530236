import IiifRules.Segment.Basic

/-! # Geometry of a request

How many pixels a region has within an image, and how large it is when it is delivered. Percentages
and proportions are computed in binary64 and rounded to the nearest pixel, halves up.

* `Region.dimensions`: width and height of a region, clipped to the image.
* `Size.delivered`: width and height of what is delivered. -/

namespace IiifRules

open Numeric

def percentOf (length : Int) (percent : Binary64) : Except Failure Int := do
  roundHalfUp (← ((← floatOfInt length).mul percent).div (.ofInt 100))

/-- The part of `extent` pixels from `start` on that lies below `length`. -/
def clip (start extent length : Int) : Int := max 0 (min extent (length - start))

namespace Region

/-- **Width and height of a region** of an image, clipped to the image. -/
def dimensions (r : Region) (width height : Int) : Except Failure (Int × Int) :=
  match r with
  | full => .ok (width, height)
  | square => .ok (min width height, min width height)
  | pixels x y w h => .ok (clip x w width, clip y h height)
  | percent x y w h => do
    let x ← percentOf width x
    let y ← percentOf height y
    let w ← percentOf width w
    let h ← percentOf height h
    return (clip x w width, clip y h height)

end Region

namespace Size

/-- The height of a region in proportion to its width, which have to be positive. -/
def aspect (width height : Int) : Except Failure Binary64 :=
  if width ≤ 0 ∨ height ≤ 0 then .error (.emptyRegion width height) else floatQuotient height width

/-- A length times a factor, rounded. -/
def scaled (length : Int) (factor : Binary64) : Except Failure Int := do
  roundHalfUp ((← floatOfInt length).mul factor)

def unscaled (length : Int) (factor : Binary64) : Except Failure Int := do
  roundHalfUp (← (← floatOfInt length).div factor)

/-- The factor by which a region fits into a box; without `upscale` it is at most one. -/
def confinedFactor (width height boxWidth boxHeight : Int) (upscale : Bool) :
    Except Failure Binary64 := do
  let factor := (← floatQuotient boxWidth width).min (← floatQuotient boxHeight height)
  return if upscale then factor else factor.min .one

/-- Width and height of what is delivered of a region of the given aspect. -/
def deliveredWith (s : Size) (width height : Int) (aspect : Binary64) :
    Except Failure (Int × Int) :=
  match s.form with
  | .max => .ok (width, height)
  | .width w => do return (w, ← scaled w aspect)
  | .height h => do return (← unscaled h aspect, h)
  | .percent n => do return (← percentOf width n, ← percentOf height n)
  | .exact w h => .ok (w, h)
  | .confined w h => do
    let factor ← confinedFactor width height w h s.upscale
    return (← scaled width factor, ← scaled height factor)

/-- **Width and height of what is delivered** of a region of the given width and height. -/
def delivered (s : Size) (width height : Int) : Except Failure (Int × Int) := do
  s.deliveredWith width height (← aspect width height)

end Size

namespace Segment

/-- The dimensions of the region that a segment holds. -/
def dimensions (s : Segment) (width height : Int) : Except Failure (Int × Int) := do
  (← s.asRegion).dimensions width height

/-- What is delivered at the size that a segment holds; the region is looked at first. -/
def delivered (s : Segment) (width height : Int) : Except Failure (Int × Int) := do
  let aspect ← Size.aspect width height
  (← s.asSize).deliveredWith width height aspect

end Segment

end IiifRules
