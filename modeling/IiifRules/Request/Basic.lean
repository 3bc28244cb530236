import IiifRules.Segment.Basic

/-! # Image requests

The five axes of an image request, each as text or as a value, and the path that they form. -/

namespace IiifRules

/-- An image request. -/
structure Request where
  region : Segment
  size : Segment
  rotation : Segment
  quality : Segment
  format : Segment

namespace Request

/-- The request for the complete image as it is. -/
def whole : Request where
  region := .region .full
  size := .size ⟨.max, false⟩
  rotation := .rotation .none
  quality := .text Quality.default.name
  format := .text ImageFormat.jpg.name

/-- A request given by the texts of its segments. -/
def ofTexts (region size rotation quality format : String) : Request :=
  ⟨.text region, .text size, .text rotation, .text quality, .text format⟩

end Request

namespace Segment

/-- The text of a region segment. -/
def regionText : Segment → Except Failure String
  | text s => .ok s
  | s => do (← s.asRegion).format

def sizeText : Segment → Except Failure String
  | text s => .ok s
  | s => do (← s.asSize).format

def rotationText : Segment → Except Failure String
  | text s => .ok s
  | s => do return (← s.asRotation).format

end Segment

namespace Request

/-- **The path of a request**: region, size and rotation, then quality and format. -/
def path (r : Request) : Except Failure String := do
  let region ← r.region.regionText
  let size ← r.size.sizeText
  let rotation ← r.rotation.rotationText
  return region ++ "/" ++ size ++ "/" ++ rotation ++ "/" ++ (← r.quality.shown) ++ "." ++
    (← r.format.shown)

end Request

end IiifRules
