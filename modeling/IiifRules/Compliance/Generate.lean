import IiifRules.Compliance.Level
import IiifRules.Descriptor.Reader
import IiifRules.Descriptor.Writer
import IiifRules.Numeric.Binary64

/-! # Making a descriptor

A descriptor for an image of a given size and level, with the sizes and tiles that are customary,
and the short reference by which other resources name an image service.

* `Descriptor.generate`: the descriptor, or why there can be none.
* `standardSizes`, `standardTiles`: customary entries.
* `ServiceReference`: the short reference; `isServiceReference` tells whether a JSON value is
  one. -/

namespace IiifRules

open Numeric

/-- What a descriptor is made from. Values that the document holds as they are may be of any kind:
whether they fit is found when the document is read. -/
structure DescriptorPlan where
  id : Json
  width : Int
  height : Int
  level : Json
  sizes : List Json
  tiles : List Json
  maxWidth : Option Int
  maxHeight : Option Int
  maxArea : Option Int
  extraFeatures : List Json
  extraFormats : List Json
  extraQualities : List Json
  preferredFormats : List Json
  rights : Json

/-- A limit that has to be positive if it is given. -/
def requirePositiveLimit (name : String) : Option Int → Except Failure Unit
  | some n => if n ≤ 0 then .error (.notPositive name n) else .ok ()
  | none => .ok ()

namespace DescriptorPlan

/-- The document of a plan whose names have been read. -/
def document (p : DescriptorPlan) (level : ComplianceLevel) (features : List Feature)
    (preferred formats : List ImageFormat) (qualities : List Quality) : Json :=
  .object
    ([("id", p.id), ("profile", .text level.name), ("width", .int p.width),
      ("height", .int p.height)] ++
     optionalMember "maxWidth" (p.maxWidth.map .int) ++
     optionalMember "maxHeight" (p.maxHeight.map .int) ++
     optionalMember "maxArea" (p.maxArea.map .int) ++
     [("sizes", .array p.sizes), ("tiles", .array p.tiles),
      ("preferredFormats", namesToJson preferred), ("rights", p.rights),
      ("extraFeatures", namesToJson features), ("extraFormats", namesToJson formats),
      ("extraQualities", namesToJson qualities)])

end DescriptorPlan

/-- **Makes a descriptor.** Dimensions and limits are checked first, then the features, then whether
enlarging is bounded, then the level and the other names, and last the values of the document. -/
def Descriptor.generate (p : DescriptorPlan) : Except Failure Descriptor := do
  if p.width ≤ 0 ∨ p.height ≤ 0 then throw (.emptyImage p.width p.height)
  requirePositiveLimit "max_width" p.maxWidth
  requirePositiveLimit "max_height" p.maxHeight
  requirePositiveLimit "max_area" p.maxArea
  let features : List Feature ← p.extraFeatures.mapM Json.requireTerm
  if features.contains .sizeUpscaling && p.maxWidth.isNone && p.maxArea.isNone then
    throw .upscalingWithoutLimit
  let level ← p.level.requireTerm
  let preferred ← p.preferredFormats.mapM Json.requireTerm
  let formats ← p.extraFormats.mapM Json.requireTerm
  let qualities ← p.extraQualities.mapM Json.requireTerm
  Descriptor.ofJson (p.document level features preferred formats qualities)

/-- The widths at which a service has its image ready by custom. -/
def customaryWidths : List Int := [150, 600, 1200]

def customaryTileWidth : Int := 512

def customaryScaleFactors : List Int := [1, 2, 4, 8]

/-- The height in proportion to a width, rounded down. -/
def proportionalHeight (width height target : Int) : Except Failure Int := do
  (← floatQuotient (target * height) width).floor

/-- The sizes of the given widths, in proportion; widths above that of the image are passed over. -/
def standardSizes (width height : Int) (widths : List Int) : Except Failure (List SizeEntry) := do
  if width ≤ 0 ∨ height ≤ 0 then throw (.emptyImage width height)
  (widths.filter (· ≤ width)).mapM fun w => do
    return ⟨false, w, ← proportionalHeight width height w, []⟩

/-- Square tiles of a width at the given scale factors. -/
def standardTiles (tileWidth : Int) (scaleFactors : List Int) : Except Failure (List TileEntry) :=
  if tileWidth ≤ 0 ∨ scaleFactors.isEmpty ∨ scaleFactors.any (· ≤ 0) then .error .badTileLayout
  else .ok [⟨false, tileWidth, none, scaleFactors, []⟩]

/-- The short reference by which a resource names an image service. -/
structure ServiceReference where
  id : String
  profile : ComplianceLevel
  width : Option Int
  height : Option Int

namespace ServiceReference

/-- Makes a reference from values of any kind; the level is looked at first. -/
def make (id level width height : Json) : Except Failure ServiceReference := do
  let profile ← level.requireTerm
  let checked : Checked ServiceReference :=
    (Checked.under "id" (Checked.text id)).map ServiceReference.mk
      |> Checked.supply (.ok profile)
      |> Checked.supply (Checked.under "width" (Checked.nullable Checked.integer width))
      |> Checked.supply (Checked.under "height" (Checked.nullable Checked.integer height))
  checked.mapError .document

def toJson (r : ServiceReference) : Json :=
  .object
    ([("id", .text r.id), ("type", .text imageServiceType), ("protocol", .text imageProtocol),
      ("profile", .text r.profile.name)] ++
     optionalMember "width" (r.width.map .int) ++ optionalMember "height" (r.height.map .int))

end ServiceReference

/-- Whether a profile is the name of a level; an array or an object cannot be looked up. -/
def isLevelName : Option Json → Except Failure Bool
  | some (.text s) => .ok (Vocabulary.isName ComplianceLevel s)
  | some v@(.array _) => .error (.unhashable v.kindWord)
  | some v@(.object _) => .error (.unhashable v.kindWord)
  | _ => .ok false

/-- **Whether a JSON value is shaped like a reference** to an image service: an object with a text
as `id`, the type of an image service and a level as `profile`, looked at in this order. -/
def isServiceReference : Json → Except Failure Bool
  | .object ms =>
    match Json.get? ms "id" with
    | some (.text _) =>
      if (Json.get? ms "type").any (Json.isText · imageServiceType) then
        isLevelName (Json.get? ms "profile")
      else .ok false
    | _ => .ok false
  | _ => .ok false

end IiifRules
