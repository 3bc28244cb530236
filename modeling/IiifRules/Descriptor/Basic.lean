import IiifRules.Compliance.Terms
import IiifRules.Json.Basic
import IiifRules.Segment.Terms

/-! # Descriptors

A descriptor is what an image service says about itself in its image-information document: how large
the image is, which level it complies with, and what it offers beyond that. Properties that the
Image API does not name are kept as they are. -/

namespace IiifRules

/-- The context of an image-information document. -/
inductive Context
  | uri (s : String)
  | list (items : List Json)

/-- The URI of the Image API's own context. -/
def imageContext : String := "http://iiif.io/api/image/3/context.json"

def imageProtocol : String := "http://iiif.io/api/image"

def imageServiceType : String := "ImageService3"

/-- A size at which the service has the image ready; `typed` if the entry states its type. -/
structure SizeEntry where
  typed : Bool
  width : Int
  height : Int
  extras : Json.Members

/-- A layout of tiles that the service is made for; `typed` if the entry states its type. -/
structure TileEntry where
  typed : Bool
  width : Int
  height : Option Int
  scaleFactors : List Int
  extras : Json.Members

/-- What an image service says about itself. -/
structure Descriptor where
  context : Context
  id : String
  profile : ComplianceLevel
  width : Int
  height : Int
  maxWidth : Option Int
  maxHeight : Option Int
  maxArea : Option Int
  sizes : List SizeEntry
  tiles : List TileEntry
  preferredFormats : List ImageFormat
  rights : Option String
  extraFeatures : List Feature
  extraFormats : List ImageFormat
  extraQualities : List Quality
  extras : Json.Members

/-- The height of the tiles; they are square if none is stated. -/
def TileEntry.tileHeight (t : TileEntry) : Int := t.height.getD t.width

namespace Descriptor

/-- Whether a width or an area bounds an enlarged image. -/
def declaresUpscalingLimit (d : Descriptor) : Bool := d.maxWidth.isSome || d.maxArea.isSome

/-- The greatest height of a delivered image: the greatest width if no height is stated. -/
def heightLimit (d : Descriptor) : Option Int := d.maxHeight.or d.maxWidth

end Descriptor

end IiifRules
