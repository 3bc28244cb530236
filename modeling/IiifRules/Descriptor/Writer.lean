import IiifRules.Descriptor.Basic
import IiifRules.Failure

/-! # Writing a descriptor

A descriptor is written as an image-information document: the properties of the Image API in their
fixed order, then the others in their own. Properties that are not given, null values of the
document and of its size and tile entries, and empty arrays of the document are left out. Numbers
that are not finite are written as null.

* `Descriptor.toJson`: the document.
* `Descriptor.write`: writes it, unless it has values of too many levels that no field describes. -/

namespace IiifRules

/-- Whether a value is null. -/
def Json.isNull : Json → Bool
  | .null => true
  | _ => false

/-- Whether a value is an array without items. -/
def Json.isEmptyArray : Json → Bool
  | .array [] => true
  | _ => false

def Context.toJson : Context → Json
  | .uri s => .text s
  | .list items => .array (Json.standardItems items)

def Context.items : Context → List Json
  | .uri _ => []
  | .list items => items

/-- A member that is there only if its value is. -/
def optionalMember (name : String) (value : Option Json) : Json.Members :=
  match value with
  | some v => [(name, v)]
  | none => []

/-- The members that are not null, as they are written. -/
def givenMembers (members : Json.Members) : Json.Members :=
  Json.standardMembers (members.filter fun m => !m.2.isNull)

def SizeEntry.toJson (s : SizeEntry) : Json :=
  .object
    (optionalMember "type" (if s.typed then some (.text "Size") else none) ++
      [("width", .int s.width), ("height", .int s.height)] ++ givenMembers s.extras)

def TileEntry.toJson (t : TileEntry) : Json :=
  .object
    (optionalMember "type" (if t.typed then some (.text "Tile") else none) ++
      [("width", .int t.width)] ++ optionalMember "height" (t.height.map .int) ++
      [("scaleFactors", .array (t.scaleFactors.map .int))] ++ givenMembers t.extras)

/-- Terms as an array of their names. -/
def namesToJson {α : Type} [Vocabulary α] (ts : List α) : Json :=
  .array (ts.map fun t => .text (Vocabulary.name t))

namespace Descriptor

/-- All members of the document, empty arrays included. -/
def allMembers (d : Descriptor) : Json.Members :=
  [("@context", d.context.toJson), ("id", .text d.id), ("type", .text imageServiceType),
   ("protocol", .text imageProtocol), ("profile", .text d.profile.name), ("width", .int d.width),
   ("height", .int d.height)] ++
  optionalMember "maxWidth" (d.maxWidth.map .int) ++
  optionalMember "maxHeight" (d.maxHeight.map .int) ++
  optionalMember "maxArea" (d.maxArea.map .int) ++
  [("sizes", .array (d.sizes.map SizeEntry.toJson)),
   ("tiles", .array (d.tiles.map TileEntry.toJson)),
   ("preferredFormats", namesToJson d.preferredFormats)] ++
  optionalMember "rights" (d.rights.map .text) ++
  [("extraFeatures", namesToJson d.extraFeatures), ("extraFormats", namesToJson d.extraFormats),
   ("extraQualities", namesToJson d.extraQualities)] ++
  givenMembers d.extras

/-- The members of the document. -/
def toMembers (d : Descriptor) : Json.Members := d.allMembers.filter fun m => !m.2.isEmptyArray

/-- The image-information document that a descriptor is written as, if it is written. -/
def toJson (d : Descriptor) : Json := .object d.toMembers

/-- The most levels of a value that no field describes. -/
def levelLimit : Nat := 255

/-- The values that no field describes: the items of the context, and what stands beside the fields
of the document and of its entries. -/
def undescribed (d : Descriptor) : List Json :=
  d.context.items ++
    (d.sizes.flatMap SizeEntry.extras ++ d.tiles.flatMap TileEntry.extras ++ d.extras).map Prod.snd

/-- Whether each of these values is of few enough levels to be written. -/
def withinLevels (d : Descriptor) : Bool := d.undescribed.all fun v => v.levels ≤ levelLimit

/-- **Writes a descriptor** as an image-information document. The writer takes a value of too many
levels for one that contains itself. -/
def write (d : Descriptor) : Except Failure Json :=
  if d.withinLevels then .ok d.toJson else .error .levelLimit

end Descriptor

end IiifRules
