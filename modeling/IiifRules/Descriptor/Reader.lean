import IiifRules.Descriptor.Basic
import IiifRules.Descriptor.Field
import IiifRules.Json.Display

/-! # Reading a descriptor

`Descriptor.ofJson` reads an image-information document, collecting all faults in the order of the
fields. Entries of the extra and preferred lists that are no term of their vocabulary are passed
over; `Descriptor.passedOver` lists them for the log. -/

namespace IiifRules

namespace Field

def context : FieldName := ⟨"@context", "context"⟩
def id : FieldName := .single "id"
def type : FieldName := .single "type"
def protocol : FieldName := .single "protocol"
def profile : FieldName := .single "profile"
def width : FieldName := .single "width"
def height : FieldName := .single "height"
def maxWidth : FieldName := ⟨"maxWidth", "max_width"⟩
def maxHeight : FieldName := ⟨"maxHeight", "max_height"⟩
def maxArea : FieldName := ⟨"maxArea", "max_area"⟩
def sizes : FieldName := .single "sizes"
def tiles : FieldName := .single "tiles"
def preferredFormats : FieldName := ⟨"preferredFormats", "preferred_formats"⟩
def rights : FieldName := .single "rights"
def extraFeatures : FieldName := ⟨"extraFeatures", "extra_features"⟩
def extraFormats : FieldName := ⟨"extraFormats", "extra_formats"⟩
def extraQualities : FieldName := ⟨"extraQualities", "extra_qualities"⟩
def scaleFactors : FieldName := ⟨"scaleFactors", "scale_factors"⟩

/-- The fields of a document. -/
def ofDocument : List FieldName :=
  [context, id, type, protocol, profile, width, height, maxWidth, maxHeight, maxArea, sizes, tiles,
   preferredFormats, rights, extraFeatures, extraFormats, extraQualities]

/-- The fields of an entry of `sizes`. -/
def ofSize : List FieldName := [type, width, height]

/-- The fields of an entry of `tiles`. -/
def ofTile : List FieldName := [type, width, height, scaleFactors]

end Field

/-- The members that give none of the fields. -/
def extrasOf (fields : List FieldName) (members : Json.Members) : Json.Members :=
  members.filter fun m => !fields.any fun f => f.used? members == some m.1

/-- Reads the context: a text or an array; anything else is at fault as both. -/
def Context.ofJson : Json → Checked Context
  | .text s => .ok (.uri s)
  | .array vs => .ok (.list vs)
  | _ => .error [⟨["str"], .notText⟩, ⟨["list[any]"], .notList⟩]

/-- Whether an entry states its type, which can only be `name`. -/
def readTyped (name : String) (members : Json.Members) : Checked Bool :=
  Field.type.withDefault members false fun v =>
    (Checked.nullable (Checked.literal name) v).map Option.isSome

def SizeEntry.ofJson : Json → Checked SizeEntry
  | .object members =>
    (readTyped "Size" members).map SizeEntry.mk
      |> Checked.supply (Field.width.required members Checked.integer)
      |> Checked.supply (Field.height.required members Checked.integer)
      |> Checked.supply (.ok (extrasOf Field.ofSize members))
  | _ => Checked.fault .notObject

def TileEntry.ofJson : Json → Checked TileEntry
  | .object members =>
    (readTyped "Tile" members).map TileEntry.mk
      |> Checked.supply (Field.width.required members Checked.integer)
      |> Checked.supply (Field.height.withDefault members none (Checked.nullable Checked.integer))
      |> Checked.supply (Field.scaleFactors.required members (Checked.array Checked.integer))
      |> Checked.supply (.ok (extrasOf Field.ofTile members))
  | _ => Checked.fault .notObject

namespace Descriptor

/-- Reads an optional limit. -/
def readLimit (f : FieldName) (members : Json.Members) : Checked (Option Int) :=
  f.withDefault members none (Checked.nullable Checked.integer)

/-- Reads a list of names of which those of no term are passed over. -/
def readTerms (α : Type) [Vocabulary α] (f : FieldName) (members : Json.Members) :
    Checked (List α) :=
  f.withDefault members [] (Checked.knownTerms α)

/-- A field that holds one fixed text if it is given. -/
def readFixed (f : FieldName) (members : Json.Members) (s : String) : Checked Unit :=
  f.withDefault members () (Checked.literal s)

/-- A descriptor from its parts, in the order of the fields of a document. -/
def build (context : Context) (id : String) (_type _protocol : Unit) (profile : ComplianceLevel)
    (width height : Int) (maxWidth maxHeight maxArea : Option Int) (sizes : List SizeEntry)
    (tiles : List TileEntry) (preferredFormats : List ImageFormat) (rights : Option String)
    (extraFeatures : List Feature) (extraFormats : List ImageFormat)
    (extraQualities : List Quality) (extras : Json.Members) : Descriptor :=
  { context, id, profile, width, height, maxWidth, maxHeight, maxArea, sizes, tiles,
    preferredFormats, rights, extraFeatures, extraFormats, extraQualities, extras }

/-- Reads the members of a document. -/
def ofMembers (ms : Json.Members) : Checked Descriptor :=
  (Field.context.withDefault ms (Context.uri imageContext) Context.ofJson).map build
    |> Checked.supply (Field.id.required ms Checked.text)
    |> Checked.supply (readFixed Field.type ms imageServiceType)
    |> Checked.supply (readFixed Field.protocol ms imageProtocol)
    |> Checked.supply (Field.profile.required ms (Checked.term ComplianceLevel))
    |> Checked.supply (Field.width.required ms Checked.integer)
    |> Checked.supply (Field.height.required ms Checked.integer)
    |> Checked.supply (readLimit Field.maxWidth ms)
    |> Checked.supply (readLimit Field.maxHeight ms)
    |> Checked.supply (readLimit Field.maxArea ms)
    |> Checked.supply (Field.sizes.withDefault ms [] (Checked.array SizeEntry.ofJson))
    |> Checked.supply (Field.tiles.withDefault ms [] (Checked.array TileEntry.ofJson))
    |> Checked.supply (readTerms ImageFormat Field.preferredFormats ms)
    |> Checked.supply (Field.rights.withDefault ms none (Checked.nullable Checked.text))
    |> Checked.supply (readTerms Feature Field.extraFeatures ms)
    |> Checked.supply (readTerms ImageFormat Field.extraFormats ms)
    |> Checked.supply (readTerms Quality Field.extraQualities ms)
    |> Checked.supply (.ok (extrasOf Field.ofDocument ms))

/-- **Reads an image-information document**, or gives the faults of all its fields. -/
def read : Json → Checked Descriptor
  | .object ms => ofMembers ms
  | _ => Checked.fault .notObject

/-- Reads an image-information document; faults are a failure. -/
def ofJson (v : Json) : Except Failure Descriptor := (read v).mapError .document

/-- Entries of one list that are no term, with the name under which the log reports the list. -/
structure PassedOver where
  list : String
  entries : List Json

/-- The entries of one field that name no term, unless there are none. -/
def passedOverIn (α : Type) [Vocabulary α] (f : FieldName) (list : String) (ms : Json.Members) :
    Option PassedOver :=
  match f.find? ms with
  | some (_, .array vs) =>
    let entries := vs.filter fun v => (v.term? α).isNone
    if entries.isEmpty then none else some ⟨list, entries⟩
  | _ => none

/-- What reading a document passes over, whether or not the document has other faults. -/
def passedOver : Json → List PassedOver
  | .object ms =>
    [passedOverIn ImageFormat Field.preferredFormats "formats" ms,
     passedOverIn Feature Field.extraFeatures "extraFeatures" ms,
     passedOverIn ImageFormat Field.extraFormats "formats" ms,
     passedOverIn Quality Field.extraQualities "extraQualities" ms].filterMap fun p => p
  | _ => []

end Descriptor

end IiifRules
