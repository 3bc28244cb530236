import IiifRules.Compliance.Level
import IiifRules.Report
import IiifRules.Request.Basic
import IiifRules.Request.Geometry

/-! # Judging a request

A request is judged axis by axis, and every axis is judged even if one before it is at fault.
Without a descriptor only the grammar counts; with one, also what the service supports, and the
limits on what it delivers.

* `Terms`: what a request is judged against.
* `checkRegion`, …, `checkFormat`: one axis.
* `Request.check`: the whole request.
* `RequestError.message`, `RequestWarning.message`: the wording. -/

namespace IiifRules

open Numeric

inductive RequestError
  | grammar (error : GrammarError)
  | regionOutside
  | upscalingUnsupported
  | percentTooLarge
  | widthTooLarge
  | heightTooLarge
  | dimensionsTooLarge
  | mirroringUnsupported
  | degreesRange
  | notQuarterTurn
  | unknownQuality (shown : String)
  | unsupportedQuality (quality : Quality) (supported : List Quality)
  | unknownFormat (shown : String)
  | unsupportedFormat (format : ImageFormat) (supported : List ImageFormat)
  | aboveMaxWidth (width limit : Int)
  | aboveMaxHeight (height limit : Int)
  | aboveMaxArea (area limit : Int)
deriving DecidableEq, Repr

inductive RequestWarning
  | upscalingWithoutLimit
  | regionNotAdvertised (segment : String) (feature : Feature)
  | sizeNotAdvertised (segment : String) (feature : Feature)
  | rotationNotAdvertised (segment : String)
deriving DecidableEq, Repr

namespace RequestError

def message : RequestError → String
  | grammar error => error.message
  | regionOutside => "Region is entirely outside image bounds"
  | upscalingUnsupported => "Upscaling (^ prefix) is not supported"
  | percentTooLarge => "Percentage exceeds 100% without upscale prefix"
  | widthTooLarge => "Requested width exceeds region width without upscale prefix"
  | heightTooLarge => "Requested height exceeds region height without upscale prefix"
  | dimensionsTooLarge => "Requested dimensions exceed region dimensions without upscale prefix"
  | mirroringUnsupported => "Mirroring is not supported"
  | degreesRange => "Rotation must be between 0 and 360 degrees"
  | notQuarterTurn => "Only 90-degree rotations are supported"
  | unknownQuality shown => "Invalid quality: " ++ shown
  | unsupportedQuality quality supported =>
    "Quality \"" ++ quality.name ++ "\" not supported. Supported: " ++
      ", ".intercalate (supported.map Quality.name)
  | unknownFormat shown => "Invalid format: " ++ shown
  | unsupportedFormat format supported =>
    "Format \"" ++ format.name ++ "\" not supported. Supported: " ++
      ", ".intercalate (supported.map ImageFormat.name)
  | aboveMaxWidth width limit =>
    "Requested width " ++ Numeral.text width ++ " exceeds service maxWidth " ++ Numeral.text limit
  | aboveMaxHeight height limit =>
    "Requested height " ++ Numeral.text height ++ " exceeds service maxHeight " ++
      Numeral.text limit
  | aboveMaxArea area limit =>
    "Requested area " ++ Numeral.text area ++ " exceeds service maxArea " ++ Numeral.text limit

end RequestError

def RequestWarning.message : RequestWarning → String
  | upscalingWithoutLimit => "Service declares sizeUpscaling without maxWidth or maxArea"
  | regionNotAdvertised segment feature =>
    "Region '" ++ segment ++ "' uses " ++ feature.name ++ ", which the service does not advertise"
  | sizeNotAdvertised segment feature =>
    "Size '" ++ segment ++ "' uses " ++ feature.name ++ ", which the service does not advertise"
  | rotationNotAdvertised segment =>
    "Rotation '" ++ segment ++ "' uses " ++ Feature.rotationBy90s.name ++
      ", which the service does not advertise"

/-- What judging one axis comes to: its value, or the error. -/
abbrev Judged (α : Type) := Except RequestError α

namespace Segment

/-- Judges a region: one in pixels has to begin inside an image of known dimensions. -/
def checkRegion (s : Segment) (width? height? : Option Int) : Except Failure (Judged Segment) := do
  let value : Parsed Segment ← (match s with
    | .text t => do return (← Region.parse t).map .region
    | v => .ok (.ok v))
  match value with
  | .error e => return .error (.grammar e)
  | .ok v =>
    match v, width?, height? with
    | .region (.pixels x y _ _), some width, some height =>
      if width ≤ x ∨ height ≤ y then return .error .regionOutside else return .ok v
    | _, _, _ => return .ok v

/-- The size that a segment gives; a value of another kind cannot be asked whether it may
enlarge. -/
def readSize : Segment → Except Failure (Parsed Size)
  | .text t => Size.parse t
  | .size v => .ok (.ok v)
  | v => .error (.lacksMember v.kind "upscale")

end Segment

/-- Judges a size against the region, as far as that is known, and against whether the service
enlarges regions. -/
def Size.check (s : Size) (width? height? : Option Int) (upscaling : Bool) : Judged Size :=
  if s.upscale then if upscaling then .ok s else .error .upscalingUnsupported
  else
    match s.form with
    | .percent n => if Binary64.lt (.ofInt 100) n then .error .percentTooLarge else .ok s
    | .width w => if width?.any (· < w) then .error .widthTooLarge else .ok s
    | .height h => if height?.any (· < h) then .error .heightTooLarge else .ok s
    | .exact w h =>
      match width?, height? with
      | some width, some height =>
        if width < w ∨ height < h then .error .dimensionsTooLarge else .ok s
      | _, _ => .ok s
    | _ => .ok s

/-- Judges a rotation against what the service does to an image. -/
def Rotation.check (r : Rotation) (arbitrary mirroring : Bool) : Judged Rotation :=
  if r.mirror && !mirroring then .error .mirroringUnsupported
  else if !(Binary64.le .zero r.degrees && Binary64.le r.degrees (.ofInt 360)) then
    .error .degreesRange
  else if !arbitrary && !r.degrees.isMultipleOf 90 then .error .notQuarterTurn
  else .ok r

namespace Segment

/-- Judges a size. -/
def checkSize (s : Segment) (width? height? : Option Int) (upscaling : Bool) :
    Except Failure (Judged Size) := do
  match ← s.readSize with
  | .error e => return .error (.grammar e)
  | .ok v => return v.check width? height? upscaling

/-- The rotation that a segment gives. -/
def readRotation : Segment → Except Failure (Parsed Rotation)
  | .text t => Rotation.parse t
  | v => do return .ok (← v.asRotation)

/-- Judges a rotation. -/
def checkRotation (s : Segment) (arbitrary mirroring : Bool) :
    Except Failure (Judged Rotation) := do
  match ← s.readRotation with
  | .error e => return .error (.grammar e)
  | .ok v => return v.check arbitrary mirroring

/-- The term that a segment names. -/
def term? (α : Type) [Vocabulary α] : Segment → Option α
  | .text t => Vocabulary.ofName? t
  | _ => none

/-- Judges a quality against those that are supported. -/
def checkQuality (s : Segment) (supported : List Quality) : Except Failure (Judged Quality) := do
  match s.term? Quality with
  | none => return .error (.unknownQuality (← s.shown))
  | some q =>
    if supported.contains q then return .ok q
    else return .error (.unsupportedQuality q (Vocabulary.terms.filter supported.contains))

/-- Judges a format against those that are supported. -/
def checkFormat (s : Segment) (supported : List ImageFormat) :
    Except Failure (Judged ImageFormat) := do
  match s.term? ImageFormat with
  | none => return .error (.unknownFormat (← s.shown))
  | some f =>
    if supported.contains f then return .ok f
    else return .error (.unsupportedFormat f (Vocabulary.terms.filter supported.contains))

end Segment

/-- The feature that a region needs. -/
def Region.feature? : Region → Option Feature
  | .full => none
  | .square => some .regionSquare
  | .pixels .. => some .regionByPx
  | .percent .. => some .regionByPct

/-- The feature that a form of size needs. -/
def SizeForm.feature? : SizeForm → Option Feature
  | .max => none
  | .width _ => some .sizeByW
  | .height _ => some .sizeByH
  | .percent _ => some .sizeByPct
  | .exact .. => some .sizeByWh
  | .confined .. => some .sizeByConfinedWh

/-- Whether the rotation turns the image by quarters without leaving it as it is. -/
def Rotation.isQuarterTurn (r : Rotation) : Bool :=
  r.degrees.isMultipleOf 90 && !r.degrees.isMultipleOf 360

namespace Descriptor

/-- Whether the service mirrors images. -/
def mirrors (d : Descriptor) : Bool := d.hasFeature .mirroring || d.profile == .level2

/-- A region that uses a feature that the service does not have. -/
def regionWarnings (d : Descriptor) : Judged Segment → Except Failure (List RequestWarning)
  | .ok (.region r) => do
    match r.feature? with
    | some f => if d.hasFeature f then return [] else return [.regionNotAdvertised (← r.format) f]
    | none => return []
  | _ => .ok []

/-- A size that uses a feature that the service does not have. -/
def sizeWarnings (d : Descriptor) : Judged Size → Except Failure (List RequestWarning)
  | .ok s => do
    match s.form.feature? with
    | some f => if d.hasFeature f then return [] else return [.sizeNotAdvertised (← s.format) f]
    | none => return []
  | .error _ => .ok []

/-- A rotation by quarters that the service does not advertise. -/
def rotationWarnings (d : Descriptor) : Judged Rotation → List RequestWarning
  | .ok r =>
    if r.isQuarterTurn && !d.hasFeature .rotationBy90s && !d.hasFeature .rotationArbitrary then
      [.rotationNotAdvertised r.format]
    else []
  | .error _ => []

/-- One limit: the error shows both integers, which must not be too long. -/
def limitError (error : Int → Int → RequestError) (n : Int) (limit? : Option Int) :
    Except Failure (List RequestError) :=
  match limit? with
  | some limit =>
    if limit < n then
      if Numeral.writable n && Numeral.writable limit then .ok [error n limit]
      else .error .digitLimit
    else .ok []
  | none => .ok []

/-- The limits that an image of the given dimensions exceeds. -/
def limitErrors (d : Descriptor) (width height : Int) : Except Failure (List RequestError) := do
  let w ← limitError .aboveMaxWidth width d.maxWidth
  let h ← limitError .aboveMaxHeight height d.heightLimit
  let a ← limitError .aboveMaxArea (width * height) d.maxArea
  return w ++ h ++ a

/-- The limits that the delivered image exceeds. The largest image that the service delivers exceeds
none, and neither does one of an empty region. -/
def deliveryErrors (d : Descriptor) (region? : Option (Int × Int)) :
    Judged Size → Except Failure (List RequestError)
  | .ok s => do
    match region? with
    | some (width, height) =>
      if s.form = .max ∨ width = 0 ∨ height = 0 then return []
      else
        let (w, h) ← s.delivered width height
        d.limitErrors w h
    | none => return []
  | .error _ => .ok []

end Descriptor

/-- The error of an axis that is at fault. -/
def Judged.errors {α : Type} : Judged α → List RequestError
  | .ok _ => []
  | .error e => [e]

/-- What a request is judged against. -/
structure Terms where
  width? : Option Int
  height? : Option Int
  upscaling : Bool
  arbitraryRotation : Bool
  mirroring : Bool
  qualities : List Quality
  formats : List ImageFormat

/-- Only the grammar. -/
def Terms.grammar : Terms where
  width? := none
  height? := none
  upscaling := true
  arbitraryRotation := true
  mirroring := true
  qualities := Vocabulary.terms
  formats := Vocabulary.terms

/-- What a service supports. -/
def Terms.ofDescriptor (d : Descriptor) : Terms where
  width? := some d.width
  height? := some d.height
  upscaling := d.hasFeature .sizeUpscaling
  arbitraryRotation := d.hasFeature .rotationArbitrary
  mirroring := d.mirrors
  qualities := d.qualities
  formats := d.formats

/-- The axes of a request, judged, and the dimensions of its region as far as they are known. -/
structure JudgedRequest where
  region : Judged Segment
  dimensions? : Option (Int × Int)
  size : Judged Size
  rotation : Judged Rotation
  quality : Judged Quality
  format : Judged ImageFormat

namespace Request

/-- The dimensions of a region that is in order, within an image of known dimensions. -/
def regionDimensions (region : Judged Segment) (width? height? : Option Int) :
    Except Failure (Option (Int × Int)) :=
  match region, width?, height? with
  | .ok s, some width, some height => (s.dimensions width height).map some
  | _, _, _ => .ok none

/-- Judges all axes of a request. -/
def judge (r : Request) (t : Terms) : Except Failure JudgedRequest := do
  let region ← r.region.checkRegion t.width? t.height?
  let dimensions? ← regionDimensions region t.width? t.height?
  let size ← r.size.checkSize (dimensions?.map Prod.fst) (dimensions?.map Prod.snd) t.upscaling
  let rotation ← r.rotation.checkRotation t.arbitraryRotation t.mirroring
  let quality ← r.quality.checkQuality t.qualities
  let format ← r.format.checkFormat t.formats
  return { region, dimensions?, size, rotation, quality, format }

end Request

/-- The errors of all axes in their order. -/
def JudgedRequest.errors (j : JudgedRequest) : List RequestError :=
  Judged.errors j.region ++ Judged.errors j.size ++ Judged.errors j.rotation ++
    Judged.errors j.quality ++ Judged.errors j.format

abbrev RequestReport := Report RequestError RequestWarning

namespace Request

/-- Judges a request by its grammar alone. -/
def checkGrammar (r : Request) : Except Failure RequestReport := do
  return .ofErrors (← r.judge .grammar).errors

/-- Judges a request against what a service supports and delivers. -/
def checkAgainst (r : Request) (d : Descriptor) : Except Failure RequestReport := do
  let j ← r.judge (.ofDescriptor d)
  let unbounded :=
    if d.hasFeature .sizeUpscaling && !d.declaresUpscalingLimit then
      [RequestWarning.upscalingWithoutLimit]
    else []
  let region ← d.regionWarnings j.region
  let size ← d.sizeWarnings j.size
  let limits ← d.deliveryErrors j.dimensions? j.size
  return ⟨j.errors ++ limits, unbounded ++ region ++ size ++ d.rotationWarnings j.rotation⟩

/-- **Judges a request**, alone or against a descriptor. -/
def check (r : Request) : Option Descriptor → Except Failure RequestReport
  | none => r.checkGrammar
  | some d => r.checkAgainst d

end Request

end IiifRules
