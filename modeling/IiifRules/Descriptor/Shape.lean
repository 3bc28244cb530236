import IiifRules.Descriptor.Basic
import IiifRules.Json.Term
import IiifRules.Report
import IiifRules.Uri.Authority

/-! # The shape of an image-information document

Whether a JSON value that comes from elsewhere has the structure of an image-information document:
required properties, their types and constants, limits, and each entry of `sizes` and `tiles`.
Unknown features, formats and qualities are warnings.

* `Shape.check`: the report; only an `id` whose authority cannot be read is a failure.
* `ShapeError.message`, `ShapeWarning.message`: the wording. -/

namespace IiifRules

/-- Where in a document an integer stands. -/
inductive ShapePlace
  | document (name : String)
  | entry (list : String) (index : Nat) (name : String)
deriving DecidableEq, Repr

inductive ShapeError
  | notObject
  | contextMissing
  | contextWrong
  | contextLacking
  | contextNotLast
  | contextKind
  | idMissing
  | idNotHttp
  | typeMissing
  | typeWrong
  | protocolMissing
  | protocolWrong
  | profileMissing
  | profileUnknown
  | notPositive (place : ShapePlace)
  | notArray (name : String)
  | entryNotObject (list : String) (index : Nat)
  | badScaleFactors (index : Nat)
  | upscalingWithoutLimit
deriving DecidableEq, Repr

inductive ShapeWarning
  | trailingSlash
  | levelZeroWithoutSizes
  | unknownEntry (name : String) (entry : Json)

def ShapePlace.text : ShapePlace → String
  | document name => name
  | entry list index name => list ++ "[" ++ Numeric.Numeral.text index ++ "]." ++ name

def ShapeError.message : ShapeError → String
  | notObject => "info.json must be a JSON object"
  | contextMissing => "@context is required"
  | contextWrong => "@context must be \"" ++ imageContext ++ "\""
  | contextLacking => "@context array must include \"" ++ imageContext ++ "\""
  | contextNotLast => "@context array must end with the Image API context"
  | contextKind => "@context must be a string or an array"
  | idMissing => "id is required"
  | idNotHttp => "id must be a valid HTTP(S) URI"
  | typeMissing => "type is required"
  | typeWrong => "type must be \"" ++ imageServiceType ++ "\""
  | protocolMissing => "protocol is required"
  | protocolWrong => "protocol must be \"" ++ imageProtocol ++ "\""
  | profileMissing => "profile is required"
  | profileUnknown => "profile must be \"level0\", \"level1\", or \"level2\""
  | notPositive place => place.text ++ " must be a positive integer"
  | notArray name => name ++ " must be an array"
  | entryNotObject list index =>
    list ++ "[" ++ Numeric.Numeral.text index ++ "] must be an object"
  | badScaleFactors index =>
    "tiles[" ++ Numeric.Numeral.text index ++
      "].scaleFactors must be a non-empty array of positive integers"
  | upscalingWithoutLimit => "sizeUpscaling feature requires maxWidth or maxArea to be specified"

def ShapeWarning.message : ShapeWarning → String
  | trailingSlash => "id should not have a trailing slash"
  | levelZeroWithoutSizes => "Level 0 servers should provide sizes or tiles array"
  | unknownEntry name entry => "Unknown " ++ name ++ " entry: " ++ entry.shownText

abbrev ShapeReport := Report ShapeError ShapeWarning

namespace Shape

open Json (Members)

/-- Whether a value is an integer above zero; a truth value is none. -/
def isPositive : Json → Bool
  | .int n => 0 < n
  | _ => false

/-- A member that is neither absent nor null. -/
def given? (ms : Members) (name : String) : Option Json :=
  match Json.get? ms name with
  | some .null => none
  | v => v

/-- The context is that of the Image API, or an array that ends with it. -/
def checkContext (ms : Members) : List ShapeError :=
  match given? ms "@context" with
  | none => [.contextMissing]
  | some (.text s) => if s = imageContext then [] else [.contextWrong]
  | some (.array vs) =>
    if !vs.any (·.isText imageContext) then [.contextLacking]
    else if vs.getLast?.any (·.isText imageContext) then [] else [.contextNotLast]
  | some _ => [.contextKind]

/-- The id is a URI under `http` or `https`, better without a slash at its end. -/
def checkId (ms : Members) : Except Failure ShapeReport := do
  match given? ms "id" with
  | none => return .ofErrors [.idMissing]
  | some (.text s) =>
    if s = "" then return .ofErrors [.idMissing]
    else if !(← Uri.hasHttpAuthority s) then return .ofErrors [.idNotHttp]
    else if s.toList.getLast? = some '/' then return .ofWarnings [.trailingSlash]
    else return .ofErrors []
  | some _ => return .ofErrors [.idNotHttp]

/-- A property with one value; null is a wrong value and not an absent one. -/
def checkConstant (ms : Members) (name value : String) (missing wrong : ShapeError) :
    List ShapeError :=
  match Json.get? ms name with
  | none => [missing]
  | some v => if v.isText value then [] else [wrong]

/-- The profile is the name of a level. -/
def checkProfile (ms : Members) : List ShapeError :=
  match given? ms "profile" with
  | none => [.profileMissing]
  | some (.text s) => if Vocabulary.isName ComplianceLevel s then [] else [.profileUnknown]
  | some _ => [.profileUnknown]

/-- A property that has to be a positive integer. -/
def checkPositive (ms : Members) (name : String) (place : ShapePlace) : List ShapeError :=
  if (Json.get? ms name).any isPositive then [] else [.notPositive place]

/-- A property that has to be a positive integer if it is there at all. -/
def checkPositiveIfThere (ms : Members) (name : String) (place : ShapePlace) : List ShapeError :=
  if Json.has ms name then checkPositive ms name place else []

/-- A service of level 0 should offer sizes or tiles. -/
def checkLevelZero (ms : Members) : List ShapeWarning :=
  if (Json.get? ms "profile").any (·.isText ComplianceLevel.level0.name) &&
      !(Json.get? ms "sizes").any Json.isTruthy && !(Json.get? ms "tiles").any Json.isTruthy then
    [.levelZeroWithoutSizes]
  else []

/-- An entry of `sizes` has a positive width and height. -/
def checkSize (index : Nat) : Json → List ShapeError
  | .object ms =>
    checkPositive ms "width" (.entry "sizes" index "width") ++
      checkPositive ms "height" (.entry "sizes" index "height")
  | _ => [.entryNotObject "sizes" index]

/-- Scale factors are a non-empty array of positive integers. -/
def areScaleFactors : Option Json → Bool
  | some (.array vs) => !vs.isEmpty && vs.all isPositive
  | _ => false

/-- An entry of `tiles` has a positive width, a positive height if it is there, and scale
factors. -/
def checkTile (index : Nat) : Json → List ShapeError
  | .object ms =>
    checkPositive ms "width" (.entry "tiles" index "width") ++
      checkPositiveIfThere ms "height" (.entry "tiles" index "height") ++
      if areScaleFactors (Json.get? ms "scaleFactors") then [] else [.badScaleFactors index]
  | _ => [.entryNotObject "tiles" index]

/-- The findings of all entries, each with its index. -/
def checkEntries (check : Nat → Json → List ShapeError) : Nat → List Json → List ShapeError
  | _, [] => []
  | i, v :: vs => check i v ++ checkEntries check (i + 1) vs

/-- A property that is an array of entries if it is given. -/
def checkList (ms : Members) (name : String) (check : Nat → Json → List ShapeError) :
    List ShapeError :=
  match given? ms name with
  | none => []
  | some (.array vs) => checkEntries check 0 vs
  | some _ => [.notArray name]

/-- An array of terms; the entries that are none are warnings. -/
def checkTerms (α : Type) [Vocabulary α] (name : String) : Json → ShapeReport
  | .array vs => .ofWarnings ((vs.filter fun v => (v.term? α).isNone).map (.unknownEntry name))
  | _ => .ofErrors [.notArray name]

/-- Enlarging needs a bound. -/
def checkUpscaling (ms : Members) : Json → List ShapeError
  | .array vs =>
    if vs.any (·.isText Feature.sizeUpscaling.name) && !Json.has ms "maxWidth" &&
        !Json.has ms "maxArea" then
      [.upscalingWithoutLimit]
    else []
  | _ => []

/-- The extra features, which may also be null. -/
def checkFeatures (ms : Members) : ShapeReport :=
  match given? ms "extraFeatures" with
  | none => .ofErrors []
  | some v => checkTerms Feature "extraFeatures" v ++ .ofErrors (checkUpscaling ms v)

/-- Terms of a property that may be absent but not null. -/
def checkExtras (α : Type) [Vocabulary α] (ms : Members) (name : String) : ShapeReport :=
  match Json.get? ms name with
  | none => .ofErrors []
  | some v => checkTerms α name v

/-- The findings in the members of a document. -/
def checkMembers (ms : Members) : Except Failure ShapeReport := do
  let id ← checkId ms
  return .ofErrors (checkContext ms) ++ id ++
    .ofErrors
      (checkConstant ms "type" imageServiceType .typeMissing .typeWrong ++
       checkConstant ms "protocol" imageProtocol .protocolMissing .protocolWrong ++
       checkProfile ms ++
       checkPositive ms "width" (.document "width") ++
       checkPositive ms "height" (.document "height") ++
       checkPositiveIfThere ms "maxWidth" (.document "maxWidth") ++
       checkPositiveIfThere ms "maxHeight" (.document "maxHeight") ++
       checkPositiveIfThere ms "maxArea" (.document "maxArea")) ++
    .ofWarnings (checkLevelZero ms) ++
    .ofErrors (checkList ms "sizes" checkSize ++ checkList ms "tiles" checkTile) ++
    checkFeatures ms ++
    checkExtras ImageFormat ms "extraFormats" ++
    checkExtras Quality ms "extraQualities"

/-- **Judges the shape of a document.** -/
def check : Json → Except Failure ShapeReport
  | .object ms => checkMembers ms
  | _ => .ok (.ofErrors [.notObject])

end Shape

end IiifRules
