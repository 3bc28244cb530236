import IiifRules.Behavior.Check
import IiifRules.Behavior.Inherit
import IiifRules.Command.Files
import IiifRules.Command.Parse
import IiifRules.Descriptor.Load
import IiifRules.Descriptor.Shape
import IiifRules.Failure.Message
import IiifRules.Json.Writer
import IiifRules.Log.Level
import IiifRules.Log.Record
import IiifRules.Tile.Uri

/-! # Running a command

What each command says, logs and ends with, as a value.

* `Outcome`: exit code, output, diagnostics, log records, and the failure if one was not expected.
* `Command.run`: the outcome of a command; `runArguments` reads the command first. -/

namespace IiifRules

/-- What running a command comes to. -/
structure Outcome where
  exitCode : Nat
  output : String
  diagnostics : List String
  logs : List Log.Record
  failure? : Option Failure

namespace Outcome

/-- Lines of output. -/
def lines (ls : List String) : String := String.join (ls.map fun l => l ++ "\n")

/-- An end with some output. -/
def exit (code : Nat) (ls : List String) : Outcome := ⟨code, lines ls, [], [], none⟩

/-- An end with success. -/
def success (ls : List String) : Outcome := exit 0 ls

/-- An end that says nothing because the arguments are wrong. -/
def wrongUsage : Outcome := exit 2 []

/-- An end with a diagnostic. -/
def diagnosed (line : String) : Outcome := ⟨1, "", [line], [], none⟩

/-- An end by a failure that no command expects. -/
def failed (f : Failure) : Outcome := ⟨1, "", [], [], some f⟩

/-- What was said and logged before an end. -/
def after (ls : List String) (logs : List Log.Record) (o : Outcome) : Outcome :=
  { o with output := lines ls ++ o.output, logs := logs ++ o.logs }

end Outcome

namespace Command

/-- The name of the log. -/
def logName : String := "limpet"

/-- The name of the log of descriptors. -/
def descriptorLogName : String := "limpet.iiif.v3.models"

/-- A number at the end of three columns. -/
def column (n : Nat) : String :=
  let cs := Numeric.Numeral.chars n
  String.ofList (List.replicate (3 - cs.length) ' ' ++ cs)

/-- Errors with their numbers. -/
def numbered (errors : List String) : List String :=
  errors.zipIdx.map fun (e, i) => "  " ++ column (i + 1) ++ ". " ++ e

def warned (warnings : List String) : List String := warnings.map fun w => "⚠️  " ++ w

/-- The lines of a report that is not valid. -/
def refusal (title : String) (errors warnings : List String) : List String :=
  ("❌ " ++ title ++ ": " ++ Numeric.Numeral.text errors.length ++ " issue(s)\n") ::
    numbered errors ++ warned warnings

/-- Records of at least a level. -/
def atLeast (threshold : Int) (records : List Log.Record) : List Log.Record :=
  records.filter fun r => threshold ≤ r.level

/-- The record of entries that reading a descriptor passes over. -/
def passedOverRecord (p : Descriptor.PassedOver) : Log.Record where
  level := 10
  logger := descriptorLogName
  message := "Dropping unrecognized %s entries"
  arguments := [.text p.list]
  extras := [("dropped", .json (.array (p.entries.map fun v => .text v.shownText)))]
  error? := none

/-- The records of reading a descriptor. -/
def descriptorRecords (v : Json) : List Log.Record :=
  (Descriptor.passedOver v).map passedOverRecord

/-- A record of information. -/
def information (message : String) (extras : List (String × Json)) : Log.Record where
  level := 20
  logger := logName
  message := message
  arguments := []
  extras := extras.map fun (n, v) => (n, .json v)
  error? := none

def notFound (path : String) : Outcome := .diagnosed ("Error: File not found: " ++ path)

def unreadable (path : String) : Outcome :=
  .diagnosed ("Error: Could not read image information from " ++ path)

/-- The JSON value at a path. -/
def readDocument (s : Sources) (path : String) : Except Failure Json := do
  loadJson (some (← s.text path))

/-- Judges a request and says what was found. -/
def judgeUri (u : ImageUri) (d? : Option Descriptor) : Outcome :=
  match u.request.check d? with
  | .error f => .failed f
  | .ok r =>
    let warnings := r.warnings.map RequestWarning.message
    if r.valid then .success (("✅ Valid image request: " ++ u.identifier) :: warned warnings)
    else .exit 2 (refusal "Validation failed" (r.errors.map RequestError.message) warnings)

/-- Judges a request against the descriptor at a path. -/
def judgeUriAgainst (u : ImageUri) (path : String) (threshold : Int) (s : Sources) : Outcome :=
  match readDocument s path with
  | .error .missingFile => notFound path
  | .error (.json _) => unreadable path
  | .error f => .failed f
  | .ok v =>
    let passed := atLeast threshold (descriptorRecords v)
    match Descriptor.ofJson v with
    | .error _ => (unreadable path).after [] passed
    | .ok d =>
      let loaded := atLeast threshold
        [information "descriptor_loaded"
          [("info_path", .text path), ("profile", .text d.profile.name)]]
      (judgeUri u (some d)).after [] (passed ++ loaded)

def runValidateUri (uri : String) (info? : Option String) (logLevel : String) (s : Sources) :
    Outcome :=
  match Log.threshold logLevel with
  | .error f => .failed f
  | .ok threshold =>
    match ImageUri.parse uri with
    | .error e => .exit 2 ["❌ Invalid image URI: " ++ e.message]
    | .ok u =>
      match info? with
      | none => judgeUri u none
      | some path => judgeUriAgainst u path threshold s

def runImageUri (base : String) (r : Request) : Outcome :=
  match r.checkGrammar with
  | .error f => .failed f
  | .ok report =>
    if report.valid then
      match buildImageUri base r with
      | .ok uri => .success [uri]
      | .error f => .failed f
    else
      .exit 2 (refusal "Invalid request" (report.errors.map RequestError.message)
        (report.warnings.map RequestWarning.message))

/-- The lines that name what a service lacks. -/
def lacking (r : ComplianceReport) : List String :=
  r.missingFeatures.map (fun f => "  - missing feature: " ++ f.name) ++
    r.missingFormats.map (fun f => "  - missing format: " ++ f.name) ++
    r.missingQualities.map fun q => "  - missing quality: " ++ q.name

/-- Checks a document of which the shape is in order against a level. -/
def checkLevel (v : Json) (path : String) (level : ComplianceLevel) (threshold : Int) : Outcome :=
  let passed := atLeast threshold (descriptorRecords v)
  match Descriptor.ofJson v with
  | .error _ => (unreadable path).after [] passed
  | .ok d =>
    let r := d.checkLevel level
    let o : Outcome :=
      if r.compliant then .success ["✅ Compliant with " ++ level.name ++ "."]
      else .exit 2 (("❌ Not compliant with " ++ level.name ++ ":") :: lacking r)
    o.after [] passed

def runCheckInfo (path : String) (level? : Option ComplianceLevel) (logLevel : String)
    (s : Sources) : Outcome :=
  match Log.threshold logLevel with
  | .error f => .failed f
  | .ok threshold =>
    match readDocument s path with
    | .error .missingFile => notFound path
    | .error (.json e) => .diagnosed ("Error: Invalid JSON in " ++ path ++ ": " ++ e.message)
    | .error f => .failed f
    | .ok v =>
      match Shape.check v with
      | .error f => .failed f
      | .ok shape =>
        let checked := atLeast threshold
          [information "descriptor_checked"
            [("info_path", .text path), ("errors", .int shape.errors.length),
             ("warnings", .int shape.warnings.length)]]
        let warnings := shape.warnings.map ShapeWarning.message
        if shape.valid then
          let o : Outcome :=
            match level? with
            | none => .success []
            | some level => checkLevel v path level threshold
          o.after ("✅ info.json structure is valid." :: warned warnings) checked
        else
          (Outcome.exit 2
            (refusal "info.json validation failed" (shape.errors.map ShapeError.message)
              warnings)).after [] checked

/-- The descriptor of an image with customary sizes, at level 0, and tiles. -/
def generate (o : GenerateOptions) : Except Failure Descriptor := do
  let sizes ←
    if o.level = .level0 then standardSizes o.width o.height customaryWidths else pure []
  let factors := if o.scaleFactors.isEmpty then customaryScaleFactors else o.scaleFactors
  let tiles ← standardTiles o.tileWidth factors
  Descriptor.generate
    { id := .text o.id
      width := o.width
      height := o.height
      level := .text o.level.name
      sizes := sizes.map SizeEntry.toJson
      tiles := tiles.map TileEntry.toJson
      maxWidth := o.maxWidth
      maxHeight := none
      maxArea := none
      extraFeatures := o.features.map .text
      extraFormats := []
      extraQualities := []
      preferredFormats := []
      rights := .null }

/-- A wrong value is wrong usage; any other failure is not expected. -/
def ofFailure (f : Failure) : Outcome := if f.isOfValue then .wrongUsage else .failed f

def runGenerateInfo (o : GenerateOptions) : Outcome :=
  match generate o with
  | .ok d =>
    match d.write with
    | .ok v => .success [v.pretty]
    | .error f => .failed f
  | .error f => ofFailure f

/-- The grid that `tiles` is given; a tile height of zero counts as not given. -/
def TilesOptions.grid (o : TilesOptions) : Grid where
  fullWidth := o.width
  fullHeight := o.height
  tileWidth := o.tileWidth
  tileHeight := if o.tileHeight.getD 0 = 0 then o.tileWidth else o.tileHeight.getD 0
  scaleFactor := o.scaleFactor

def runTiles (o : TilesOptions) : Outcome :=
  let r : Request := { Request.whole with quality := .text o.quality, format := .text o.format }
  match r.checkGrammar with
  | .error f => .failed f
  | .ok report =>
    if report.valid then
      match (TilesOptions.grid o).uris o.base o.quality o.format with
      | .ok uris => .success uris
      | .error f => ofFailure f
    else .wrongUsage

def runBehaviors (o : BehaviorsOptions) : Outcome :=
  let parents? := if o.parentType.isSome then o.parents else none
  let r := checkBehaviors o.type o.declared o.parentType parents?
  let warnings := r.warnings.map BehaviorWarning.message
  if r.valid then
    let parent? := o.parentType.map fun t => (t, parents?.getD [])
    let tokens := effective o.type o.declared parent?
    .success
      (("✅ Behaviors valid for " ++ o.type ++ ".") :: warned warnings ++
        ["Effective: " ++ if tokens.isEmpty then "(none)" else ", ".intercalate tokens])
  else
    .exit 2 (refusal "Behavior validation failed" (r.errors.map BehaviorError.message) warnings)

/-- **Runs a command.** -/
def run (s : Sources) : Command → Outcome
  | .validateUri uri info? logLevel => runValidateUri uri info? logLevel s
  | .imageUri base region size rotation quality format =>
    runImageUri base (.ofTexts region size rotation quality format)
  | .checkInfo path level? logLevel => runCheckInfo path level? logLevel s
  | .generateInfo o => runGenerateInfo o
  | .tiles o => runTiles o
  | .behaviors o => runBehaviors o

/-- **Reads a command and runs it.** -/
def runArguments (s : Sources) (args : List String) : Outcome :=
  match parse args with
  | .ok c => run s c
  | .error .help => .success []
  | .error .wrong => .wrongUsage

end Command

end IiifRules
