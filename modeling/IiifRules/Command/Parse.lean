import IiifRules.Command.Arguments
import IiifRules.Compliance.Generate

/-! # Commands

The commands and what each of them is given. `Command.parse` reads one from the arguments. -/

namespace IiifRules

/-- What `generate-info` is given. -/
structure GenerateOptions where
  id : String
  width : Int
  height : Int
  level : ComplianceLevel
  tileWidth : Int
  scaleFactors : List Int
  maxWidth : Option Int
  features : List String

/-- What `tiles` is given. -/
structure TilesOptions where
  base : String
  width : Int
  height : Int
  tileWidth : Int
  tileHeight : Option Int
  scaleFactor : Int
  format : String
  quality : String

/-- What `behaviors` is given; parents are none if no behavior of the parent is named. -/
structure BehaviorsOptions where
  type : String
  declared : List String
  parentType : Option String
  parents : Option (List String)

/-- A command. -/
inductive Command
  | validateUri (uri : String) (info? : Option String) (logLevel : String)
  | imageUri (base region size rotation quality format : String)
  | checkInfo (path : String) (level? : Option ComplianceLevel) (logLevel : String)
  | generateInfo (options : GenerateOptions)
  | tiles (options : TilesOptions)
  | behaviors (options : BehaviorsOptions)

namespace Command

/-- A value that has to be there. -/
def demand {α : Type} : Option α → Except Usage α
  | some v => .ok v
  | none => .error .wrong

/-- An integer option that has a value when it is not given. -/
def integerOr (a : Arguments) (name : String) (value : Int) : Except Usage Int :=
  match a.last? name with
  | some s => demand (integer? s)
  | none => .ok value

/-- An integer option that may be missing. -/
def optionalInteger (a : Arguments) (name : String) : Except Usage (Option Int) :=
  match a.last? name with
  | some s => do return some (← demand (integer? s))
  | none => .ok none

/-- A level option that may be missing. -/
def optionalLevel (a : Arguments) : Except Usage (Option ComplianceLevel) :=
  match a.last? "--level" with
  | some s => do return some (← demand (Vocabulary.ofName? s))
  | none => .ok none

def parseValidateUri (args : List String) : Except Usage Command := do
  let a ← Arguments.collect ["--info", "--log-level"] args
  match a.positional with
  | [uri] => return .validateUri uri (a.last? "--info") ((a.last? "--log-level").getD "WARNING")
  | _ => .error .wrong

def parseImageUri (args : List String) : Except Usage Command := do
  let a ← Arguments.collect ["--region", "--size", "--rotation", "--quality", "--fmt"] args
  match a.positional with
  | [base] =>
    return .imageUri base ((a.last? "--region").getD "full") ((a.last? "--size").getD "max")
      ((a.last? "--rotation").getD "0") ((a.last? "--quality").getD Quality.default.name)
      ((a.last? "--fmt").getD ImageFormat.jpg.name)
  | _ => .error .wrong

def parseCheckInfo (args : List String) : Except Usage Command := do
  let a ← Arguments.collect ["--level", "--log-level"] args
  match a.positional with
  | [path] => return .checkInfo path (← optionalLevel a) ((a.last? "--log-level").getD "WARNING")
  | _ => .error .wrong

def parseGenerateInfo (args : List String) : Except Usage Command := do
  let a ← Arguments.collect
    ["--level", "--tile-width", "--scale-factor", "--max-width", "--feature"] args
  match a.positional with
  | [id, width, height] =>
    return .generateInfo
      { id
        width := ← demand (integer? width)
        height := ← demand (integer? height)
        level := (← optionalLevel a).getD .level0
        tileWidth := ← integerOr a "--tile-width" customaryTileWidth
        scaleFactors := ← (a.all "--scale-factor").mapM fun s => demand (integer? s)
        maxWidth := ← optionalInteger a "--max-width"
        features := a.all "--feature" }
  | _ => .error .wrong

def parseTiles (args : List String) : Except Usage Command := do
  let a ← Arguments.collect
    ["--tile-width", "--tile-height", "--scale-factor", "--fmt", "--quality"] args
  match a.positional with
  | [base, width, height] =>
    return .tiles
      { base
        width := ← demand (integer? width)
        height := ← demand (integer? height)
        tileWidth := ← integerOr a "--tile-width" customaryTileWidth
        tileHeight := ← optionalInteger a "--tile-height"
        scaleFactor := ← integerOr a "--scale-factor" 1
        format := (a.last? "--fmt").getD ImageFormat.jpg.name
        quality := (a.last? "--quality").getD Quality.default.name }
  | _ => .error .wrong

def parseBehaviors (args : List String) : Except Usage Command := do
  let a ← Arguments.collect ["--parent-type", "--parent-behavior"] args
  let parents := a.all "--parent-behavior"
  match a.positional with
  | type :: declared =>
    return .behaviors
      { type, declared
        parentType := a.last? "--parent-type"
        parents := if parents.isEmpty then none else some parents }
  | [] => .error .wrong

/-- Reads a command by its name. -/
def parseNamed (name : String) (args : List String) : Except Usage Command :=
  match name with
  | "validate-uri" => parseValidateUri args
  | "image-uri" => parseImageUri args
  | "check-info" => parseCheckInfo args
  | "generate-info" => parseGenerateInfo args
  | "tiles" => parseTiles args
  | "behaviors" => parseBehaviors args
  | _ => .error .wrong

/-- **Reads a command** from the arguments: its name comes first, perhaps after `--`. -/
def parse : List String → Except Usage Command
  | [] => .error .wrong
  | "--" :: name :: args => parseNamed name args
  | "--help" :: _ => .error .help
  | name :: args => parseNamed name args

end Command

end IiifRules
