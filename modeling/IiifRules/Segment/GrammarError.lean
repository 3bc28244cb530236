import IiifRules.Segment.Terms

/-! # Texts that do not match their grammar

A `GrammarError` names the axis that was read, the text as it was given, and the reason if the text
has the right shape but a part of it is out of range. `GrammarError.message` is its wording. -/

namespace IiifRules

/-- What a text was read as. -/
inductive Axis
  | region
  | size
  | rotation
  | quality
  | format
  | imageUri
  | infoUri
deriving DecidableEq, Repr

/-- Why a text of the right shape is refused. -/
inductive GrammarReason
  | percentCoordinates
  | percentExtentZero
  | pixelCoordinates
  | pixelExtentZero
  | percentage
  | percentageZero
  | dimensions
  | dimensionZero
  | confinedNeedsBoth
  | oneDecimalPlace
  | degreesRange
  | notHttp
  | queryOrFragment
  | fewSegments
  | emptySegment
  | lastSegment (segment : String)
deriving DecidableEq, Repr

structure GrammarError where
  axis : Axis
  token : String
  reason : Option GrammarReason
deriving DecidableEq, Repr

/-- What reading a text comes to: a value, or the reason why there is none. -/
abbrev Parsed (α : Type) := Except GrammarError α

def Axis.name : Axis → String
  | region => "region"
  | size => "size"
  | rotation => "rotation"
  | quality => "quality"
  | format => "format"
  | imageUri => "image URI"
  | infoUri => "info URI"

/-- The grammar of an axis, as messages show it. -/
def Axis.grammar : Axis → String
  | region => "full | square | x,y,w,h | pct:x,y,w,h"
  | size => "[^]max | [^]w, | [^],h | [^]pct:n | [^]w,h | [^]!w,h"
  | rotation => "[!]n where n is a number from 0 to 360"
  | quality => " | ".intercalate (Vocabulary.names Quality)
  | format => " | ".intercalate (Vocabulary.names ImageFormat)
  | imageUri =>
    "\x7bbaseUri\x7d/\x7bregion\x7d/\x7bsize\x7d/\x7brotation\x7d/" ++
      "\x7bquality\x7d.\x7bformat\x7d"
  | infoUri => "\x7bbaseUri\x7d/info.json"

def GrammarReason.message : GrammarReason → String
  | percentCoordinates => "percent coordinates must be non-negative numbers of at most 15 digits"
  | percentExtentZero => "Region percentage width and height must be greater than 0"
  | pixelCoordinates => "pixel coordinates must be non-negative integers"
  | pixelExtentZero => "Region width and height must be greater than 0"
  | percentage => "percentage must be a non-negative number of at most 15 digits"
  | percentageZero => "percentage must be greater than 0"
  | dimensions => "dimensions must be non-negative integers"
  | dimensionZero => "dimensions must be greater than 0"
  | confinedNeedsBoth => "!w,h requires both width and height"
  | oneDecimalPlace => "degrees carry at most one decimal place"
  | degreesRange => "Rotation must be between 0 and 360 degrees"
  | notHttp => "must be an absolute http(s) URI"
  | queryOrFragment => "query strings and fragments are not allowed"
  | fewSegments => "too few path segments"
  | emptySegment => "empty path segment"
  | lastSegment segment => "last segment '" ++ segment ++ "' must be quality.format"

namespace GrammarError

def expected (e : GrammarError) : String := e.axis.grammar

/-- The wording of the error. -/
def message (e : GrammarError) : String :=
  match e.reason with
  | some reason =>
    "Invalid " ++ e.axis.name ++ " '" ++ e.token ++ "': " ++ reason.message ++
      " (expected " ++ e.expected ++ ")"
  | none =>
    "Invalid " ++ e.axis.name ++ " syntax: '" ++ e.token ++ "' (expected " ++ e.expected ++ ")"

end GrammarError

/-- Reads a quality by its name. -/
def Quality.parse (text : String) : Parsed Quality :=
  match Vocabulary.ofName? text with
  | some q => .ok q
  | none => .error ⟨.quality, text, none⟩

/-- Reads a format by its name. -/
def ImageFormat.parse (text : String) : Parsed ImageFormat :=
  match Vocabulary.ofName? text with
  | some f => .ok f
  | none => .error ⟨.format, text, none⟩

end IiifRules
