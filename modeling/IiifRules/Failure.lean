/-! # Failures: the causes for which an operation gives no answer

A request, a document or a grid that merely breaks a rule is judged by a report; a `Failure` says
that an operation could not answer at all. Each constructor is one cause and carries what its
wording needs. The wording is in `IiifRules.Failure.Message`. -/

namespace IiifRules

/-- What is wrong with one field of a document that is read into a model. -/
inductive FieldFault
  | missing
  | notObject
  | notText
  | notInteger
  | badInteger
  | oversizedInteger
  | fractional
  | notFinite
  | notArray
  | notList
  | badLiteral
  | badName
deriving DecidableEq, Repr

/-- A fault together with the path to the field, outermost name first. -/
structure FieldError where
  path : List String
  fault : FieldFault
deriving DecidableEq, Repr

/-- What is wrong at a place of a JSON text. -/
inductive JsonFault
  | expectingValue
  | expectingName
  | expectingColon
  | expectingComma
  | extraData
  | controlCharacter
  | unterminatedString
  | badEscape
  | badUnicodeEscape
  | byteOrderMark
deriving DecidableEq, Repr

/-- A fault of a JSON text with its place: line and column from 1, offset from 0, in characters. -/
structure JsonError where
  fault : JsonFault
  line : Nat
  column : Nat
  offset : Nat
deriving DecidableEq, Repr

/-- What is wrong with a message template or with the arguments given for it. -/
inductive TemplateFault
  | tooFewArguments
  | argumentsLeft
  | incomplete
  | unclosedKey
  | needsMapping
  | missingKey (shown : String)
  | badConversion (conversion : Char) (index : Nat)
  | needsNumber (conversion : Char) (kind : String)
  | needsInteger (conversion : Char) (kind : String)
  | needsFloat (kind : String)
  | needsCharacter
  | characterRange
  | starNeedsInteger
  | widthTooBig
  | precisionTooBig
deriving DecidableEq, Repr

/-- **Why an operation gives no answer.** -/
inductive Failure
  /-- An integer has more decimal digits than may be read or written. -/
  | digitLimit
  /-- Arrays and objects are nested too deep in a text, at the beginning of an object or not. -/
  | nestingLimit (inObject : Bool)
  /-- A value that no field describes has too many levels to be written. -/
  | levelLimit
  | integerTooLargeForFloat
  | quotientTooLargeForFloat
  | divisionByZero
  | floatDivisionByZero
  | floorOfInfinity
  | floorOfNaN
  | notRegion (shown : String)
  | notSize (shown : String)
  /-- A value of another kind was given where a size or a rotation is judged. -/
  | lacksMember (kind member : String)
  | notPositive (name : String) (value : Int)
  | emptyRegion (width height : Int)
  | emptyImage (width height : Int)
  | negativeTile (column row : Int)
  | tileOutside (column row width height : Int)
  | badTileLayout
  | upscalingWithoutLimit
  | unknownName (vocabulary shown : String)
  | unhashable (kind : String)
  | misplacedBrackets
  | notAddress (host : String)
  | shortAddressInBrackets
  | badLaterAddress
  | ambiguousAuthority (authority : String)
  | document (errors : List FieldError)
  | json (error : JsonError)
  | missingFile
  | directoryRead
  | fileOnPath
  | zeroInPath
  | unknownHome
  | template (fault : TemplateFault)
  | unknownLogLevel
  | unsuitableLogLevel
deriving DecidableEq, Repr

/-- What kind of cause a failure has. -/
inductive FailureKind
  | badValue
  | badType
  | missingMember
  | missingName
  | outOfRange
  | zeroDivisor
  | badDocument
  | badJson
  | tooDeep
  | missingFile
  | directory
  | notDirectory
  | unknownPlace
deriving DecidableEq, Repr

def TemplateFault.kind : TemplateFault → FailureKind
  | incomplete => .badValue
  | unclosedKey => .badValue
  | badConversion _ _ => .badValue
  | missingKey _ => .missingName
  | characterRange => .outOfRange
  | widthTooBig => .badValue
  | precisionTooBig => .badValue
  | _ => .badType

namespace Failure

/-- The kind of a failure. -/
def kind : Failure → FailureKind
  | integerTooLargeForFloat => .outOfRange
  | quotientTooLargeForFloat => .outOfRange
  | floorOfInfinity => .outOfRange
  | divisionByZero => .zeroDivisor
  | floatDivisionByZero => .zeroDivisor
  | notRegion _ => .badType
  | notSize _ => .badType
  | unhashable _ => .badType
  | unsuitableLogLevel => .badType
  | lacksMember _ _ => .missingMember
  | document _ => .badDocument
  | json _ => .badJson
  | nestingLimit _ => .tooDeep
  | missingFile => .missingFile
  | directoryRead => .directory
  | fileOnPath => .notDirectory
  | unknownHome => .unknownPlace
  | template fault => fault.kind
  | _ => .badValue

/-- Whether the cause is a value that was given, as opposed to the arithmetic on it. -/
def isOfValue (f : Failure) : Bool :=
  f.kind = .badValue || f.kind = .badDocument || f.kind = .badJson

end Failure

end IiifRules
