import IiifRules.Numeric.Numeral
import IiifRules.Text.Hex
import IiifRules.Text.Quoted

/-! # The wording of failures

`Failure.message?` is the wording of each cause. It is `none` for the causes that have none: a
missing file and an integer that is too long, which is also the answer where the wording would show
such an integer. -/

namespace IiifRules

open Numeric

/-- The word for a fault of a field. -/
def FieldFault.word : FieldFault → String
  | missing => "missing"
  | notObject => "model_type"
  | notText => "string_type"
  | notInteger => "int_type"
  | badInteger => "int_parsing"
  | oversizedInteger => "int_parsing_size"
  | fractional => "int_from_float"
  | notFinite => "finite_number"
  | notArray => "tuple_type"
  | notList => "list_type"
  | badLiteral => "literal_error"
  | badName => "enum"

/-- The path with points between its names, a colon and the word for the fault. -/
def FieldError.message (e : FieldError) : String := ".".intercalate e.path ++ ":" ++ e.fault.word

def JsonFault.message : JsonFault → String
  | expectingValue => "Expecting value"
  | expectingName => "Expecting property name enclosed in double quotes"
  | expectingColon => "Expecting ':' delimiter"
  | expectingComma => "Expecting ',' delimiter"
  | extraData => "Extra data"
  | controlCharacter => "Invalid control character at"
  | unterminatedString => "Unterminated string starting at"
  | badEscape => "Invalid \\escape"
  | badUnicodeEscape => "Invalid \\uXXXX escape"
  | byteOrderMark => "Unexpected UTF-8 BOM (decode using utf-8-sig)"

def JsonError.message (e : JsonError) : String :=
  e.fault.message ++ ": line " ++ Numeral.text e.line ++ " column " ++ Numeral.text e.column ++
    " (char " ++ Numeral.text e.offset ++ ")"

def TemplateFault.message : TemplateFault → String
  | tooFewArguments => "not enough arguments for format string"
  | argumentsLeft => "not all arguments converted during string formatting"
  | incomplete => "incomplete format"
  | unclosedKey => "incomplete format key"
  | needsMapping => "format requires a mapping"
  | missingKey shown => shown
  | badConversion conversion index =>
    let shown := if 31 ≤ conversion.toNat ∧ conversion.toNat ≤ 126 then conversion else '?'
    "unsupported format character '" ++ shown.toString ++ "' (0x" ++
      String.ofList ((Text.Hex.digits 6 conversion.toNat).dropWhile (· = '0')) ++ ") at index " ++
      Numeral.text index
  | needsNumber conversion kind =>
    "%" ++ conversion.toString ++ " format: a real number is required, not " ++ kind
  | needsInteger conversion kind =>
    "%" ++ conversion.toString ++ " format: an integer is required, not " ++ kind
  | needsFloat kind => "must be real number, not " ++ kind
  | needsCharacter => "%c requires int or char"
  | characterRange => "%c arg not in range(0x110000)"
  | starNeedsInteger => "* wants int"
  | widthTooBig => "width too big"
  | precisionTooBig => "precision too big"

/-- A text around integers, unless one of them is too long. -/
def withIntegers (ns : List Int) (text : List String → String) : Option String :=
  if ns.all Numeral.writable then some (text (ns.map Numeral.text)) else none

/-- **The wording of a failure.** -/
def Failure.message? : Failure → Option String
  | digitLimit => none
  | missingFile => none
  | directoryRead => none
  | fileOnPath => none
  | zeroInPath => some "embedded null byte"
  | unknownHome => some "Could not determine home directory."
  | nestingLimit inObject =>
    some ("maximum recursion depth exceeded while decoding a JSON " ++
      (if inObject then "object" else "array") ++ " from a unicode string")
  | levelLimit => some "Circular reference detected (depth exceeded)"
  | integerTooLargeForFloat => some "int too large to convert to float"
  | quotientTooLargeForFloat => some "integer division result too large for a float"
  | divisionByZero => some "division by zero"
  | floatDivisionByZero => some "float division by zero"
  | floorOfInfinity => some "cannot convert float infinity to integer"
  | floorOfNaN => some "cannot convert float NaN to integer"
  | notRegion shown => some ("Not a region spec: " ++ shown)
  | notSize shown => some ("Not a size spec: " ++ shown)
  | lacksMember kind member =>
    some ("'" ++ kind ++ "' object has no attribute '" ++ member ++ "'")
  | notPositive name value =>
    withIntegers [value] fun ns => name ++ " must be positive, got " ++ "".intercalate ns
  | emptyRegion width height =>
    withIntegers [width, height] fun ns =>
      "region dimensions must be positive, got " ++ "x".intercalate ns
  | emptyImage width height =>
    withIntegers [width, height] fun ns =>
      "width and height must be positive, got " ++ "x".intercalate ns
  | negativeTile column row =>
    withIntegers [column, row] fun ns =>
      "tile indices must be non-negative, got (" ++ ", ".intercalate ns ++ ")"
  | tileOutside column row width height =>
    withIntegers [column, row, width, height] fun ns =>
      "tile (" ++ ", ".intercalate (ns.take 2) ++ ") lies outside a " ++
        "x".intercalate (ns.drop 2) ++ " image"
  | badTileLayout => some "tile width and scale factors must be positive"
  | upscalingWithoutLimit => some "sizeUpscaling requires max_width or max_area"
  | unknownName vocabulary shown => some (shown ++ " is not a valid " ++ vocabulary)
  | unhashable kind => some ("unhashable type: '" ++ kind ++ "'")
  | misplacedBrackets => some "Invalid IPv6 URL"
  | notAddress host =>
    some (Text.Quoted.ofString host ++ " does not appear to be an IPv4 or IPv6 address")
  | shortAddressInBrackets => some "An IPv4 address cannot be in brackets"
  | badLaterAddress => some "IPvFuture address is invalid"
  | ambiguousAuthority authority =>
    some ("netloc '" ++ authority ++ "' contains invalid characters under NFKC normalization")
  | document errors => some ("; ".intercalate (errors.map FieldError.message))
  | json error => some error.message
  | template fault => some fault.message
  | unknownLogLevel => some "Unknown level"
  | unsuitableLogLevel => some "Level not an integer or a valid string"

end IiifRules
