import IiifRules.Request.Check
import IiifRules.Text.Fields

/-! # Image request URIs and information URIs

An image request URI is the base URI of a service followed by the path of a request; an information
URI is the base URI followed by `info.json`. Slashes at the end of a base are left out.

* `ImageUri.parse`: takes an image request URI apart; segments are not read.
* `buildImageUri`, `buildInfoUri`: put URIs together.
* `parseInfoUri`: the base of an information URI. -/

namespace IiifRules

open Text

/-- The parts of an image request URI. -/
structure ImageUri where
  base : String
  identifier : String
  region : String
  size : String
  rotation : String
  quality : String
  format : String
deriving DecidableEq, Repr

def ImageUri.request (u : ImageUri) : Request :=
  .ofTexts u.region u.size u.rotation u.quality u.format

namespace Uri

/-- A base URI without slashes at its end. -/
def trimBase (base : String) : String := String.ofList (dropEnd (· = '/') base.toList)

/-- The scheme of an absolute URI under `http` or `https`, and what follows the two slashes. -/
def httpRest? (cs : List Char) : Option (List Char × List Char) :=
  match after? "http://".toList cs, after? "https://".toList cs with
  | some rest, _ => some ("http".toList, rest)
  | none, some rest => some ("https".toList, rest)
  | none, none => none

/-- The scheme and the segments of an absolute URI without query and fragment: a host and at least
`count` segments of its path, none of them empty. -/
def splitSegments (count : Nat) (cs : List Char) :
    Except GrammarReason (List Char × List (List Char)) :=
  match httpRest? cs with
  | none => .error .notHttp
  | some (scheme, rest) =>
    let segments := fields '/' rest
    if rest.contains '?' || rest.contains '#' then .error .queryOrFragment
    else if segments.length < count + 1 then .error .fewSegments
    else if segments.any List.isEmpty then .error .emptySegment
    else .ok (scheme, segments)

def joinSegments (scheme : List Char) (segments : List (List Char)) : String :=
  String.ofList (scheme ++ "://".toList ++ join '/' segments)

/-- Quality and format around the only point of a segment. -/
def splitLast? (segment : List Char) : Option (List Char × List Char) :=
  match cut '.' segment with
  | (quality, some format) =>
    if quality.isEmpty || format.isEmpty || format.contains '.' then none
    else some (quality, format)
  | (_, none) => none

/-- The parts of a list of segments that ends with those of a request. -/
def partsOfSegments (scheme : List Char) (segments : List (List Char)) :
    Except GrammarReason ImageUri :=
  match segments.reverse with
  | last :: rotation :: size :: region :: identifier :: front =>
    match splitLast? last with
    | some (quality, format) =>
      .ok
        { base := joinSegments scheme (identifier :: front).reverse
          identifier := String.ofList identifier
          region := String.ofList region
          size := String.ofList size
          rotation := String.ofList rotation
          quality := String.ofList quality
          format := String.ofList format }
    | none => .error (.lastSegment (String.ofList last))
  | _ => .error .fewSegments

end Uri

/-- **Takes an image request URI apart.** -/
def ImageUri.parse (uri : String) : Parsed ImageUri :=
  match Uri.splitSegments 5 uri.toList with
  | .error reason => .error ⟨.imageUri, uri, some reason⟩
  | .ok (scheme, segments) =>
    (Uri.partsOfSegments scheme segments).mapError fun reason => ⟨.imageUri, uri, some reason⟩

/-- **The base of an information URI.** -/
def parseInfoUri (uri : String) : Parsed String :=
  match Uri.splitSegments 2 uri.toList with
  | .error reason => .error ⟨.infoUri, uri, some reason⟩
  | .ok (scheme, segments) =>
    if segments.getLast? = some "info.json".toList then
      .ok (Uri.joinSegments scheme segments.dropLast)
    else .error ⟨.infoUri, uri, none⟩

/-- **The URI of a request** at a service. -/
def buildImageUri (base : String) (r : Request) : Except Failure String := do
  return Uri.trimBase base ++ "/" ++ (← r.path)

/-- **The URI of a service's information.** -/
def buildInfoUri (base : String) : String := Uri.trimBase base ++ "/info.json"

end IiifRules
