import IiifRules.Vocabulary

/-! # Compliance levels and features

The words with which a service says what it can do. -/

namespace IiifRules

/-- A compliance level that a service declares. -/
inductive ComplianceLevel
  | level0
  | level1
  | level2
deriving DecidableEq, Repr

/-- A feature that a service offers beyond its level. -/
inductive Feature
  | baseUriRedirect
  | canonicalLinkHeader
  | cors
  | jsonldMediaType
  | mirroring
  | profileLinkHeader
  | regionByPct
  | regionByPx
  | regionSquare
  | rotationArbitrary
  | rotationBy90s
  | sizeByConfinedWh
  | sizeByH
  | sizeByPct
  | sizeByW
  | sizeByWh
  | sizeUpscaling
deriving DecidableEq, Repr

instance : Vocabulary ComplianceLevel where
  title := "ComplianceLevel"
  terms := [.level0, .level1, .level2]
  name
    | .level0 => "level0"
    | .level1 => "level1"
    | .level2 => "level2"

instance : Vocabulary Feature where
  title := "Feature"
  terms :=
    [.baseUriRedirect, .canonicalLinkHeader, .cors, .jsonldMediaType, .mirroring,
     .profileLinkHeader, .regionByPct, .regionByPx, .regionSquare, .rotationArbitrary,
     .rotationBy90s, .sizeByConfinedWh, .sizeByH, .sizeByPct, .sizeByW, .sizeByWh, .sizeUpscaling]
  name
    | .baseUriRedirect => "baseUriRedirect"
    | .canonicalLinkHeader => "canonicalLinkHeader"
    | .cors => "cors"
    | .jsonldMediaType => "jsonldMediaType"
    | .mirroring => "mirroring"
    | .profileLinkHeader => "profileLinkHeader"
    | .regionByPct => "regionByPct"
    | .regionByPx => "regionByPx"
    | .regionSquare => "regionSquare"
    | .rotationArbitrary => "rotationArbitrary"
    | .rotationBy90s => "rotationBy90s"
    | .sizeByConfinedWh => "sizeByConfinedWh"
    | .sizeByH => "sizeByH"
    | .sizeByPct => "sizeByPct"
    | .sizeByW => "sizeByW"
    | .sizeByWh => "sizeByWh"
    | .sizeUpscaling => "sizeUpscaling"

def ComplianceLevel.name (l : ComplianceLevel) : String := Vocabulary.name l
def Feature.name (f : Feature) : String := Vocabulary.name f

end IiifRules
