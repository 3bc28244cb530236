import IiifRules.Descriptor.Basic

/-! # What the levels require

The requirements of each compliance level, in the order in which a report lists them, and what a
service supports: the requirements of the level it declares together with what it offers beyond.

* `ComplianceLevel.features`, `formats`, `qualities`: the tables. A level's table is written out and
  not derived from the level below.
* `Descriptor.hasFeature`, `hasFormat`, `hasQuality`: what a service supports, as predicates. -/

namespace IiifRules

namespace ComplianceLevel

/-- The features that a level requires. -/
def features : ComplianceLevel → List Feature
  | level0 => []
  | level1 => [.regionByPx, .regionSquare, .sizeByW, .sizeByH, .sizeByWh]
  | level2 =>
    [.regionByPct, .regionByPx, .regionSquare, .sizeByConfinedWh, .sizeByH, .sizeByPct, .sizeByW,
     .sizeByWh, .rotationBy90s]

def formats : ComplianceLevel → List ImageFormat
  | level0 => [.jpg]
  | level1 => [.jpg]
  | level2 => [.jpg, .png]

def qualities : ComplianceLevel → List Quality
  | level0 => [.default]
  | level1 => [.default]
  | level2 => [.default, .color, .gray, .bitonal]

/-- The URI of the document that defines a level. -/
def uri (l : ComplianceLevel) : String := "http://iiif.io/api/image/3/" ++ l.name ++ ".json"

end ComplianceLevel

namespace Descriptor

/-- Whether the service has a feature. -/
def hasFeature (d : Descriptor) (f : Feature) : Bool :=
  d.profile.features.contains f || d.extraFeatures.contains f

def hasFormat (d : Descriptor) (f : ImageFormat) : Bool :=
  d.profile.formats.contains f || d.extraFormats.contains f

def hasQuality (d : Descriptor) (q : Quality) : Bool :=
  d.profile.qualities.contains q || d.extraQualities.contains q

/-- The features of the service in the order of their vocabulary. -/
def features (d : Descriptor) : List Feature := Vocabulary.terms.filter d.hasFeature

def formats (d : Descriptor) : List ImageFormat := Vocabulary.terms.filter d.hasFormat

def qualities (d : Descriptor) : List Quality := Vocabulary.terms.filter d.hasQuality

end Descriptor

/-- What a service lacks to comply with a level, each list in the order of the level's table. -/
structure ComplianceReport where
  missingFeatures : List Feature
  missingFormats : List ImageFormat
  missingQualities : List Quality
deriving DecidableEq, Repr

/-- Whether nothing is lacking. -/
def ComplianceReport.compliant (r : ComplianceReport) : Bool :=
  r.missingFeatures.isEmpty && r.missingFormats.isEmpty && r.missingQualities.isEmpty

/-- **What a service lacks** to comply with a level. -/
def Descriptor.checkLevel (d : Descriptor) (level : ComplianceLevel) : ComplianceReport where
  missingFeatures := level.features.filter fun f => !d.hasFeature f
  missingFormats := level.formats.filter fun f => !d.hasFormat f
  missingQualities := level.qualities.filter fun q => !d.hasQuality q

namespace ImageFormat

def mediaType : ImageFormat → String
  | jpg => "image/jpeg"
  | tif => "image/tiff"
  | png => "image/png"
  | gif => "image/gif"
  | jp2 => "image/jp2"
  | pdf => "application/pdf"
  | webp => "image/webp"

def ofMediaType? (mediaType : String) : Option ImageFormat :=
  Vocabulary.terms.find? fun f : ImageFormat => f.mediaType == mediaType

end ImageFormat

end IiifRules
