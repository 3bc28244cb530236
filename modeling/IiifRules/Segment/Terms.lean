import IiifRules.Vocabulary

/-! # Qualities and formats

The two segments of an image request that are words of a vocabulary. -/

namespace IiifRules

/-- The quality of a delivered image. -/
inductive Quality
  | default
  | color
  | gray
  | bitonal
deriving DecidableEq, Repr

/-- The file format of a delivered image. -/
inductive ImageFormat
  | jpg
  | tif
  | png
  | gif
  | jp2
  | pdf
  | webp
deriving DecidableEq, Repr

instance : Vocabulary Quality where
  title := "Quality"
  terms := [.default, .color, .gray, .bitonal]
  name
    | .default => "default"
    | .color => "color"
    | .gray => "gray"
    | .bitonal => "bitonal"

instance : Vocabulary ImageFormat where
  title := "ImageFormat"
  terms := [.jpg, .tif, .png, .gif, .jp2, .pdf, .webp]
  name
    | .jpg => "jpg"
    | .tif => "tif"
    | .png => "png"
    | .gif => "gif"
    | .jp2 => "jp2"
    | .pdf => "pdf"
    | .webp => "webp"

def Quality.name (q : Quality) : String := Vocabulary.name q
def ImageFormat.name (f : ImageFormat) : String := Vocabulary.name f

end IiifRules
