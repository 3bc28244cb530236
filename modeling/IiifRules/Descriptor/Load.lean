import IiifRules.Descriptor.Reader
import IiifRules.Json.Reader
import IiifRules.Text.Lines

/-! # Loading an image-information document

From the content of a file to a JSON value and on to a descriptor. -/

namespace IiifRules

/-- The JSON value in a file, of which the content is given unless there is no such file. -/
def loadJson : Option String → Except Failure Json
  | none => .error .missingFile
  | some content => Json.read (String.ofList (Text.unifyLineEnds content.toList))

/-- The descriptor in a file. -/
def loadDescriptor (content? : Option String) : Except Failure Descriptor := do
  Descriptor.ofJson (← loadJson content?)

end IiifRules
