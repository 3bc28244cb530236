import IiifRules.Json.Display
import IiifRules.Vocabulary

/-! # Terms in JSON values

A term of a vocabulary is given by a text that is its name; no other value gives one. -/

namespace IiifRules.Json

variable {α : Type} [Vocabulary α]

/-- The term that a value gives. -/
def term? (α : Type) [Vocabulary α] : Json → Option α
  | .text s => Vocabulary.ofName? s
  | _ => none

/-- The term that a value has to give. -/
def requireTerm (v : Json) : Except Failure α :=
  match term? α v with
  | some t => .ok t
  | none => .error (.unknownName (Vocabulary.title α) v.quotedText)

end IiifRules.Json
