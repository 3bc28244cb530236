/-! # Vocabularies

A vocabulary is a closed set of terms, each written by its name.

* `Vocabulary.ofName?`: the term of a name; `ofName?_eq_some` says that it has that name. -/

namespace IiifRules

/-- A closed set of named terms, in a fixed order, under a title for messages. -/
class Vocabulary (α : Type) where
  title : String
  terms : List α
  name : α → String

namespace Vocabulary

variable {α : Type} [Vocabulary α]

/-- The term of a name. -/
def ofName? (s : String) : Option α := (terms : List α).find? fun t => name t == s

/-- Whether a text is the name of a term. -/
def isName (α : Type) [Vocabulary α] (s : String) : Bool := (ofName? s : Option α).isSome

/-- The names of all terms. -/
def names (α : Type) [Vocabulary α] : List String := (terms : List α).map name

theorem ofName?_eq_some {s : String} {t : α} (h : ofName? s = some t) : name t = s := by
  simpa using List.find?_some h

end Vocabulary

end IiifRules
