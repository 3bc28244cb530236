import Mathlib
import IiifRules.Compliance.Terms
import IiifRules.Json.Basic
import IiifRules.Json.Term
import IiifRules.Segment.Terms

/-! # Texts and terms in JSON values

Which values are a given text, and which texts are the name of a term.

* `Vocabulary.Lawful`: a vocabulary in which every term has a name of its own; all vocabularies of
  documents are.
* `Vocabulary.isName_iff`: the names are those of the terms. -/

namespace IiifRules

theorem Json.isText_iff {v : Json} {s : String} : v.isText s = true ↔ v = .text s := by
  cases v with
  | text t => simp [isText]
  | _ => simp [isText]

namespace Vocabulary

variable {α : Type} [Vocabulary α]

/-- A vocabulary in which every term has a name of its own. -/
class Lawful (α : Type) [Vocabulary α] : Prop where
  ofName?_name : ∀ t : α, ofName? (name t) = some t

instance : Lawful ImageFormat := ⟨fun t => by cases t <;> decide⟩
instance : Lawful Quality := ⟨fun t => by cases t <;> decide⟩
instance : Lawful Feature := ⟨fun t => by cases t <;> decide⟩
instance : Lawful ComplianceLevel := ⟨fun t => by cases t <;> decide⟩

theorem isName_iff [Lawful α] {s : String} : isName α s = true ↔ ∃ t : α, name t = s := by
  rw [isName, Option.isSome_iff_exists]
  constructor
  · rintro ⟨t, ht⟩
    exact ⟨t, ofName?_eq_some ht⟩
  · rintro ⟨t, rfl⟩
    exact ⟨t, Lawful.ofName?_name t⟩

theorem name_inj [Lawful α] {t u : α} : name t = name u ↔ t = u := by
  constructor
  · intro h
    have := Lawful.ofName?_name t
    rw [h, Lawful.ofName?_name u] at this
    exact (Option.some.inj this).symm
  · rintro rfl
    rfl

end Vocabulary

theorem Json.term?_name {α : Type} [Vocabulary α] [Vocabulary.Lawful α] (t : α) :
    Json.term? α (.text (Vocabulary.name t)) = some t :=
  Vocabulary.Lawful.ofName?_name t

theorem Json.term?_eq_some {α : Type} [Vocabulary α] [Vocabulary.Lawful α] {v : Json} {t : α} :
    v.term? α = some t ↔ v = .text (Vocabulary.name t) := by
  constructor
  · intro h
    unfold term? at h
    split at h
    · rw [Vocabulary.ofName?_eq_some h]
    · cases h
  · rintro rfl
    exact term?_name t

end IiifRules
