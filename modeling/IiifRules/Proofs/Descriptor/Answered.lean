import Mathlib
import IiifRules.Compliance.Generate
import IiifRules.Descriptor.Shape
import IiifRules.Proofs.Json.Term
import IiifRules.Proofs.Uri.Authority

/-! # Values on which there is an answer

Documents and service references come from elsewhere, so that any member may hold any value. The
check of the shape answers on all of them but those with an id of which the authority cannot be
read, and the test for a service reference on all but those with an array or an object for a
profile.

* `Shape.exists_checkId_iff`: the id is the only member that can be without an answer.
* `isServiceReference_eq_ok_true`: which values are service references.
* `exists_answer_iff`: which values have no answer. -/

namespace IiifRules

open Json (Members get?)

/-! ### The shape -/

namespace Shape

variable {ms : Members}

/-- **The check of the id answers** unless it is a text of which the authority cannot be read. -/
theorem exists_checkId_iff : (∃ r, checkId ms = .ok r) ↔
    ∀ s, get? ms "id" = some (.text s) → Uri.Readable s := by
  unfold checkId given?
  cases get? ms "id" with
  | none => exact ⟨fun _ => nofun, fun _ => ⟨_, rfl⟩⟩
  | some v =>
    cases v with
    | text s =>
      simp only [Option.some.injEq, Json.text.injEq, forall_eq', ← Uri.exists_hasHttpAuthority_iff]
      by_cases hs : s = ""
      · -- An empty text has no authority.
        subst hs
        exact ⟨fun _ => ⟨_, rfl⟩, fun _ => ⟨_, rfl⟩⟩
      · simp only [hs, if_false]
        constructor
        · rintro ⟨r, hr⟩
          obtain ⟨http, hhttp, -⟩ := Outcome.bind_eq_ok.mp hr
          exact ⟨http, hhttp⟩
        · rintro ⟨http, hhttp⟩
          rw [hhttp, Outcome.ok_bind]
          split_ifs
          · exact ⟨_, rfl⟩
          · exact ⟨_, rfl⟩
          · exact ⟨_, rfl⟩
    | _ => exact ⟨fun _ => nofun, fun _ => ⟨_, rfl⟩⟩

/-- **The check of the other members** always answers. -/
theorem exists_checkMembers_iff : (∃ r, checkMembers ms = .ok r) ↔ ∃ r, checkId ms = .ok r := by
  constructor
  · rintro ⟨r, hr⟩
    obtain ⟨id, hid, -⟩ := Outcome.bind_eq_ok.mp hr
    exact ⟨id, hid⟩
  · rintro ⟨id, hid⟩
    exact ⟨_, Outcome.bind_eq_ok.mpr ⟨id, hid, rfl⟩⟩

end Shape

/-! ### Service references -/

/-- Members of a service: a text for an id, and the type of an image service. -/
structure NamesService (ms : Members) : Prop where
  id : ∃ s, get? ms "id" = some (.text s)
  type : get? ms "type" = some (.text imageServiceType)

/-- An array or an object. -/
def Json.IsContainer (v : Json) : Prop := (∃ vs, v = .array vs) ∨ ∃ ms, v = .object ms

variable {ms : Members} {v : Json} {b : Bool}

theorem isServiceReference_of_names (h : NamesService ms) :
    isServiceReference (.object ms) = isLevelName (get? ms "profile") := by
  obtain ⟨s, hs⟩ := h.id
  rw [isServiceReference, hs, h.type]
  exact if_pos (by simp [Json.isText])

/-- **What does not name a service** is no reference, whatever its profile. -/
theorem isServiceReference_of_not_names (h : ¬NamesService ms) :
    isServiceReference (.object ms) = .ok false := by
  unfold isServiceReference
  dsimp only
  split
  · rename_i s hs
    refine if_neg fun htype => h ⟨⟨s, hs⟩, ?_⟩
    obtain ⟨v, hv, htext⟩ := (Option.any_eq_true _ _).mp htype
    rw [hv, Json.isText_iff.mp htext]
  · rfl

theorem exists_isLevelName_iff {p? : Option Json} :
    (∃ b, isLevelName p? = .ok b) ↔ ∀ p, p? = some p → ¬p.IsContainer := by
  unfold isLevelName Json.IsContainer
  split
  · simp
  · simp
  · simp
  · rename_i harray hobject
    refine ⟨fun _ p hp => ?_, fun _ => ⟨_, rfl⟩⟩
    rintro (⟨vs, rfl⟩ | ⟨ms, rfl⟩)
    · exact harray vs hp
    · exact hobject ms hp

theorem isLevelName_eq_ok_true {p? : Option Json} : isLevelName p? = .ok true ↔
    ∃ level : ComplianceLevel, p? = some (.text level.name) := by
  unfold isLevelName
  split
  · rename_i s
    simp only [Except.ok.injEq, Vocabulary.isName_iff, Option.some.injEq, Json.text.injEq]
    exact exists_congr fun level => eq_comm
  · simp
  · simp
  · rename_i htext _ _
    simp only [Except.ok.injEq, Bool.false_eq_true, false_iff]
    rintro ⟨level, rfl⟩
    exact htext _ rfl

/-- **A service reference** is an object that names a service and a level. -/
theorem isServiceReference_eq_ok_true : isServiceReference v = .ok true ↔
    ∃ ms, v = .object ms ∧ NamesService ms ∧
      ∃ level : ComplianceLevel, get? ms "profile" = some (.text level.name) := by
  cases v with
  | object ms =>
    simp only [Json.object.injEq, exists_eq_left']
    by_cases h : NamesService ms
    · rw [isServiceReference_of_names h, isLevelName_eq_ok_true]
      exact (and_iff_right h).symm
    · simp [isServiceReference_of_not_names h, h]
  | _ => simp [isServiceReference]

theorem exists_isServiceReference_iff : (∃ b, isServiceReference v = .ok b) ↔
    ∀ ms p, v = .object ms → NamesService ms → get? ms "profile" = some p → ¬p.IsContainer := by
  cases v with
  | object ms =>
    simp only [Json.object.injEq]
    by_cases h : NamesService ms
    · rw [isServiceReference_of_names h, exists_isLevelName_iff]
      exact ⟨fun hp _ p hms _ => hms ▸ hp p, fun hp p => hp ms p rfl h⟩
    · rw [isServiceReference_of_not_names h]
      exact ⟨fun _ _ _ hms hnames => absurd (hms ▸ hnames) h, fun _ => ⟨_, rfl⟩⟩
  | _ => exact ⟨fun _ => nofun, fun _ => ⟨_, rfl⟩⟩

/-! ### Both questions -/

/-- **Which values have no answer.** The shape of a value is judged unless it is an object with a
text for an id of which the authority cannot be read; whether a value is a service reference is told
unless it names a service and its profile is an array or an object, and it is one exactly if it
names a service and a level. -/
theorem exists_answer_iff (v : Json) :
    ((∃ r, Shape.check v = .ok r) ↔
      ∀ ms s, v = .object ms → get? ms "id" = some (.text s) → Uri.Readable s) ∧
    ((∃ b, isServiceReference v = .ok b) ↔
      ∀ ms p, v = .object ms → NamesService ms → get? ms "profile" = some p → ¬p.IsContainer) ∧
    (isServiceReference v = .ok true ↔ ∃ ms, v = .object ms ∧ NamesService ms ∧
      ∃ level : ComplianceLevel, get? ms "profile" = some (.text level.name)) := by
  refine ⟨?_, exists_isServiceReference_iff, isServiceReference_eq_ok_true⟩
  cases v with
  | object ms =>
    have hcheck : (∃ r, Shape.check (.object ms) = .ok r) ↔
        ∀ s, get? ms "id" = some (.text s) → Uri.Readable s :=
      Shape.exists_checkMembers_iff.trans Shape.exists_checkId_iff
    rw [hcheck]
    simp only [Json.object.injEq]
    exact ⟨fun h _ s hms => hms ▸ h s, fun h s => h ms s rfl⟩
  | _ => exact ⟨fun _ => nofun, fun _ => ⟨_, rfl⟩⟩

/-- An id with an open bracket is not judged, and a service with a list of profiles is neither told
to be a reference nor to be none. -/
theorem not_forall_exists_answer :
    (¬∀ v, ∃ r, Shape.check v = .ok r) ∧ ¬∀ v, ∃ b, isServiceReference v = .ok b := by
  constructor
  · intro h
    obtain ⟨r, hr⟩ := h (.object [("@context", .text imageContext), ("id", .text "http://[::1"),
      ("type", .text imageServiceType), ("protocol", .text imageProtocol),
      ("profile", .text "level2"), ("width", .int 4000), ("height", .int 3000)])
    have hfailure : Uri.hasHttpAuthority "http://[::1" = .error .misplacedBrackets := by
      decide +kernel
    obtain ⟨id, hid, -⟩ := Outcome.bind_eq_ok.mp hr
    obtain ⟨http, hhttp, -⟩ := Outcome.bind_eq_ok.mp hid
    cases hfailure.symm.trans hhttp
  · intro h
    obtain ⟨b, hb⟩ := h (.object [("id", .text "x"), ("type", .text imageServiceType),
      ("profile", .array [.text "level1"])])
    have hfailure : isServiceReference (.object [("id", .text "x"),
        ("type", .text imageServiceType), ("profile", .array [.text "level1"])]) =
        .error (.unhashable "list") := by
      decide +kernel
    cases hfailure.symm.trans hb

end IiifRules
