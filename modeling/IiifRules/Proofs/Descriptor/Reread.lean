import Mathlib
import IiifRules.Proofs.Descriptor.Writer

/-! # Reading a written document once more

A field has at most one value, but a document may give it under two names; the member under the
second name is then kept among those that the Image API does not name. Writing leaves out nulls and
empty lists. If that is what stood under the first name, the second one comes to the fore, and the
document that was written is read as something else. Nothing else is lost but an empty context.

* `FieldName.exists_of_mem_entries`: where an entry was read from.
* `Descriptor.has_own_of_rewritten`, `Descriptor.has_context_of_rewritten`: what is written as
  before gives a context, and no second name without the first one.
* `Descriptor.rewritten_iff`: such documents are written as before, if they are written at all. -/

namespace IiifRules

open Json (Members get? has)

/-! ### Values of standard JSON -/

/-- **Where an entry was read from**: an item of an array under the name of the field. -/
theorem FieldName.exists_of_mem_entries {α : Type} {f : FieldName} {ms : Members} {as : List α}
    {read : Json → Checked α} (h : f.withDefault ms [] (Checked.array read) = .ok as) {a : α}
    (ha : a ∈ as) : ∃ name vs, (name, .array vs) ∈ ms ∧ ∃ v ∈ vs, read v = .ok a := by
  unfold withDefault at h
  split at h
  · rename_i name v hfind
    obtain ⟨name', hused, hv⟩ := Option.bind_eq_some_iff.mp hfind
    obtain ⟨v', hget, hpair⟩ := Option.bind_eq_some_iff.mp hv
    cases hpair
    have hread := Checked.under_eq_ok.mp h
    cases v with
    | array vs =>
      exact ⟨name, vs, Json.mem_of_get? hget,
        Outcome.exists_of_forall₂ (Checked.forall₂_of_array hread) ha⟩
    | _ => cases hread
  · cases h
    cases ha

theorem isNonFinite_of_isStandard {fields : List FieldName} {ms : Members}
    (h : (Json.object ms).IsStandard) : ∀ m ∈ extrasOf fields ms, m.2.isNonFinite = false :=
  isNonFinite_of_mem_extrasOf fun m hm => (Json.isStandard_object_iff.mp h m hm).isNonFinite

theorem SizeEntry.toJson_settled_of_isStandard {v : Json} {s : SizeEntry} (hv : v.IsStandard)
    (hread : ofJson v = .ok s) : s.settled.toJson = s.toJson := by
  obtain ⟨es, rfl, hfields⟩ := fields_of_ofJson hread
  exact toJson_settled (hfields.extras ▸ isNonFinite_of_isStandard hv)

theorem TileEntry.toJson_settled_of_isStandard {v : Json} {t : TileEntry} (hv : v.IsStandard)
    (hread : ofJson v = .ok t) : t.settled.toJson = t.toJson := by
  obtain ⟨es, rfl, hfields⟩ := fields_of_ofJson hread
  exact toJson_settled (hfields.extras ▸ isNonFinite_of_isStandard hv)

namespace Descriptor

variable {ms : Members} {d d' : Descriptor}

/-- **A descriptor of a standard document**, once written, is written as before. -/
theorem toJson_settled_of_isStandard (hms : (Json.object ms).IsStandard) (h : Fields ms d) :
    d.settled.toJson = d.toJson := by
  have hitem : ∀ {name vs v}, (name, Json.array vs) ∈ ms → v ∈ vs → v.IsStandard :=
    fun hm hv => Json.isStandard_array_iff.mp (Json.isStandard_object_iff.mp hms _ hm) _ hv
  refine toJson_settled (fun s hs => ?_) (fun t ht => ?_)
    (h.extras ▸ isNonFinite_of_isStandard hms)
  · obtain ⟨_, _, hm, v, hv, hread⟩ := FieldName.exists_of_mem_entries h.sizes hs
    exact SizeEntry.toJson_settled_of_isStandard (hitem hm hv) hread
  · obtain ⟨_, _, hm, v, hv, hread⟩ := FieldName.exists_of_mem_entries h.tiles ht
    exact TileEntry.toJson_settled_of_isStandard (hitem hm hv) hread

/-! ### Names in a written document -/

theorem own_ne_of_mem_writtenExtras (h : Fields ms d) :
    ∀ m ∈ d.writtenExtras, ∀ f ∈ Field.ofDocument, m.1 ≠ f.own := by
  intro m hm f hf
  obtain ⟨m', hm', hname⟩ := exists_of_mem_writtenExtras m hm
  rw [← h.extras] at hm'
  exact hname ▸ (mem_extrasOf hm' f hf).1

theorem get?_toMembers_own (h : Fields ms d) {f : FieldName} (hf : f ∈ Field.ofDocument) :
    get? d.toMembers f.own = get? (Json.present d.ownFields) f.own := by
  have hnone : get? d.writtenExtras f.own = none :=
    Json.get?_eq_none_iff.mpr fun m hm => own_ne_of_mem_writtenExtras h m hm f hf
  rw [toMembers_eq, Json.get?_append, hnone, Option.or_none]

/-- **What stands beside the fields** does so if no second name is without the first one. -/
theorem beside_of_names (h : Fields ms d) (hnames : ∀ f ∈ Field.ofDocument,
      has d.toMembers f.second = true → has d.toMembers f.own = true) :
    FieldName.Beside Field.ofDocument (Json.present d.ownFields) d.writtenExtras where
  named := FieldName.exists_of_mem_present (List.Subset.refl _)
  own_ne := own_ne_of_mem_writtenExtras h
  of_second m hm f hf heq := by
    have hsecond : has d.toMembers f.second = true := by
      rw [toMembers_eq]
      exact Json.has_iff.mpr ⟨m, List.mem_append_right _ hm, heq⟩
    have hown := hnames f hf hsecond
    rwa [has, get?_toMembers_own h hf] at hown

theorem has_context_iff (h : Fields ms d) :
    has d.toMembers "@context" = true ↔ ∀ items, d.context = .list items → items ≠ [] := by
  have hget : get? d.toMembers "@context" = d.context.toJson.unlessEmpty :=
    (get?_toMembers_own h (f := Field.context) (by simp [Field.ofDocument])).trans get?_ownFields
  rw [has, hget]
  cases d.context with
  | uri s => simp [Context.toJson, Json.unlessEmpty, Json.isEmptyArray]
  | list items =>
    rw [Context.toJson, Json.unlessEmpty_array, Json.standardItems_eq_map]
    by_cases hitems : items = []
    · simp [hitems]
    · simp [hitems]

/-- A written document gives a context, and no field under its second name alone. -/
structure GivesFirstNames (ms : Members) : Prop where
  context : has ms "@context" = true
  own : ∀ f ∈ Field.ofDocument, has ms f.second = true → has ms f.own = true

/-- **What is written as before** gives no second name without the first one. -/
theorem has_own_of_rewritten (h : Fields d'.toMembers d') : ∀ f ∈ Field.ofDocument,
    has d'.toMembers f.second = true → has d'.toMembers f.own = true := by
  intro f hf hsecond
  have hsecond' := hsecond
  rw [toMembers_eq] at hsecond'
  obtain ⟨m, hm, hname⟩ := Json.has_iff.mp hsecond'
  rcases List.mem_append.mp hm with hm | hm
  · -- The second name of a field is the first one of no other.
    have hnames : d'.ownFields.map Prod.fst ⊆ Field.ofDocument.map FieldName.own :=
      List.Subset.refl _
    obtain ⟨g, hg, hown⟩ := FieldName.exists_of_mem_present hnames m hm
    rwa [distinct_ofDocument f hf g hg (hown.symm.trans hname)]
  · -- A member that is left over is left over by this field as well.
    obtain ⟨m', hm', hname'⟩ := exists_of_mem_writtenExtras m hm
    rw [← h.extras] at hm'
    exact (mem_extrasOf hm' f hf).2 (hname'.trans hname)

/-- **It gives a context**: one that is not given would have been read as that of the Image API. -/
theorem has_context_of_rewritten (h : Fields d'.toMembers d') :
    has d'.toMembers "@context" = true := by
  have howns : Field.context.OwnOnly d'.toMembers :=
    FieldName.ownOnly_of_second (has_own_of_rewritten h Field.context (by simp [Field.ofDocument]))
  by_contra hown
  have hnone : get? d'.toMembers "@context" = none := by simpa [has] using hown
  have hcontext := (howns.withDefault_iff.mp h.context).2 hnone
  exact hown ((has_context_iff h).mpr (by simp [← hcontext]))

theorem GivesFirstNames.of_rewritten (h : Fields d'.toMembers d') : GivesFirstNames d'.toMembers :=
  ⟨has_context_of_rewritten h, has_own_of_rewritten h⟩

/-- **Such a document is read** as the descriptor that was written. -/
theorem GivesFirstNames.ofJson_toJson (h : Fields ms d) (hnames : GivesFirstNames d.toMembers) :
    ofJson d.toJson = .ok d.settled := by
  refine Descriptor.ofJson_toJson (beside_of_names h hnames.own)
    ((has_context_iff h).mp hnames.context) (fun s hs => ?_) fun t ht => ?_
  · obtain ⟨_, _, _, v, _, hs⟩ := FieldName.exists_of_mem_entries h.sizes hs
    exact SizeEntry.ofJson_toJson (SizeEntry.beside_of_ofJson hs)
  · obtain ⟨_, _, _, v, _, ht⟩ := FieldName.exists_of_mem_entries h.tiles ht
    exact TileEntry.ofJson_toJson (TileEntry.beside_of_ofJson ht)

/-- **Which documents are written as before when they are read once more.** What a document of
standard JSON is written as is read again, and written as before, exactly if it gives a context and
no field under its second name alone. It is written at all, then as before, exactly if no value that
no field describes has too many levels. -/
theorem rewritten_iff {v : Json} (hv : v.IsStandard) (hread : ofJson v = .ok d) :
    ((∃ d', ofJson d.toJson = .ok d' ∧ d'.toJson = d.toJson) ↔ GivesFirstNames d.toMembers) ∧
      ((∃ y d', d.write = .ok y ∧ ofJson y = .ok d' ∧ d'.write = .ok y) ↔
        GivesFirstNames d.toMembers ∧ ∀ w ∈ d.undescribed, w.levels ≤ levelLimit) := by
  obtain ⟨ms, rfl, h⟩ := fields_of_ofJson hread
  have hsame : d.settled.toJson = d.toJson := toJson_settled_of_isStandard hv h
  have hnames : ∀ {d'}, ofJson d.toJson = .ok d' → d'.toJson = d.toJson →
      GivesFirstNames d.toMembers := by
    intro d' hread' hsame'
    obtain ⟨ms', hms', h'⟩ := fields_of_ofJson hread'
    injection hms' with hms'
    injection hsame' with hsame'
    rw [← hms', ← hsame'] at h'
    exact hsame' ▸ .of_rewritten h'
  refine ⟨⟨fun ⟨d', hread', hsame'⟩ => hnames hread' hsame',
    fun hd => ⟨d.settled, hd.ofJson_toJson h, hsame⟩⟩, ?_⟩
  constructor
  · rintro ⟨y, d', hy, hread', hy'⟩
    obtain ⟨hlevels, rfl⟩ := write_eq_ok_iff.mp hy
    exact ⟨hnames hread' (write_eq_ok_iff.mp hy').2, hlevels⟩
  · rintro ⟨hd, hlevels⟩
    exact ⟨_, d.settled, write_eq_ok_iff.mpr ⟨hlevels, rfl⟩, hd.ofJson_toJson h,
      write_eq_ok_iff.mpr ⟨levels_le_settled hlevels, hsame⟩⟩

/-- Limits and lists under their second names, members of no field, and an entry with its type. -/
def secondNamed : Json := .object
  [("context", .array [.object [("service", .null)], .text imageContext]),
   ("id", .text "https://example.org/iiif/1"), ("profile", .text "level1"),
   ("service", .array [.object [("profile", .null), ("extra_features", .array [])]]),
   ("width", .text "4_000"), ("height", .bool true), ("max_width", .int 2000), ("maxArea", .null),
   ("sizes", .array [.object [("height", .int 1), ("type", .text "Size"), ("width", .int 400),
     ("label", .text "small")]]),
   ("tiles", .array [.object [("width", .int 256), ("scale_factors", .array [.int 1, .int 2])]]),
   ("extra_features", .array [.text "rotationArbitrary", .text "noSuchFeature"])]

/-- All of it is given under the first names once it is written. -/
theorem rewritten_iff_of_second_names : secondNamed.IsStandard ∧ ∃ d y d',
    ofJson secondNamed = .ok d ∧ d.write = .ok y ∧ ofJson y = .ok d' ∧ d'.write = .ok y := by
  have hjson : secondNamed.IsStandard := by
    simp [secondNamed, Json.IsStandard, Json.standard, Json.standardItems, Json.standardMembers]
  obtain ⟨d, hread, hnames, hlevels⟩ : ∃ d, ofJson secondNamed = .ok d ∧
      GivesFirstNames d.toMembers ∧ ∀ w ∈ d.undescribed, w.levels ≤ levelLimit :=
    ⟨_, rfl, ⟨by decide +kernel, by decide +kernel⟩, by decide +kernel⟩
  obtain ⟨y, d', hwritten⟩ := (rewritten_iff hjson hread).2.mpr ⟨hnames, hlevels⟩
  exact ⟨hjson, d, y, d', hread, hwritten⟩

/-- Null under the first name of a limit, and a number under the second one. -/
def nullLimited : Json := .object
  [("id", .text "https://example.org/iiif/1"), ("profile", .text "level0"), ("width", .int 1),
   ("height", .int 1), ("maxWidth", .null), ("max_width", .int 5)]

/-- What it is read as: the number is left over. -/
def unlimited : Descriptor where
  context := .uri imageContext
  id := "https://example.org/iiif/1"
  profile := .level0
  width := 1
  height := 1
  maxWidth := none
  maxHeight := none
  maxArea := none
  sizes := []
  tiles := []
  preferredFormats := []
  rights := none
  extraFeatures := []
  extraFormats := []
  extraQualities := []
  extras := [("max_width", .int 5)]

/-- Null is left out when it is written, and the second name then gives the limit. -/
theorem not_rewritten_of_null : ¬∀ (v : Json) (d : Descriptor), v.IsStandard → ofJson v = .ok d →
    ∃ d', ofJson d.toJson = .ok d' ∧ d'.toJson = d.toJson := by
  intro h
  have hjson : nullLimited.IsStandard := by
    simp [nullLimited, Json.IsStandard, Json.standard, Json.standardMembers]
  have hreread : ofJson unlimited.toJson =
      .ok { unlimited with maxWidth := some 5, extras := [] } := by rfl
  obtain ⟨d', hread', hsame⟩ := h nullLimited unlimited hjson (by rfl)
  cases hreread.symm.trans hread'
  have hmembers := congrArg (has · "max_width") (Json.object.inj hsame)
  revert hmembers
  decide

end Descriptor

end IiifRules
