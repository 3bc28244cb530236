import Mathlib
import IiifRules.Descriptor.Reader
import IiifRules.Proofs.Outcome

/-! # What a document that is read says

A document is read without a fault exactly if each field is, so that every field of the descriptor
is what its reader gives.

* `Checked.supply_eq_ok`, `Checked.all_eq_ok`: values without a fault are put together from values
  without a fault.
* `FieldName.required_of_get?`, `FieldName.withDefault_of_get?`: a field that is given under its own
  name.
* `FieldName.OwnOnly`: a field that is given under no other name.
* `Descriptor.fields_of_ofMembers`, `SizeEntry.fields_of_ofJson`, `TileEntry.fields_of_ofJson`: the
  fields of a document and of an entry of `sizes` or `tiles`; the `ofJson_of_fields` of each is the
  converse. -/

namespace IiifRules

/-! ### Values without a fault -/

namespace Checked

variable {α β : Type}

/-- **A value is supplied without a fault** if neither part has one. -/
theorem supply_eq_ok {x : Checked α} {f : Checked (α → β)} {b : β} :
    supply x f = .ok b ↔ ∃ g a, f = .ok g ∧ x = .ok a ∧ g a = b := by
  unfold supply
  constructor
  · intro h
    cases f with
    | ok g =>
      cases x with
      | ok a =>
        injection h with h
        exact ⟨g, a, rfl, rfl, h⟩
      | error es => cases h
    | error es => cases x <;> cases h
  · rintro ⟨g, a, rfl, rfl, rfl⟩
    rfl

theorem under_eq_ok {name : String} {x : Checked α} {a : α} : under name x = .ok a ↔ x = .ok a := by
  cases x with
  | ok a' => rfl
  | error es =>
    constructor
    · intro h; cases h
    · intro h; cases h

theorem text_eq_ok {v : Json} {s : String} : text v = .ok s ↔ v = .text s := by
  cases v with
  | text t => simp [text]
  | _ => simp [text, fault]

theorem integer_int (n : ℤ) : integer (.int n) = .ok n := rfl

/-- **Every value of a list is read**, in order. -/
theorem forall₂_of_all {read : Json → Checked α} {i : ℕ} {vs : List Json} {as : List α}
    (h : all read i vs = .ok as) : List.Forall₂ (fun v a => read v = .ok a) vs as := by
  induction vs generalizing i as with
  | nil => cases h; exact .nil
  | cons v vs ih =>
    obtain ⟨g, rest, hg, hrest, rfl⟩ := supply_eq_ok.mp h
    obtain ⟨a, ha, rfl⟩ := Outcome.map_eq_ok.mp hg
    exact .cons (under_eq_ok.mp ha) (ih hrest)

theorem forall₂_of_array {read : Json → Checked α} {vs : List Json} {as : List α}
    (h : array read (.array vs) = .ok as) : List.Forall₂ (fun v a => read v = .ok a) vs as :=
  forall₂_of_all h

end Checked

/-! ### Fields under their own names -/

namespace FieldName

variable {α : Type} {f : FieldName} {ms : Json.Members} {v : Json} {a : α} {read : Json → Checked α}

theorem find?_of_get? (h : Json.get? ms f.own = some v) : f.find? ms = some (f.own, v) := by
  have hused : f.used? ms = some f.own := by
    unfold used? Json.has
    rw [h]
    rfl
  unfold find?
  rw [hused]
  show (Json.get? ms f.own).bind _ = _
  rw [h]
  rfl

theorem required_of_get? (h : Json.get? ms f.own = some v) :
    f.required ms read = .ok a ↔ read v = .ok a := by
  unfold required
  rw [find?_of_get? h]
  exact Checked.under_eq_ok

theorem withDefault_of_get? {value : α} (h : Json.get? ms f.own = some v) :
    f.withDefault ms value read = .ok a ↔ read v = .ok a := by
  unfold withDefault
  rw [find?_of_get? h]
  exact Checked.under_eq_ok

/-- A field with one name that is not given has its default. -/
theorem withDefault_single_of_none {name : String} {value : α} (h : Json.get? ms name = none) :
    (single name).withDefault ms value read = .ok value := by
  have hused : (single name).used? ms = none := by
    unfold used? Json.has single
    dsimp only
    rw [h]
    rfl
  unfold withDefault find?
  rw [hused]
  rfl

/-- A field that is given, if at all, under its own name. -/
def OwnOnly (f : FieldName) (ms : Json.Members) : Prop :=
  f.find? ms = (Json.get? ms f.own).map fun v => (f.own, v)

/-- The second name of a field counts for nothing if the field is given under its own. -/
theorem ownOnly_of_second (h : Json.has ms f.second = true → Json.has ms f.own = true) :
    f.OwnOnly ms := by
  unfold OwnOnly
  cases hv : Json.get? ms f.own with
  | some v => exact find?_of_get? hv
  | none =>
    have hown : ¬Json.has ms f.own = true := by simp [Json.has, hv]
    unfold find? used?
    rw [if_neg hown, if_neg (mt h hown)]
    rfl

theorem OwnOnly.withDefault_iff {value : α} (h : f.OwnOnly ms) :
    f.withDefault ms value read = .ok a ↔
      (∀ v, Json.get? ms f.own = some v → read v = .ok a) ∧
        (Json.get? ms f.own = none → value = a) := by
  cases hv : Json.get? ms f.own with
  | some v => simp [withDefault_of_get? hv]
  | none =>
    have hfind : f.find? ms = none := Eq.trans h (by rw [hv]; rfl)
    simp [withDefault, hfind]

end FieldName

/-! ### Documents -/

/-- The fields of an entry of `tiles`. -/
structure TileEntry.Fields (ms : Json.Members) (t : TileEntry) : Prop where
  typed : readTyped "Tile" ms = .ok t.typed
  width : Field.width.required ms Checked.integer = .ok t.width
  height : Field.height.withDefault ms none (Checked.nullable Checked.integer) = .ok t.height
  scaleFactors :
    Field.scaleFactors.required ms (Checked.array Checked.integer) = .ok t.scaleFactors
  extras : extrasOf Field.ofTile ms = t.extras

/-- The fields of an entry of `sizes`. -/
structure SizeEntry.Fields (ms : Json.Members) (s : SizeEntry) : Prop where
  typed : readTyped "Size" ms = .ok s.typed
  width : Field.width.required ms Checked.integer = .ok s.width
  height : Field.height.required ms Checked.integer = .ok s.height
  extras : extrasOf Field.ofSize ms = s.extras

/-- **An entry of `sizes`** is what the readers of its fields give. -/
theorem SizeEntry.fields_of_ofJson {v : Json} {s : SizeEntry} (h : ofJson v = .ok s) :
    ∃ ms, v = .object ms ∧ Fields ms s := by
  unfold ofJson at h
  split at h
  · rename_i ms
    obtain ⟨f, extras, h₁, hextras, rfl⟩ := Checked.supply_eq_ok.mp h
    obtain ⟨f, height, h₂, hheight, rfl⟩ := Checked.supply_eq_ok.mp h₁
    obtain ⟨f, width, h₃, hwidth, rfl⟩ := Checked.supply_eq_ok.mp h₂
    obtain ⟨typed, htyped, rfl⟩ := Outcome.map_eq_ok.mp h₃
    injection hextras with hextras
    exact ⟨ms, rfl, htyped, hwidth, hheight, hextras⟩
  · cases h

theorem SizeEntry.ofJson_of_fields {ms : Json.Members} {s : SizeEntry} (h : Fields ms s) :
    ofJson (.object ms) = .ok s := by
  unfold ofJson
  dsimp only
  rw [h.typed, h.width, h.height, h.extras]
  rfl

/-- **An entry of `tiles`** is what the readers of its fields give. -/
theorem TileEntry.fields_of_ofJson {v : Json} {t : TileEntry} (h : ofJson v = .ok t) :
    ∃ ms, v = .object ms ∧ Fields ms t := by
  unfold ofJson at h
  split at h
  · rename_i ms
    obtain ⟨f, extras, h₁, hextras, rfl⟩ := Checked.supply_eq_ok.mp h
    obtain ⟨f, scaleFactors, h₂, hscaleFactors, rfl⟩ := Checked.supply_eq_ok.mp h₁
    obtain ⟨f, height, h₃, hheight, rfl⟩ := Checked.supply_eq_ok.mp h₂
    obtain ⟨f, width, h₄, hwidth, rfl⟩ := Checked.supply_eq_ok.mp h₃
    obtain ⟨typed, htyped, rfl⟩ := Outcome.map_eq_ok.mp h₄
    injection hextras with hextras
    exact ⟨ms, rfl, htyped, hwidth, hheight, hscaleFactors, hextras⟩
  · cases h

theorem TileEntry.ofJson_of_fields {ms : Json.Members} {t : TileEntry} (h : Fields ms t) :
    ofJson (.object ms) = .ok t := by
  unfold ofJson
  dsimp only
  rw [h.typed, h.width, h.height, h.scaleFactors, h.extras]
  rfl

/-- The fields of a document. -/
structure Descriptor.Fields (ms : Json.Members) (d : Descriptor) : Prop where
  context : Field.context.withDefault ms (Context.uri imageContext) Context.ofJson = .ok d.context
  id : Field.id.required ms Checked.text = .ok d.id
  type : readFixed Field.type ms imageServiceType = .ok ()
  protocol : readFixed Field.protocol ms imageProtocol = .ok ()
  profile : Field.profile.required ms (Checked.term ComplianceLevel) = .ok d.profile
  width : Field.width.required ms Checked.integer = .ok d.width
  height : Field.height.required ms Checked.integer = .ok d.height
  maxWidth : readLimit Field.maxWidth ms = .ok d.maxWidth
  maxHeight : readLimit Field.maxHeight ms = .ok d.maxHeight
  maxArea : readLimit Field.maxArea ms = .ok d.maxArea
  sizes : Field.sizes.withDefault ms [] (Checked.array SizeEntry.ofJson) = .ok d.sizes
  tiles : Field.tiles.withDefault ms [] (Checked.array TileEntry.ofJson) = .ok d.tiles
  preferredFormats :
    readTerms ImageFormat Field.preferredFormats ms = .ok d.preferredFormats
  rights : Field.rights.withDefault ms none (Checked.nullable Checked.text) = .ok d.rights
  extraFeatures : readTerms Feature Field.extraFeatures ms = .ok d.extraFeatures
  extraFormats : readTerms ImageFormat Field.extraFormats ms = .ok d.extraFormats
  extraQualities : readTerms Quality Field.extraQualities ms = .ok d.extraQualities
  extras : extrasOf Field.ofDocument ms = d.extras

/-- **A descriptor** is what the readers of its fields give. -/
theorem Descriptor.fields_of_ofMembers {ms : Json.Members} {d : Descriptor}
    (h : ofMembers ms = .ok d) : Fields ms d := by
  unfold ofMembers at h
  obtain ⟨f, extras, h₁, hextras, rfl⟩ := Checked.supply_eq_ok.mp h
  obtain ⟨f, extraQualities, h₂, hextraQualities, rfl⟩ := Checked.supply_eq_ok.mp h₁
  obtain ⟨f, extraFormats, h₃, hextraFormats, rfl⟩ := Checked.supply_eq_ok.mp h₂
  obtain ⟨f, extraFeatures, h₄, hextraFeatures, rfl⟩ := Checked.supply_eq_ok.mp h₃
  obtain ⟨f, rights, h₅, hrights, rfl⟩ := Checked.supply_eq_ok.mp h₄
  obtain ⟨f, preferredFormats, h₆, hpreferredFormats, rfl⟩ := Checked.supply_eq_ok.mp h₅
  obtain ⟨f, tiles, h₇, htiles, rfl⟩ := Checked.supply_eq_ok.mp h₆
  obtain ⟨f, sizes, h₈, hsizes, rfl⟩ := Checked.supply_eq_ok.mp h₇
  obtain ⟨f, maxArea, h₉, hmaxArea, rfl⟩ := Checked.supply_eq_ok.mp h₈
  obtain ⟨f, maxHeight, h₁₀, hmaxHeight, rfl⟩ := Checked.supply_eq_ok.mp h₉
  obtain ⟨f, maxWidth, h₁₁, hmaxWidth, rfl⟩ := Checked.supply_eq_ok.mp h₁₀
  obtain ⟨f, height, h₁₂, hheight, rfl⟩ := Checked.supply_eq_ok.mp h₁₁
  obtain ⟨f, width, h₁₃, hwidth, rfl⟩ := Checked.supply_eq_ok.mp h₁₂
  obtain ⟨f, profile, h₁₄, hprofile, rfl⟩ := Checked.supply_eq_ok.mp h₁₃
  obtain ⟨f, ⟨⟩, h₁₅, hprotocol, rfl⟩ := Checked.supply_eq_ok.mp h₁₄
  obtain ⟨f, ⟨⟩, h₁₆, htype, rfl⟩ := Checked.supply_eq_ok.mp h₁₅
  obtain ⟨f, id, h₁₇, hid, rfl⟩ := Checked.supply_eq_ok.mp h₁₆
  obtain ⟨context, hcontext, rfl⟩ := Outcome.map_eq_ok.mp h₁₇
  injection hextras with hextras
  exact ⟨hcontext, hid, htype, hprotocol, hprofile, hwidth, hheight, hmaxWidth, hmaxHeight,
    hmaxArea, hsizes, htiles, hpreferredFormats, hrights, hextraFeatures, hextraFormats,
    hextraQualities, hextras⟩

theorem Descriptor.ofJson_of_fields {ms : Json.Members} {d : Descriptor} (h : Fields ms d) :
    ofJson (.object ms) = .ok d := by
  unfold ofJson read ofMembers
  dsimp only
  rw [h.context, h.id, h.type, h.protocol, h.profile, h.width, h.height, h.maxWidth, h.maxHeight,
    h.maxArea, h.sizes, h.tiles, h.preferredFormats, h.rights, h.extraFeatures, h.extraFormats,
    h.extraQualities, h.extras]
  rfl

theorem Descriptor.fields_of_ofJson {v : Json} {d : Descriptor} (h : ofJson v = .ok d) :
    ∃ ms, v = .object ms ∧ Fields ms d := by
  unfold ofJson read at h
  split at h
  · rename_i ms
    refine ⟨ms, rfl, fields_of_ofMembers ?_⟩
    cases hd : ofMembers ms with
    | ok d' => rw [hd] at h; injection h with h; rw [h]
    | error es => rw [hd] at h; cases h
  · cases h

end IiifRules
