import Mathlib
import IiifRules.Proofs.Descriptor.Shape
import IiifRules.Proofs.Descriptor.Writer

/-! # Which documents of an accepted shape are read

The check of the shape and the reader of descriptors are two judgements of one format. The check
passes over some members that the reader asks something of: the types of entries, the rights, the
preferred formats, and limits and lists that are given under the second names of their fields.

* `FieldName.IfGiven`: a condition on the value of a field, whatever name it is given under.
* `Descriptor.FitsBeyondShape`: what the reader asks beyond the shape.
* `Descriptor.exists_ofJson_iff`: a document of an accepted shape is read exactly if it fits. -/

namespace IiifRules

open Json (Members get? has)

/-! ### Values that a reader takes -/

/-- A limit: null or what spells an integer. -/
def Json.IsLimit (v : Json) : Prop := v = .null ∨ ∃ n, Descriptor.integerOf v = .ok n

/-- A text or null. -/
def Json.IsNote (v : Json) : Prop := v = .null ∨ ∃ s, v = .text s

/-- The type of an entry: null or the one name that there is. -/
def Json.IsTypeName (name : String) (v : Json) : Prop := v = .null ∨ v = .text name

def Json.IsArray (v : Json) : Prop := ∃ vs, v = .array vs

namespace Checked

variable {α : Type} {read : Json → Checked α} {v : Json} {vs : List Json}

theorem exists_nullable_iff :
    (∃ a?, nullable read v = .ok a?) ↔ v = .null ∨ ∃ a, read v = .ok a := by
  unfold nullable
  split
  · simp
  · rename_i hnull
    have hnot : v ≠ .null := fun h => hnull h
    simp only [Outcome.map_eq_ok, hnot, false_or]
    constructor
    · rintro ⟨_, a, ha, -⟩
      exact ⟨a, ha⟩
    · rintro ⟨a, ha⟩
      exact ⟨_, a, ha, rfl⟩

theorem exists_limit_iff : (∃ n?, nullable integer v = .ok n?) ↔ v.IsLimit := by
  rw [exists_nullable_iff]
  simp only [integer, Outcome.mapError_eq_ok]
  rfl

theorem exists_note_iff : (∃ s?, nullable text v = .ok s?) ↔ v.IsNote := by
  rw [exists_nullable_iff]
  simp only [text_eq_ok]
  rfl

theorem exists_typeName_iff {name : String} :
    (∃ u?, nullable (literal name) v = .ok u?) ↔ v.IsTypeName name := by
  rw [exists_nullable_iff]
  unfold literal Json.IsTypeName
  by_cases h : v = .text name
  · simp [h, Json.isText]
  · simp [h, mt Json.isText_iff.mp h, fault]

theorem exists_knownTerms_iff {α : Type} [Vocabulary α] :
    (∃ ts, knownTerms α v = .ok ts) ↔ v.IsArray := by
  unfold knownTerms Json.IsArray
  split
  · simp
  · rename_i hnot
    simp only [fault, reduceCtorEq, exists_false, false_iff]
    rintro ⟨vs, rfl⟩
    exact hnot vs rfl

/-- **An array is read** if each of its items is. -/
theorem exists_array_iff :
    (∃ as, array read (.array vs) = .ok as) ↔ ∀ v ∈ vs, ∃ a, read v = .ok a := by
  constructor
  · rintro ⟨as, h⟩ v hv
    obtain ⟨a, -, ha⟩ := Outcome.exists_of_forall₂ (forall₂_of_array h).flip hv
    exact ⟨a, ha⟩
  · intro h
    obtain ⟨as, -, hall⟩ := Outcome.exists_mapM (P := fun v a => read v = .ok a) fun v hv => by
      obtain ⟨a, ha⟩ := h v hv
      exact ⟨a, ha, ha⟩
    exact ⟨as, all_eq_ok hall⟩

end Checked

/-! ### Fields that are given -/

namespace FieldName

variable {α : Type} {f : FieldName} {ms : Members} {v : Json} {P Q : Json → Prop}

/-- The value of a field, if it is given under one of its names. -/
def IfGiven (f : FieldName) (ms : Members) (P : Json → Prop) : Prop :=
  ∀ name v, f.find? ms = some (name, v) → P v

theorem ifGiven_of_get? (h : get? ms f.own = some v) : f.IfGiven ms P ↔ P v := by
  unfold IfGiven
  rw [find?_of_get? h]
  simp

theorem ifGiven_single_of_none {name : String} (h : get? ms name = none) :
    (single name).IfGiven ms P := by
  intro n v hv
  have hnone : (single name).used? ms = none := by
    simp [used?, single, has, h]
  rw [find?, hnone] at hv
  cases hv

theorem IfGiven.congr (h : ∀ v, P v ↔ Q v) : f.IfGiven ms P ↔ f.IfGiven ms Q :=
  forall_congr' fun _ => forall_congr' fun v => imp_congr_right fun _ => h v

/-- **A field with a default is read** unless its value is at fault. -/
theorem exists_withDefault_iff {read : Json → Checked α} {value : α} :
    (∃ a, f.withDefault ms value read = .ok a) ↔ f.IfGiven ms fun v => ∃ a, read v = .ok a := by
  unfold withDefault IfGiven
  cases f.find? ms with
  | none => simp
  | some nv =>
    obtain ⟨name, v⟩ := nv
    simp [Checked.under_eq_ok]

/-- A limit, list or note that is read. -/
theorem exists_withDefault_iff_of {read : Json → Checked α} {value : α}
    (h : ∀ v, (∃ a, read v = .ok a) ↔ P v) :
    (∃ a, f.withDefault ms value read = .ok a) ↔ f.IfGiven ms P :=
  exists_withDefault_iff.trans (IfGiven.congr h)

theorem exists_required {read : Json → Checked α} {a : α} (h : get? ms f.own = some v)
    (hread : read v = .ok a) : ∃ a, f.required ms read = .ok a :=
  ⟨a, (required_of_get? h).mpr hread⟩

/-- **A list of entries of an accepted shape** is read, unless it is null, if each entry is. -/
theorem exists_entries_iff {name : String} {read : Json → Checked α} {Shaped : Json → Prop}
    (h : get? ms name = none ∨ get? ms name = some .null ∨
      ∃ vs, get? ms name = some (.array vs) ∧ ∀ v ∈ vs, Shaped v)
    (hnull : get? ms name ≠ some .null) (hread : ∀ v, Shaped v → ((∃ a, read v = .ok a) ↔ P v)) :
    (∃ as, (single name).withDefault ms [] (Checked.array read) = .ok as) ↔
      ∀ vs, get? ms name = some (.array vs) → ∀ v ∈ vs, P v := by
  rw [exists_withDefault_iff]
  rcases h with hnone | hnull' | ⟨vs, hvs, hshaped⟩
  · exact iff_of_true (ifGiven_single_of_none hnone) (by simp [hnone])
  · exact absurd hnull' hnull
  · rw [ifGiven_of_get? (f := single name) hvs, Checked.exists_array_iff]
    simp only [hvs, Option.some.injEq, Json.array.injEq, forall_eq']
    exact forall₂_congr fun v hv => hread v (hshaped v hv)

end FieldName

/-! ### Entries -/

theorem exists_readTyped_iff {name : String} {es : Members} :
    (∃ typed, readTyped name es = .ok typed) ↔ Field.type.IfGiven es (Json.IsTypeName name) := by
  refine FieldName.exists_withDefault_iff_of fun v => ?_
  rw [← Checked.exists_typeName_iff]
  constructor
  · rintro ⟨typed, h⟩
    obtain ⟨u, hu, -⟩ := Outcome.map_eq_ok.mp h
    exact ⟨u, hu⟩
  · rintro ⟨u, hu⟩
    exact ⟨_, Outcome.map_eq_ok.mpr ⟨u, hu, rfl⟩⟩

/-- An entry has, if any, the type of that name. -/
def Json.HasTypeName (name : String) (v : Json) : Prop :=
  ∀ es, v = .object es → Field.type.IfGiven es (Json.IsTypeName name)

/-- **An entry of `sizes` of an accepted shape** is read exactly if its type is right. -/
theorem SizeEntry.exists_ofJson_iff {v : Json} {i : ℕ} (h : Shape.checkSize i v = []) :
    (∃ s, ofJson v = .ok s) ↔ v.HasTypeName "Size" := by
  obtain ⟨es, rfl, ⟨w, hw, -⟩, ⟨n, hn, -⟩⟩ := Shape.checkSize_eq_nil.mp h
  simp only [Json.HasTypeName, Json.object.injEq, forall_eq', ← exists_readTyped_iff]
  constructor
  · rintro ⟨s, hs⟩
    obtain ⟨_, hobject, hfields⟩ := fields_of_ofJson hs
    cases hobject
    exact ⟨_, hfields.typed⟩
  · rintro ⟨typed, htyped⟩
    obtain ⟨width, hwidth⟩ := Field.width.exists_required hw (Checked.integer_int w)
    obtain ⟨height, hheight⟩ := Field.height.exists_required hn (Checked.integer_int n)
    exact ⟨⟨typed, width, height, _⟩, ofJson_of_fields ⟨htyped, hwidth, hheight, rfl⟩⟩

/-- **An entry of `tiles` of an accepted shape** likewise. -/
theorem TileEntry.exists_ofJson_iff {v : Json} {i : ℕ} (h : Shape.checkTile i v = []) :
    (∃ t, ofJson v = .ok t) ↔ v.HasTypeName "Tile" := by
  obtain ⟨es, rfl, ⟨w, hw, -⟩, hheight, hfactors⟩ := Shape.checkTile_eq_nil.mp h
  simp only [Json.HasTypeName, Json.object.injEq, forall_eq', ← exists_readTyped_iff]
  constructor
  · rintro ⟨t, ht⟩
    obtain ⟨_, hobject, hfields⟩ := fields_of_ofJson ht
    cases hobject
    exact ⟨_, hfields.typed⟩
  · rintro ⟨typed, htyped⟩
    obtain ⟨width, hwidth⟩ := Field.width.exists_required hw (Checked.integer_int w)
    obtain ⟨height, hheight⟩ : ∃ h?, Field.height.withDefault es none
        (Checked.nullable Checked.integer) = .ok h? := by
      rw [FieldName.exists_withDefault_iff_of fun v => Checked.exists_limit_iff]
      rcases hheight with hnone | ⟨n, hn, -⟩
      · exact FieldName.ifGiven_single_of_none hnone
      · exact (FieldName.ifGiven_of_get? (f := Field.height) hn).mpr (.inr ⟨n, rfl⟩)
    obtain ⟨vs, hvs, -, hpos⟩ := Shape.areScaleFactors_iff.mp hfactors
    obtain ⟨ns, hns⟩ : ∃ ns, Checked.array Checked.integer (.array vs) = .ok ns := by
      refine Checked.exists_array_iff.mpr fun v hv => ?_
      obtain ⟨n, rfl, -⟩ := hpos v hv
      exact ⟨n, rfl⟩
    obtain ⟨factors, hfactors⟩ := Field.scaleFactors.exists_required hvs hns
    exact ⟨⟨typed, width, height, factors, _⟩,
      ofJson_of_fields ⟨htyped, hwidth, hheight, hfactors, rfl⟩⟩

/-! ### Documents -/

namespace Descriptor

/-- **What the reader asks beyond the shape.** The types of entries, the rights and the preferred
formats are never looked at by the check; limits and lists only under the first names of their
fields. -/
structure FitsBeyondShape (ms : Members) : Prop where
  maxWidth : Field.maxWidth.IfGiven ms Json.IsLimit
  maxHeight : Field.maxHeight.IfGiven ms Json.IsLimit
  maxArea : Field.maxArea.IfGiven ms Json.IsLimit
  sizes : ∀ vs, get? ms "sizes" = some (.array vs) → ∀ v ∈ vs, v.HasTypeName "Size"
  tiles : ∀ vs, get? ms "tiles" = some (.array vs) → ∀ v ∈ vs, v.HasTypeName "Tile"
  preferredFormats : Field.preferredFormats.IfGiven ms Json.IsArray
  rights : Field.rights.IfGiven ms Json.IsNote
  extraFeatures : Field.extraFeatures.IfGiven ms Json.IsArray
  extraFormats : Field.extraFormats.IfGiven ms Json.IsArray
  extraQualities : Field.extraQualities.IfGiven ms Json.IsArray

variable {ms : Members}

theorem exists_readLimit_iff {f : FieldName} :
    (∃ n?, readLimit f ms = .ok n?) ↔ f.IfGiven ms Json.IsLimit :=
  FieldName.exists_withDefault_iff_of fun _ => Checked.exists_limit_iff

theorem exists_readTerms_iff {α : Type} [Vocabulary α] {f : FieldName} :
    (∃ ts, readTerms α f ms = .ok ts) ↔ f.IfGiven ms Json.IsArray :=
  FieldName.exists_withDefault_iff_of fun _ => Checked.exists_knownTerms_iff

theorem exists_rights_iff :
    (∃ s?, Field.rights.withDefault ms none (Checked.nullable Checked.text) = .ok s?) ↔
      Field.rights.IfGiven ms Json.IsNote :=
  FieldName.exists_withDefault_iff_of fun _ => Checked.exists_note_iff

/-- **A document of an accepted shape is read** exactly if it fits beyond its shape. -/
theorem exists_ofJson_iff (h : Shape.Accepted ms) (hsizes : get? ms "sizes" ≠ some .null)
    (htiles : get? ms "tiles" ≠ some .null) :
    (∃ d, ofJson (.object ms) = .ok d) ↔ FitsBeyondShape ms := by
  have hentries := FieldName.exists_entries_iff h.sizes hsizes
    fun v ⟨_, hv⟩ => SizeEntry.exists_ofJson_iff hv
  have hlayouts := FieldName.exists_entries_iff h.tiles htiles
    fun v ⟨_, hv⟩ => TileEntry.exists_ofJson_iff hv
  constructor
  · rintro ⟨d, hd⟩
    obtain ⟨_, hobject, hf⟩ := fields_of_ofJson hd
    cases hobject
    exact {
      maxWidth := exists_readLimit_iff.mp ⟨_, hf.maxWidth⟩
      maxHeight := exists_readLimit_iff.mp ⟨_, hf.maxHeight⟩
      maxArea := exists_readLimit_iff.mp ⟨_, hf.maxArea⟩
      sizes := hentries.mp ⟨_, hf.sizes⟩
      tiles := hlayouts.mp ⟨_, hf.tiles⟩
      preferredFormats := exists_readTerms_iff.mp ⟨_, hf.preferredFormats⟩
      rights := exists_rights_iff.mp ⟨_, hf.rights⟩
      extraFeatures := exists_readTerms_iff.mp ⟨_, hf.extraFeatures⟩
      extraFormats := exists_readTerms_iff.mp ⟨_, hf.extraFormats⟩
      extraQualities := exists_readTerms_iff.mp ⟨_, hf.extraQualities⟩ }
  · intro hfits
    -- What the shape settles.
    obtain ⟨context, hcontext⟩ : ∃ c, Field.context.withDefault ms (Context.uri imageContext)
        Context.ofJson = .ok c := by
      rcases h.context with hc | ⟨vs, hc, -⟩
      · exact ⟨_, (FieldName.withDefault_of_get? (f := Field.context) hc).mpr rfl⟩
      · exact ⟨_, (FieldName.withDefault_of_get? (f := Field.context) hc).mpr rfl⟩
    obtain ⟨s, hs⟩ := h.id
    obtain ⟨id, hid⟩ := Field.id.exists_required hs (Checked.text_eq_ok.mpr rfl)
    have htype : readFixed Field.type ms imageServiceType = .ok () :=
      (FieldName.withDefault_of_get? (f := Field.type) h.type).mpr (if_pos (by simp [Json.isText]))
    have hprotocol : readFixed Field.protocol ms imageProtocol = .ok () :=
      (FieldName.withDefault_of_get? (f := Field.protocol) h.protocol).mpr
        (if_pos (by simp [Json.isText]))
    obtain ⟨level, hlevel⟩ := h.profile
    obtain ⟨profile, hprofile⟩ := Field.profile.exists_required hlevel (Checked.term_name level)
    obtain ⟨w, hw, -⟩ := h.width
    obtain ⟨width, hwidth⟩ := Field.width.exists_required hw (Checked.integer_int w)
    obtain ⟨n, hn, -⟩ := h.height
    obtain ⟨height, hheight⟩ := Field.height.exists_required hn (Checked.integer_int n)
    -- What is left to the members themselves.
    obtain ⟨maxWidth, hmaxWidth⟩ := exists_readLimit_iff.mpr hfits.maxWidth
    obtain ⟨maxHeight, hmaxHeight⟩ := exists_readLimit_iff.mpr hfits.maxHeight
    obtain ⟨maxArea, hmaxArea⟩ := exists_readLimit_iff.mpr hfits.maxArea
    obtain ⟨sizes, hsizes⟩ := hentries.mpr hfits.sizes
    obtain ⟨tiles, htiles⟩ := hlayouts.mpr hfits.tiles
    obtain ⟨preferred, hpreferred⟩ : ∃ ts : List ImageFormat, _ :=
      exists_readTerms_iff.mpr hfits.preferredFormats
    obtain ⟨rights, hrights⟩ := exists_rights_iff.mpr hfits.rights
    obtain ⟨features, hfeatures⟩ : ∃ ts : List Feature, _ :=
      exists_readTerms_iff.mpr hfits.extraFeatures
    obtain ⟨formats, hformats⟩ : ∃ ts : List ImageFormat, _ :=
      exists_readTerms_iff.mpr hfits.extraFormats
    obtain ⟨qualities, hqualities⟩ : ∃ ts : List Quality, _ :=
      exists_readTerms_iff.mpr hfits.extraQualities
    exact ⟨⟨context, id, profile, width, height, maxWidth, maxHeight, maxArea, sizes, tiles,
      preferred, rights, features, formats, qualities, _⟩, ofJson_of_fields ⟨hcontext, hid, htype,
      hprotocol, hprofile, hwidth, hheight, hmaxWidth, hmaxHeight, hmaxArea, hsizes, htiles,
      hpreferred, hrights, hfeatures, hformats, hqualities, rfl⟩⟩

/-- A list of entries that is null is not read. -/
theorem get?_ne_null_of_entries {α : Type} {f : FieldName} {read : Json → Checked α} {as : List α}
    (h : f.withDefault ms [] (Checked.array read) = .ok as) : get? ms f.own ≠ some .null := by
  intro hnull
  cases (FieldName.withDefault_of_get? hnull).mp h

/-- **Which documents of an accepted shape are read.** A document of an accepted shape is read exactly
if its sizes and tiles are not null, and the types of its entries, its rights, its preferred formats,
and what it gives under the second names of its fields are values that the reader takes. -/
theorem read_iff_fitsBeyondShape {v : Json} {r : ShapeReport} (hshape : Shape.check v = .ok r)
    (hvalid : r.valid = true) : ∃ ms, v = .object ms ∧
      ((∃ d, ofJson v = .ok d) ↔
        get? ms "sizes" ≠ some .null ∧ get? ms "tiles" ≠ some .null ∧ FitsBeyondShape ms) := by
  obtain ⟨ms, rfl, haccepted⟩ := Shape.exists_accepted hshape hvalid
  refine ⟨ms, rfl, fun hread => ?_, fun ⟨hsizes, htiles, hfits⟩ => ?_⟩
  · obtain ⟨d, hd⟩ := hread
    obtain ⟨_, hobject, hf⟩ := fields_of_ofJson hd
    cases hobject
    have hsizes : get? ms "sizes" ≠ some .null := get?_ne_null_of_entries hf.sizes
    have htiles : get? ms "tiles" ≠ some .null := get?_ne_null_of_entries hf.tiles
    exact ⟨hsizes, htiles, (exists_ofJson_iff haccepted hsizes htiles).mp ⟨d, hd⟩⟩
  · exact (exists_ofJson_iff haccepted hsizes htiles).mpr hfits

/-- A limit that is spelled out under its second name, an entry with a type, and formats of which
none is known. -/
def spelledMembers : Members :=
  [("@context", .array [.text "http://www.w3.org/ns/anno.jsonld", .text imageContext]),
   ("id", .text "https://example.org/iiif/1"), ("type", .text imageServiceType),
   ("protocol", .text imageProtocol), ("profile", .text "level1"), ("width", .int 4000),
   ("height", .int 3000), ("max_width", .text " 2_000.0 "),
   ("sizes", .array [.object [("type", .text "Size"), ("width", .int 400), ("height", .int 300)]]),
   ("preferred_formats", .array [.text "avif", .int 7]), ("rights", .null)]

theorem read_iff_fitsBeyondShape_of_spelled : ∃ v r, Shape.check v = .ok r ∧ r.valid = true ∧
    ∃ d, ofJson v = .ok d := by
  have hid : Shape.checkId spelledMembers = .ok ⟨[], []⟩ :=
    Shape.checkId_of_hasHttpAuthority rfl (by decide +kernel) (by decide) (by decide +kernel)
  have hshape : Shape.check (.object spelledMembers) = .ok ⟨[], []⟩ := by
    rw [Shape.check, Shape.checkMembers, hid]
    rfl
  obtain ⟨_, hobject, hiff⟩ := read_iff_fitsBeyondShape hshape rfl
  cases hobject
  have hfits : FitsBeyondShape spelledMembers := {
    maxWidth := by
      rintro _ _ ⟨⟩
      exact .inr ⟨2000, by decide +kernel⟩
    maxHeight := by rintro _ _ ⟨⟩
    maxArea := by rintro _ _ ⟨⟩
    sizes := by
      rintro _ ⟨⟩ v hv _ rfl
      cases List.mem_singleton.mp hv
      rintro _ _ ⟨⟩
      exact .inr rfl
    tiles := by rintro _ ⟨⟩
    preferredFormats := by
      rintro _ _ ⟨⟩
      exact ⟨_, rfl⟩
    rights := by
      rintro _ _ ⟨⟩
      exact .inl rfl
    extraFeatures := by rintro _ _ ⟨⟩
    extraFormats := by rintro _ _ ⟨⟩
    extraQualities := by rintro _ _ ⟨⟩ }
  exact ⟨_, _, hshape, rfl, hiff.mpr ⟨by simp [spelledMembers, get?, List.lookup],
    by simp [spelledMembers, get?, List.lookup], hfits⟩⟩

/-- Preferred formats that are no list. -/
def oneFormatMembers : Members :=
  [("@context", .text imageContext), ("id", .text "https://example.org/iiif/1"),
   ("type", .text imageServiceType), ("protocol", .text imageProtocol),
   ("profile", .text "level2"), ("width", .int 4000), ("height", .int 3000),
   ("preferredFormats", .text "jpg")]

/-- The check does not look at the preferred formats, which are read only if they are a list. -/
theorem not_read_of_shape : ¬∀ (v : Json) (r : ShapeReport), Shape.check v = .ok r →
    r.valid = true → ∃ d, ofJson v = .ok d := by
  intro h
  have hid : Shape.checkId oneFormatMembers = .ok ⟨[], []⟩ :=
    Shape.checkId_of_hasHttpAuthority rfl (by decide +kernel) (by decide) (by decide +kernel)
  have hshape : Shape.check (.object oneFormatMembers) = .ok ⟨[], []⟩ := by
    rw [Shape.check, Shape.checkMembers, hid]
    rfl
  have hfault : ofJson (.object oneFormatMembers) =
      .error (.document [⟨["preferredFormats"], .notArray⟩]) := by rfl
  obtain ⟨d, hd⟩ := h (.object oneFormatMembers) _ hshape rfl
  cases hfault.symm.trans hd

end Descriptor

end IiifRules
