import Mathlib
import IiifRules.Compliance.Generate
import IiifRules.Proofs.Compliance.Bare
import IiifRules.Proofs.Descriptor.Sound

/-! # What a generated descriptor says

A descriptor that is made from a plan says what the plan says. So the document it is written to
passes the check of its shape, is read back, and complies with the level that it declares.

* `DescriptorPlan.Makes`: what a plan and the descriptor made from it have in common;
  `makes_of_generate` says that all of it holds.
* `Descriptor.generated_consistent`: the three readers of a generated document agree with it. -/

namespace IiifRules

open Json (Members get? has)

/-! ### Plans -/

namespace DescriptorPlan

variable {p : DescriptorPlan} {d : Descriptor}

/-- **What a plan says** is what the descriptor made from it says. -/
structure Makes (p : DescriptorPlan) (d : Descriptor) : Prop where
  context : d.context = .uri imageContext
  id : p.id = .text d.id
  profile : p.level.requireTerm = .ok d.profile
  width : d.width = p.width
  height : d.height = p.height
  maxWidth : d.maxWidth = p.maxWidth
  maxHeight : d.maxHeight = p.maxHeight
  maxArea : d.maxArea = p.maxArea
  sizes : List.Forall₂ (fun v s => SizeEntry.ofJson v = .ok s) p.sizes d.sizes
  tiles : List.Forall₂ (fun v t => TileEntry.ofJson v = .ok t) p.tiles d.tiles
  preferredFormats : p.preferredFormats.mapM Json.requireTerm = .ok d.preferredFormats
  rights : Checked.nullable Checked.text p.rights = .ok d.rights
  extraFeatures : p.extraFeatures.mapM Json.requireTerm = .ok d.extraFeatures
  extraFormats : p.extraFormats.mapM Json.requireTerm = .ok d.extraFormats
  extraQualities : p.extraQualities.mapM Json.requireTerm = .ok d.extraQualities
  extras : d.extras = []
  width_pos : 0 < d.width
  height_pos : 0 < d.height
  maxWidth_pos : ∀ n ∈ d.maxWidth, 0 < n
  maxHeight_pos : ∀ n ∈ d.maxHeight, 0 < n
  maxArea_pos : ∀ n ∈ d.maxArea, 0 < n
  upscaling : Feature.sizeUpscaling ∈ d.extraFeatures → d.declaresUpscalingLimit = true

theorem requirePositiveLimit_eq_ok {name : String} {n? : Option ℤ} :
    requirePositiveLimit name n? = .ok () ↔ ∀ n ∈ n?, 0 < n := by
  cases n? with
  | none => simp [requirePositiveLimit]
  | some n => simp [requirePositiveLimit]

variable {level : ComplianceLevel} {features : List Feature}
  {preferred formats : List ImageFormat} {qualities : List Quality}

/-- The members of the document of a plan, as far as they have a value. -/
def fields (p : DescriptorPlan) (level : ComplianceLevel) (features : List Feature)
    (preferred formats : List ImageFormat) (qualities : List Quality) :
    List (String × Option Json) :=
  [("id", some p.id), ("profile", some (.text level.name)), ("width", some (.int p.width)),
   ("height", some (.int p.height)), ("maxWidth", p.maxWidth.map .int),
   ("maxHeight", p.maxHeight.map .int), ("maxArea", p.maxArea.map .int),
   ("sizes", some (.array p.sizes)), ("tiles", some (.array p.tiles)),
   ("preferredFormats", some (namesToJson preferred)), ("rights", some p.rights),
   ("extraFeatures", some (namesToJson features)), ("extraFormats", some (namesToJson formats)),
   ("extraQualities", some (namesToJson qualities))]

theorem document_eq : p.document level features preferred formats qualities =
    .object (Json.present (p.fields level features preferred formats qualities)) := by
  unfold document fields
  cases p.maxWidth <;> cases p.maxHeight <;> cases p.maxArea <;> rfl

theorem get?_fields {name : String} :
    get? (Json.present (p.fields level features preferred formats qualities)) name =
      ((p.fields level features preferred formats qualities).lookup name).join :=
  Json.get?_present (by simp [fields])

/-- What is checked of a plan before its document is read. -/
structure Admits (p : DescriptorPlan) (level : ComplianceLevel) (features : List Feature)
    (preferred formats : List ImageFormat) (qualities : List Quality) : Prop where
  width : 0 < p.width
  height : 0 < p.height
  maxWidth : ∀ n ∈ p.maxWidth, 0 < n
  maxHeight : ∀ n ∈ p.maxHeight, 0 < n
  maxArea : ∀ n ∈ p.maxArea, 0 < n
  extraFeatures : p.extraFeatures.mapM Json.requireTerm = .ok features
  upscaling : Feature.sizeUpscaling ∈ features → p.maxWidth.isSome ∨ p.maxArea.isSome
  profile : p.level.requireTerm = .ok level
  preferredFormats : p.preferredFormats.mapM Json.requireTerm = .ok preferred
  extraFormats : p.extraFormats.mapM Json.requireTerm = .ok formats
  extraQualities : p.extraQualities.mapM Json.requireTerm = .ok qualities

theorem bound_iff : ¬(features.contains .sizeUpscaling && p.maxWidth.isNone && p.maxArea.isNone) ↔
    (Feature.sizeUpscaling ∈ features → p.maxWidth.isSome ∨ p.maxArea.isSome) := by
  cases p.maxWidth <;> cases p.maxArea <;> simp

/-- **A descriptor is made** from a plan that is admitted, by reading its document. -/
theorem generate_eq_ok : Descriptor.generate p = .ok d ↔
    ∃ level features preferred formats qualities,
      p.Admits level features preferred formats qualities ∧
      Descriptor.ofJson (p.document level features preferred formats qualities) = .ok d := by
  unfold Descriptor.generate
  constructor
  · intro h
    split at h
    · cases h
    rename_i hpos
    obtain ⟨⟨⟩, hmaxWidth, h⟩ := Outcome.bind_eq_ok.mp h
    obtain ⟨⟨⟩, hmaxHeight, h⟩ := Outcome.bind_eq_ok.mp h
    obtain ⟨⟨⟩, hmaxArea, h⟩ := Outcome.bind_eq_ok.mp h
    obtain ⟨features, hfeatures, h⟩ := Outcome.bind_eq_ok.mp h
    dsimp only at h
    split at h
    · cases h
    rename_i hbound
    rw [bound_iff] at hbound
    obtain ⟨level, hlevel, h⟩ := Outcome.bind_eq_ok.mp h
    obtain ⟨preferred, hpreferred, h⟩ := Outcome.bind_eq_ok.mp h
    obtain ⟨formats, hformats, h⟩ := Outcome.bind_eq_ok.mp h
    obtain ⟨qualities, hqualities, h⟩ := Outcome.bind_eq_ok.mp h
    rw [not_or, not_le, not_le] at hpos
    refine ⟨level, features, preferred, formats, qualities, ?_, h⟩
    exact {
      width := hpos.1
      height := hpos.2
      maxWidth := requirePositiveLimit_eq_ok.mp hmaxWidth
      maxHeight := requirePositiveLimit_eq_ok.mp hmaxHeight
      maxArea := requirePositiveLimit_eq_ok.mp hmaxArea
      extraFeatures := hfeatures
      upscaling := hbound
      profile := hlevel
      preferredFormats := hpreferred
      extraFormats := hformats
      extraQualities := hqualities }
  · rintro ⟨level, features, preferred, formats, qualities, ha, h⟩
    have hpos : ¬(p.width ≤ 0 ∨ p.height ≤ 0) := by
      rw [not_or, not_le, not_le]
      exact ⟨ha.width, ha.height⟩
    rw [if_neg hpos, requirePositiveLimit_eq_ok.mpr ha.maxWidth, Outcome.ok_bind,
      requirePositiveLimit_eq_ok.mpr ha.maxHeight, Outcome.ok_bind,
      requirePositiveLimit_eq_ok.mpr ha.maxArea, Outcome.ok_bind, ha.extraFeatures,
      Outcome.ok_bind, if_neg (bound_iff.mpr ha.upscaling), ha.profile, Outcome.ok_bind,
      ha.preferredFormats, Outcome.ok_bind, ha.extraFormats, Outcome.ok_bind, ha.extraQualities,
      Outcome.ok_bind]
    exact h

theorem makes_of_generate (h : Descriptor.generate p = .ok d) : p.Makes d := by
  obtain ⟨level, features, preferred, formats, qualities, ha, h⟩ := generate_eq_ok.mp h
  rw [document_eq] at h
  obtain ⟨ms, hms, hd⟩ := Descriptor.fields_of_ofJson h
  injection hms with hms
  rw [← List.append_nil ms, ← hms] at hd
  have hb : FieldName.Beside Field.ofDocument
      (Json.present (p.fields level features preferred formats qualities)) [] :=
    .nil (by
      show ["id", "profile", "width", "height", "maxWidth", "maxHeight", "maxArea", "sizes",
        "tiles", "preferredFormats", "rights", "extraFeatures", "extraFormats",
        "extraQualities"] ⊆ _
      decide)
  have hs := Descriptor.distinct_ofDocument
  have hcontext :=
    ((hb.withDefault_iff hs (by simp [Field.ofDocument])).mp hd.context).2 get?_fields
  have hid := (hb.required_iff (by simp [Field.ofDocument]) get?_fields).mp hd.id
  have hprofile := (hb.required_iff (by simp [Field.ofDocument]) get?_fields).mp hd.profile
  have hwidth := (hb.required_iff (by simp [Field.ofDocument]) get?_fields).mp hd.width
  have hheight := (hb.required_iff (by simp [Field.ofDocument]) get?_fields).mp hd.height
  have hmaxWidth := hb.eq_of_readLimit hs (by simp [Field.ofDocument]) get?_fields hd.maxWidth
  have hmaxHeight := hb.eq_of_readLimit hs (by simp [Field.ofDocument]) get?_fields hd.maxHeight
  have hmaxArea := hb.eq_of_readLimit hs (by simp [Field.ofDocument]) get?_fields hd.maxArea
  have hsizes :=
    ((hb.withDefault_iff hs (by simp [Field.ofDocument])).mp hd.sizes).1 _ get?_fields
  have htiles :=
    ((hb.withDefault_iff hs (by simp [Field.ofDocument])).mp hd.tiles).1 _ get?_fields
  have hpreferred :=
    hb.eq_of_readTerms hs (by simp [Field.ofDocument]) get?_fields hd.preferredFormats
  have hrights :=
    ((hb.withDefault_iff hs (by simp [Field.ofDocument])).mp hd.rights).1 _ get?_fields
  have hfeatures := hb.eq_of_readTerms hs (by simp [Field.ofDocument]) get?_fields hd.extraFeatures
  have hformats := hb.eq_of_readTerms hs (by simp [Field.ofDocument]) get?_fields hd.extraFormats
  have hqualities :=
    hb.eq_of_readTerms hs (by simp [Field.ofDocument]) get?_fields hd.extraQualities
  have hextras := hb.extrasOf_eq.symm.trans hd.extras
  have hprofile := Except.ok.inj (hprofile.symm.trans (Checked.term_name level))
  injection hwidth with hwidth
  injection hheight with hheight
  exact {
    context := hcontext.symm
    id := Checked.text_eq_ok.mp hid
    profile := by rw [hprofile]; exact ha.profile
    width := hwidth.symm
    height := hheight.symm
    maxWidth := hmaxWidth
    maxHeight := hmaxHeight
    maxArea := hmaxArea
    sizes := Checked.forall₂_of_array hsizes
    tiles := Checked.forall₂_of_array htiles
    preferredFormats := by rw [hpreferred]; exact ha.preferredFormats
    rights := hrights
    extraFeatures := by rw [hfeatures]; exact ha.extraFeatures
    extraFormats := by rw [hformats]; exact ha.extraFormats
    extraQualities := by rw [hqualities]; exact ha.extraQualities
    extras := hextras.symm
    width_pos := hwidth ▸ ha.width
    height_pos := hheight ▸ ha.height
    maxWidth_pos := hmaxWidth ▸ ha.maxWidth
    maxHeight_pos := hmaxHeight ▸ ha.maxHeight
    maxArea_pos := hmaxArea ▸ ha.maxArea
    upscaling := by
      rw [hfeatures, Descriptor.declaresUpscalingLimit, hmaxWidth, hmaxArea, Bool.or_eq_true]
      exact ha.upscaling }

end DescriptorPlan

/-! ### Entries of a plan -/

/-- A field is given as an integer above zero. -/
def FieldName.GivesPositive (f : FieldName) (ms : Members) : Prop :=
  ∃ name n, f.find? ms = some (name, .int n) ∧ 0 < n

/-- An entry of `sizes` as an object with positive integers. Whatever else it holds has a spelling
in standard JSON. -/
def IsSizeObject (v : Json) : Prop :=
  ∃ ms, v = .object ms ∧ Field.width.GivesPositive ms ∧ Field.height.GivesPositive ms ∧
    ∀ m ∈ ms, m.2.isNonFinite = false

/-- An entry of `tiles` as an object with positive integers, the height if there is one, and at
least one scale factor. Whatever else it holds has a spelling in standard JSON. -/
def IsTileObject (v : Json) : Prop :=
  ∃ ms, v = .object ms ∧ Field.width.GivesPositive ms ∧
    (Field.height.find? ms = none ∨ (∃ name, Field.height.find? ms = some (name, .null)) ∨
      Field.height.GivesPositive ms) ∧
    (∃ name n ns, Field.scaleFactors.find? ms = some (name, .array ((n :: ns).map .int)) ∧
      ∀ m ∈ n :: ns, 0 < m) ∧
    ∀ m ∈ ms, m.2.isNonFinite = false

theorem FieldName.GivesPositive.pos {f : FieldName} {ms : Members} {n : ℤ}
    (h : f.GivesPositive ms) (hread : f.required ms Checked.integer = .ok n) : 0 < n := by
  obtain ⟨name, m, hfind, hm⟩ := h
  rw [required, hfind] at hread
  have := Checked.under_eq_ok.mp hread
  rw [Checked.integer_int] at this
  injection this with this
  exact this ▸ hm

/-- **An entry that is read from such an object** is in order and stays as it is written. -/
theorem IsSizeObject.settled {v : Json} {s : SizeEntry} (h : IsSizeObject v)
    (hread : SizeEntry.ofJson v = .ok s) :
    (0 < s.width ∧ 0 < s.height) ∧ s.settled.toJson = s.toJson := by
  obtain ⟨ms, hv, hwidth, hheight, hfinite⟩ := h
  obtain ⟨ms', hv', hfields⟩ := SizeEntry.fields_of_ofJson hread
  rw [hv] at hv'
  cases hv'
  refine ⟨⟨hwidth.pos hfields.width, hheight.pos hfields.height⟩, SizeEntry.toJson_settled ?_⟩
  rw [← hfields.extras]
  exact isNonFinite_of_mem_extrasOf hfinite

/-- The height of a tile as such an object gives it. -/
theorem height_pos_of_find? {ms : Members} {n? : Option ℤ}
    (h : Field.height.find? ms = none ∨ (∃ name, Field.height.find? ms = some (name, .null)) ∨
      Field.height.GivesPositive ms)
    (hread : Field.height.withDefault ms none (Checked.nullable Checked.integer) = .ok n?) :
    ∀ n ∈ n?, 0 < n := by
  unfold FieldName.withDefault at hread
  rcases h with hnone | ⟨name, hnull⟩ | ⟨name, m, hm, hpos⟩
  · rw [hnone] at hread
    injection hread with hread
    simp [← hread]
  · rw [hnull] at hread
    injection Checked.under_eq_ok.mp hread with hread
    simp [← hread]
  · rw [hm] at hread
    injection Checked.under_eq_ok.mp hread with hread
    simpa [← hread] using hpos

theorem IsTileObject.settled {v : Json} {t : TileEntry} (h : IsTileObject v)
    (hread : TileEntry.ofJson v = .ok t) :
    (t.Positive ∧ t.scaleFactors ≠ []) ∧ t.settled.toJson = t.toJson := by
  obtain ⟨ms, hv, hwidth, hheight, ⟨name, n, ns, hfind, hpos⟩, hfinite⟩ := h
  obtain ⟨ms', hv', hfields⟩ := TileEntry.fields_of_ofJson hread
  rw [hv] at hv'
  cases hv'
  have hwidth := hwidth.pos hfields.width
  have hheight := height_pos_of_find? hheight hfields.height
  have hfactors : t.scaleFactors = n :: ns := by
    have := hfields.scaleFactors
    rw [FieldName.required, hfind] at this
    exact Except.ok.inj ((Checked.under_eq_ok.mp this).symm.trans (Checked.array_integer _))
  refine ⟨⟨⟨hwidth, ?_, hfactors ▸ hpos⟩, by simp [hfactors]⟩, TileEntry.toJson_settled ?_⟩
  · unfold TileEntry.tileHeight
    cases hn : t.height with
    | none => exact hwidth
    | some m => exact hheight m hn
  · rw [← hfields.extras]
    exact isNonFinite_of_mem_extrasOf hfinite

/-! ### The three readers of a generated document -/

namespace Descriptor

variable {p : DescriptorPlan} {d : Descriptor}

/-- A generated descriptor has nothing beside its fields, so that each is found in its document. -/
theorem writtenIn_of_makes (h : p.Makes d) : d.WrittenIn d.toMembers :=
  writtenIn_toMembers (beside_of_extras_eq_nil h.extras)

/-- **The check of the shape** of a generated document finds an error only in its numbers. -/
theorem exists_check_of_makes (h : p.Makes d) (hid : Shape.AcceptsId p.id) :
    ∃ r, Shape.check d.toJson = .ok r ∧
      (r.errors = [] ↔ (∀ s ∈ d.sizes, 0 < s.width ∧ 0 < s.height) ∧
        ∀ t ∈ d.tiles, t.Positive ∧ t.scaleFactors ≠ []) ∧
      ∀ w ∈ r.warnings, ∀ name v, w ≠ .unknownEntry name v := by
  rw [h.id] at hid
  obtain ⟨r, hr, herrors, hwarnings⟩ :=
    Shape.exists_checkMembers (writtenIn_of_makes h) h.context hid fun t ht => by
      obtain ⟨v, -, hread⟩ := Outcome.exists_of_forall₂ h.tiles ht
      exact TileEntry.beside_of_ofJson hread
  refine ⟨r, hr, ?_, hwarnings⟩
  rw [herrors]
  constructor
  · exact fun hd => ⟨hd.sizes, hd.tiles⟩
  · rintro ⟨hsizes, htiles⟩
    exact ⟨h.width_pos, h.height_pos, h.maxWidth_pos, h.maxHeight_pos, h.maxArea_pos, hsizes,
      htiles, h.upscaling⟩

theorem ofJson_of_makes (h : p.Makes d) : ofJson d.toJson = .ok d.settled := by
  refine ofJson_toJson (beside_of_extras_eq_nil h.extras) ?_ ?_ ?_
  · intro items hitems
    rw [h.context] at hitems
    cases hitems
  · intro s hs
    obtain ⟨v, -, hread⟩ := Outcome.exists_of_forall₂ h.sizes hs
    exact SizeEntry.ofJson_toJson (SizeEntry.beside_of_ofJson hread)
  · intro t ht
    obtain ⟨v, -, hread⟩ := Outcome.exists_of_forall₂ h.tiles ht
    exact TileEntry.ofJson_toJson (TileEntry.beside_of_ofJson hread)

/-- **A generated descriptor is written** if what stands beside the fields of its entries has few
enough levels. -/
theorem write_of_makes (h : p.Makes d)
    (hsizes : ∀ s ∈ d.sizes, ∀ m ∈ s.extras, m.2.levels ≤ levelLimit)
    (htiles : ∀ t ∈ d.tiles, ∀ m ∈ t.extras, m.2.levels ≤ levelLimit) :
    d.write = .ok d.toJson := by
  have hcontext : ∀ v ∈ d.context.items, v.levels ≤ levelLimit := by
    rw [h.context]
    nofun
  exact write_eq_ok_iff.mpr
    ⟨forall_mem_undescribed.mpr ⟨hcontext, hsizes, htiles, by simp [h.extras]⟩, rfl⟩

/-- What stands beside the fields of an entry has fewer levels than the entry. -/
theorem levels_le_of_mem_extras {fields : List FieldName} {ms es : Members}
    (hes : extrasOf fields ms = es) (h : (Json.object ms).levels ≤ levelLimit + 1) :
    ∀ m ∈ es, m.2.levels ≤ levelLimit := by
  intro m hm
  rw [← hes] at hm
  have := Json.levels_lt_of_mem (List.mem_of_mem_filter hm)
  omega

theorem has_limit_of_makes (h : p.Makes d) {vs : List Json}
    (hvs : get? d.toMembers "extraFeatures" = some (.array vs))
    (hmem : .text Feature.sizeUpscaling.name ∈ vs) :
    has d.toMembers "maxWidth" = true ∨ has d.toMembers "maxArea" = true := by
  have hw := writtenIn_of_makes h
  rw [hw.extraFeatures, namesToJson, Json.unlessEmpty_array] at hvs
  split_ifs at hvs
  cases hvs
  obtain ⟨f, hf, hname⟩ := List.mem_map.mp hmem
  have hf' : f = .sizeUpscaling := Vocabulary.name_inj.mp (Json.text.inj hname)
  rw [Shape.has_map hw.maxWidth, Shape.has_map hw.maxArea, ← Bool.or_eq_true]
  exact h.upscaling (hf' ▸ hf)

theorem compliant_profile (d : Descriptor) : (d.checkLevel d.profile).compliant = true := by
  rw [compliant_iff]
  refine ⟨fun f hf => ?_, fun f hf => ?_, fun q hq => ?_⟩
  · simp [hasFeature, hf]
  · simp [hasFormat, hf]
  · simp [hasQuality, hq]

/-- **A generated descriptor is consistent.** If the id is accepted and sizes and tiles are objects
with positive integers, then the document passes the check of its shape without an unknown entry,
lists `sizeUpscaling` only beside a bound, is read again as it was written, and complies with the
level that was asked for. If moreover no size and no layout of tiles has too many levels, then the
descriptor is written, and written again after it was read. -/
theorem generated_consistent (h : generate p = .ok d) (hid : Shape.AcceptsId p.id)
    (hsizes : ∀ v ∈ p.sizes, IsSizeObject v) (htiles : ∀ v ∈ p.tiles, IsTileObject v) :
    (∃ r, Shape.check d.toJson = .ok r ∧ r.errors = [] ∧
      ∀ w ∈ r.warnings, ∀ name v, w ≠ .unknownEntry name v) ∧
    (∀ vs, get? d.toMembers "extraFeatures" = some (.array vs) →
      .text Feature.sizeUpscaling.name ∈ vs →
      has d.toMembers "maxWidth" = true ∨ has d.toMembers "maxArea" = true) ∧
    (∃ d', ofJson d.toJson = .ok d' ∧ d'.toJson = d.toJson) ∧
    (∃ level, p.level.requireTerm = .ok level ∧ (d.checkLevel level).compliant = true) ∧
    ((∀ v ∈ p.sizes ++ p.tiles, v.levels ≤ levelLimit + 1) → d.write = .ok d.toJson ∧
      ∃ d', ofJson d.toJson = .ok d' ∧ d'.write = .ok d.toJson) := by
  have hm := DescriptorPlan.makes_of_generate h
  have hs : ∀ s ∈ d.sizes, (0 < s.width ∧ 0 < s.height) ∧ s.settled.toJson = s.toJson := by
    intro s hs
    obtain ⟨v, hv, hread⟩ := Outcome.exists_of_forall₂ hm.sizes hs
    exact (hsizes v hv).settled hread
  have ht : ∀ t ∈ d.tiles,
      (t.Positive ∧ t.scaleFactors ≠ []) ∧ t.settled.toJson = t.toJson := by
    intro t ht
    obtain ⟨v, hv, hread⟩ := Outcome.exists_of_forall₂ hm.tiles ht
    exact (htiles v hv).settled hread
  obtain ⟨r, hr, herrors, hwarnings⟩ := exists_check_of_makes hm hid
  have hnone := herrors.mpr ⟨fun s hs' => (hs s hs').1, fun t ht' => (ht t ht').1⟩
  have hsame : d.settled.toJson = d.toJson :=
    toJson_settled (fun s hs' => (hs s hs').2) (fun t ht' => (ht t ht').2) (by simp [hm.extras])
  refine ⟨⟨r, hr, hnone, hwarnings⟩, fun vs hvs hmem => has_limit_of_makes hm hvs hmem,
    ⟨d.settled, ofJson_of_makes hm, hsame⟩, ⟨d.profile, hm.profile, d.compliant_profile⟩,
    fun hlevels => ?_⟩
  have hwrite : d.write = .ok d.toJson := by
    refine write_of_makes hm (fun s hs' => ?_) fun t ht' => ?_
    · obtain ⟨v, hv, hread⟩ := Outcome.exists_of_forall₂ hm.sizes hs'
      obtain ⟨es, rfl, hfields⟩ := SizeEntry.fields_of_ofJson hread
      exact levels_le_of_mem_extras hfields.extras (hlevels _ (List.mem_append_left _ hv))
    · obtain ⟨v, hv, hread⟩ := Outcome.exists_of_forall₂ hm.tiles ht'
      obtain ⟨es, rfl, hfields⟩ := TileEntry.fields_of_ofJson hread
      exact levels_le_of_mem_extras hfields.extras (hlevels _ (List.mem_append_right _ hv))
  have hlevels := levels_le_settled (write_eq_ok_iff.mp hwrite).1
  exact ⟨hwrite, d.settled, ofJson_of_makes hm, write_eq_ok_iff.mpr ⟨hlevels, hsame⟩⟩

/-- A service of level 1 that enlarges up to a width, with a size and a layout of tiles that states
its scale factors under their second name. -/
def enlarging : DescriptorPlan where
  id := .text "https://example.org/iiif/1"
  width := 4000
  height := 3000
  level := .text "level1"
  sizes := [.object [("width", .int 400), ("height", .int 300), ("note", .text "preview")]]
  tiles := [.object [("type", .text "Tile"), ("width", .int 512), ("height", .null),
    ("scale_factors", .array [.int 1, .int 2])]]
  maxWidth := some 8000
  maxHeight := none
  maxArea := none
  extraFeatures := [.text "sizeUpscaling", .text "mirroring"]
  extraFormats := [.text "webp"]
  extraQualities := []
  preferredFormats := [.text "webp", .text "jpg"]
  rights := .text "http://rightsstatements.org/vocab/NoC-US/1.0/"

theorem generated_consistent_of_enlarging : ∃ d, generate enlarging = .ok d ∧
    (∃ r, Shape.check d.toJson = .ok r ∧ r.errors = [] ∧
      ∀ w ∈ r.warnings, ∀ name v, w ≠ .unknownEntry name v) ∧
    (∀ vs, get? d.toMembers "extraFeatures" = some (.array vs) →
      .text Feature.sizeUpscaling.name ∈ vs →
      has d.toMembers "maxWidth" = true ∨ has d.toMembers "maxArea" = true) ∧
    (∃ d', ofJson d.toJson = .ok d' ∧ d'.toJson = d.toJson) ∧
    (∃ level, enlarging.level.requireTerm = .ok level ∧ (d.checkLevel level).compliant = true) ∧
    d.write = .ok d.toJson ∧ ∃ d', ofJson d.toJson = .ok d' ∧ d'.write = .ok d.toJson := by
  have hid : Shape.AcceptsId enlarging.id := ⟨⟨[], []⟩, by rfl, rfl⟩
  obtain ⟨d, hd⟩ : ∃ d, generate enlarging = .ok d := ⟨_, rfl⟩
  have hsizes : ∀ v ∈ enlarging.sizes, IsSizeObject v := by
    intro v hv
    obtain rfl := List.mem_singleton.mp hv
    refine ⟨_, rfl, ⟨"width", 400, rfl, by decide⟩, ⟨"height", 300, rfl, by decide⟩, ?_⟩
    simp [Json.isNonFinite]
  have htiles : ∀ v ∈ enlarging.tiles, IsTileObject v := by
    intro v hv
    obtain rfl := List.mem_singleton.mp hv
    refine ⟨_, rfl, ⟨"width", 512, rfl, by decide⟩, .inr (.inl ⟨"height", rfl⟩),
      ⟨"scale_factors", 1, [2], rfl, by decide⟩, ?_⟩
    simp [Json.isNonFinite]
  obtain ⟨hshape, hlimit, hreread, hlevel, hwrite⟩ := generated_consistent hd hid hsizes htiles
  exact ⟨d, hd, hshape, hlimit, hreread, hlevel, hwrite (by decide)⟩

end Descriptor

end IiifRules
