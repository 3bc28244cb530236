import Mathlib
import IiifRules.Proofs.Descriptor.Shape
import IiifRules.Proofs.Descriptor.Writer

/-! # The shape of a written document

What the check of the shape finds in a document that a descriptor was written to. The names,
constants and terms of such a document are always in order, so that only its id and its numbers can
be at fault.

* `Descriptor.Sound`: the numbers of a descriptor are in order.
* `Shape.exists_checkMembers`: the check finds no error in a written document exactly if the
  descriptor is sound, and never an unknown entry. -/

namespace IiifRules

open Json (Members get? has)

/-- The numbers of a descriptor are in order. -/
structure Descriptor.Sound (d : Descriptor) : Prop where
  width : 0 < d.width
  height : 0 < d.height
  maxWidth : ∀ n ∈ d.maxWidth, 0 < n
  maxHeight : ∀ n ∈ d.maxHeight, 0 < n
  maxArea : ∀ n ∈ d.maxArea, 0 < n
  sizes : ∀ s ∈ d.sizes, 0 < s.width ∧ 0 < s.height
  tiles : ∀ t ∈ d.tiles, t.Positive ∧ t.scaleFactors ≠ []
  upscaling : Feature.sizeUpscaling ∈ d.extraFeatures → d.declaresUpscalingLimit = true

namespace Shape

variable {ms : Members} {name : String} {place : ShapePlace} {v : Json} {i : ℕ}

/-! ### Numbers -/

theorem checkPositive_int {n : ℤ} (h : get? ms name = some (.int n)) :
    checkPositive ms name place = [] ↔ 0 < n := by
  rw [checkPositive_eq_nil, h]
  simp

theorem checkPositiveIfThere_map {n? : Option ℤ} (h : get? ms name = n?.map .int) :
    checkPositiveIfThere ms name place = [] ↔ ∀ n ∈ n?, 0 < n := by
  rw [checkPositiveIfThere_eq_nil, h]
  cases n? <;> simp

/-! ### Entries -/

theorem checkSize_toJson (s : SizeEntry) :
    checkSize i s.toJson = [] ↔ 0 < s.width ∧ 0 < s.height := by
  have hget : ∀ {name : String} {v : Json}, get? (Json.present s.ownFields) name = some v →
      get? (Json.present s.ownFields ++ givenMembers s.extras) name = some v := by
    intro name v h
    rw [Json.get?_append, h, Option.some_or]
  rw [SizeEntry.toJson_eq, checkSize, List.append_eq_nil_iff,
    checkPositive_int (hget SizeEntry.get?_ownFields),
    checkPositive_int (hget SizeEntry.get?_ownFields)]

theorem areScaleFactors_map (ns : List ℤ) :
    areScaleFactors (some (.array (ns.map .int))) = true ↔ ns ≠ [] ∧ ∀ n ∈ ns, 0 < n := by
  simp [areScaleFactors, isPositive]

theorem checkTile_toJson {t : TileEntry}
    (h : FieldName.Beside Field.ofTile (Json.present t.ownFields) t.extras) :
    checkTile i t.toJson = [] ↔ t.Positive ∧ t.scaleFactors ≠ [] := by
  have h' := h.of_names exists_of_mem_givenMembers
  rw [TileEntry.toJson_eq]
  set ms := Json.present t.ownFields ++ givenMembers t.extras with hms
  have hget : ∀ f ∈ Field.ofTile, get? ms f.own = (t.ownFields.lookup f.own).join :=
    fun f hf => (h'.get?_own hf).trans TileEntry.get?_ownFields
  have hwidth : get? ms "width" = some (.int t.width) :=
    hget Field.width (by simp [Field.ofTile])
  have hheight : get? ms "height" = t.height.map .int :=
    hget Field.height (by simp [Field.ofTile])
  have hfactors : get? ms "scaleFactors" = some (.array (t.scaleFactors.map .int)) :=
    hget Field.scaleFactors (by simp [Field.ofTile])
  rw [checkTile, List.append_eq_nil_iff, List.append_eq_nil_iff, checkPositive_int hwidth,
    checkPositiveIfThere_map hheight, hfactors, ite_eq_left_iff]
  simp only [List.cons_ne_nil, imp_false, not_not]
  rw [areScaleFactors_map]
  constructor
  · rintro ⟨⟨hwidth, hheight⟩, hne, hpos⟩
    refine ⟨⟨hwidth, ?_, hpos⟩, hne⟩
    unfold TileEntry.tileHeight
    cases hn : t.height with
    | none => exact hwidth
    | some n => exact hheight n hn
  · rintro ⟨hpos, hne⟩
    refine ⟨⟨hpos.width, fun n hn => ?_⟩, hne, hpos.scaleFactors⟩
    have := hpos.tileHeight
    rw [TileEntry.tileHeight, Option.mem_def.mp hn] at this
    exact this

/-- **Entries as they are written** are in order if each of them is. -/
theorem checkEntries_map {α : Type} {write : α → Json} {as : List α} {P : α → Prop}
    {check : ℕ → Json → List ShapeError} (h : ∀ a ∈ as, ∀ i, check i (write a) = [] ↔ P a) :
    checkEntries check i (as.map write) = [] ↔ ∀ a ∈ as, P a := by
  induction as generalizing i with
  | nil => simp [checkEntries]
  | cons a as ih =>
    rw [List.map_cons, checkEntries, List.append_eq_nil_iff, h a (by simp),
      ih fun b hb => h b (List.mem_cons_of_mem a hb), List.forall_mem_cons]

theorem given?_of_unlessEmpty {vs : List Json} (h : get? ms name = (Json.array vs).unlessEmpty) :
    given? ms name = (Json.array vs).unlessEmpty := by
  rw [given?, h, Json.unlessEmpty_array]
  by_cases hvs : vs = []
  · rw [if_pos hvs]
  · rw [if_neg hvs]

theorem checkList_map {α : Type} {write : α → Json} {as : List α} {P : α → Prop}
    {check : ℕ → Json → List ShapeError}
    (hget : get? ms name = (Json.array (as.map write)).unlessEmpty)
    (h : ∀ a ∈ as, ∀ i, check i (write a) = [] ↔ P a) :
    checkList ms name check = [] ↔ ∀ a ∈ as, P a := by
  unfold checkList
  rw [given?_of_unlessEmpty hget, Json.unlessEmpty_array]
  by_cases has : as = []
  · simp [has]
  · rw [if_neg (by simpa using has)]
    exact checkEntries_map h

/-! ### Terms -/

theorem checkTerms_namesToJson {α : Type} [Vocabulary α] [Vocabulary.Lawful α] (ts : List α) :
    checkTerms α name (namesToJson ts) = .ofErrors [] := by
  have : (ts.map fun t => Json.text (Vocabulary.name t)).filter
      (fun v => (v.term? α).isNone) = [] := by
    simp [List.filter_eq_nil_iff, Json.term?_name]
  rw [namesToJson, checkTerms, this]
  rfl

theorem checkExtras_namesToJson {α : Type} [Vocabulary α] [Vocabulary.Lawful α] {ts : List α}
    (h : get? ms name = (namesToJson ts).unlessEmpty) : checkExtras α ms name = .ofErrors [] := by
  rw [checkExtras, h, Json.unlessEmpty]
  cases (namesToJson ts).isEmptyArray with
  | true => rfl
  | false => exact checkTerms_namesToJson ts

/-- **Extra features as they are written** lack no bound if one of the two is written. -/
theorem checkFeatures_namesToJson {ts : List Feature}
    (h : get? ms "extraFeatures" = (namesToJson ts).unlessEmpty) :
    (checkFeatures ms).warnings = [] ∧ ((checkFeatures ms).errors = [] ↔
      (.sizeUpscaling ∈ ts → has ms "maxWidth" = true ∨ has ms "maxArea" = true)) := by
  have hany : (ts.map fun t => Json.text (Vocabulary.name t)).any
      (·.isText Feature.sizeUpscaling.name) = true ↔ .sizeUpscaling ∈ ts := by
    simp [Json.isText, Feature.name, Vocabulary.name_inj]
  rw [namesToJson] at h
  unfold checkFeatures
  rw [given?_of_unlessEmpty h, Json.unlessEmpty_array]
  by_cases hts : ts = []
  · simp [hts, Report.ofErrors]
  · rw [if_neg (by simpa using hts)]
    dsimp only
    rw [← namesToJson, checkTerms_namesToJson, namesToJson, checkUpscaling]
    refine ⟨rfl, ?_⟩
    rw [Report.errors_append, Report.errors_ofErrors, Report.errors_ofErrors, List.nil_append]
    simp only [Bool.and_eq_true, Bool.not_eq_true', hany, ite_eq_right_iff, List.cons_ne_nil,
      imp_false, not_and, Bool.not_eq_false]
    rw [and_imp]
    exact imp_congr_right fun _ => by cases has ms "maxWidth" <;> simp

/-! ### Documents -/

/-- The check of ids finds no error in a value. -/
def AcceptsId (v : Json) : Prop := ∃ r, checkId [("id", v)] = .ok r ∧ r.errors = []

theorem checkId_congr {ms' : Members} (h : get? ms "id" = get? ms' "id") :
    checkId ms = checkId ms' := by
  unfold checkId given?
  rw [h]

theorem warnings_checkId {r : ShapeReport} (h : checkId ms = .ok r) :
    ∀ w ∈ r.warnings, w = .trailingSlash := by
  rcases checkId_cases h with rfl | rfl | rfl | rfl <;> simp

theorem mem_checkLevelZero {w : ShapeWarning} (h : w ∈ checkLevelZero ms) :
    w = .levelZeroWithoutSizes := by
  unfold checkLevelZero at h
  split_ifs at h
  · exact List.mem_singleton.mp h
  · cases h

theorem has_map {α : Type} {write : α → Json} {a? : Option α} (h : get? ms name = a?.map write) :
    has ms name = a?.isSome := by
  rw [has, h, Option.isSome_map]

/-- **What the check finds in a written document**: an error exactly if a number is not in order,
and never an entry that it does not know. -/
theorem exists_checkMembers {d : Descriptor} (h : d.WrittenIn ms)
    (hcontext : d.context = .uri imageContext) (hid : AcceptsId (.text d.id))
    (htiles : ∀ t ∈ d.tiles,
      FieldName.Beside Field.ofTile (Json.present t.ownFields) t.extras) :
    ∃ r, checkMembers ms = .ok r ∧ (r.errors = [] ↔ d.Sound) ∧
      ∀ w ∈ r.warnings, ∀ name v, w ≠ .unknownEntry name v := by
  obtain ⟨id, hid, hnone⟩ := hid
  have hid : checkId ms = .ok id := (checkId_congr (by rw [h.id]; rfl)).trans hid
  have hcontext : checkContext ms = [] := by
    have hget : get? ms "@context" = some (.text imageContext) := by rw [h.context, hcontext]; rfl
    exact checkContext_eq_nil.mpr (.inl hget)
  obtain ⟨hnone', hfeatures⟩ := checkFeatures_namesToJson h.extraFeatures
  have hformats := checkExtras_namesToJson h.extraFormats
  have hqualities := checkExtras_namesToJson h.extraQualities
  have hsizes : checkList ms "sizes" checkSize = [] ↔ ∀ s ∈ d.sizes, 0 < s.width ∧ 0 < s.height :=
    checkList_map h.sizes fun s _ _ => checkSize_toJson s
  have htiles : checkList ms "tiles" checkTile = [] ↔
      ∀ t ∈ d.tiles, t.Positive ∧ t.scaleFactors ≠ [] :=
    checkList_map h.tiles fun t ht _ => checkTile_toJson (htiles t ht)
  unfold checkMembers
  rw [hid, Outcome.ok_bind]
  refine ⟨_, rfl, ?_, ?_⟩
  · simp only [Report.errors_append, Report.errors_ofErrors, Report.errors_ofWarnings,
      List.append_eq_nil_iff, hcontext, hnone, checkConstant_eq_nil.mpr h.type,
      checkConstant_eq_nil.mpr h.protocol, checkProfile_eq_nil.mpr ⟨_, h.profile⟩,
      checkPositive_int h.width, checkPositive_int h.height, checkPositiveIfThere_map h.maxWidth,
      checkPositiveIfThere_map h.maxHeight, checkPositiveIfThere_map h.maxArea, hsizes, htiles,
      hfeatures, hformats, hqualities, true_and, and_true, has_map h.maxWidth, has_map h.maxArea]
    constructor
    · rintro ⟨⟨⟨⟨⟨⟨hw, hh⟩, hmw⟩, hmh⟩, hma⟩, hs, ht⟩, hu⟩
      exact ⟨hw, hh, hmw, hmh, hma, hs, ht, by simpa [Descriptor.declaresUpscalingLimit] using hu⟩
    · intro hd
      exact ⟨⟨⟨⟨⟨⟨hd.width, hd.height⟩, hd.maxWidth⟩, hd.maxHeight⟩, hd.maxArea⟩, hd.sizes,
          hd.tiles⟩,
        by simpa [Descriptor.declaresUpscalingLimit] using hd.upscaling⟩
  · simp only [Report.warnings_append, Report.warnings_ofErrors, Report.warnings_ofWarnings,
      hnone', hformats, hqualities, List.nil_append, List.append_nil]
    intro w hw
    rcases List.mem_append.mp hw with hw | hw
    · rw [warnings_checkId hid w hw]
      exact nofun
    · rw [mem_checkLevelZero hw]
      exact nofun

end Shape

end IiifRules
