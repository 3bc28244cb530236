import Mathlib
import IiifRules.Proofs.Descriptor.Shape
import IiifRules.Proofs.Descriptor.Answered

/-! # Which documents have the right shape

What a proper document is, by the values of its members alone, and that the check of the shape finds
no error in a document exactly if it is proper.

* `Shape.PositiveAt`, `Shape.IsSize`, `Shape.IsTile`, `Uri.IsHttp`: what single members have to be.
* `Shape.Proper`: the members of a proper document.
* `Shape.errors_eq_nil_iff`: no errors are found in these, and in no others. -/

namespace IiifRules

open Json (Members get? has)

/-- **A URI under `http` or `https`** with an authority. -/
def Uri.IsHttp (s : String) : Prop :=
  ∃ scheme authority, Uri.splitAuthority s.toList = .ok (scheme, authority) ∧
    (scheme = "http".toList ∨ scheme = "https".toList) ∧ authority ≠ []

theorem Uri.hasHttpAuthority_eq_ok {s : String} {b : Bool} (h : Uri.hasHttpAuthority s = .ok b) :
    b = true ↔ Uri.IsHttp s := by
  obtain ⟨⟨scheme, authority⟩, hparts, hb⟩ := Outcome.bind_eq_ok.mp h
  injection hb with hb
  rw [← hb, Bool.and_eq_true, Bool.or_eq_true, decide_eq_true_eq, decide_eq_true_eq,
    Bool.not_eq_true', List.isEmpty_eq_false_iff]
  constructor
  · rintro ⟨hscheme, hauthority⟩
    exact ⟨scheme, authority, hparts, hscheme, hauthority⟩
  · rintro ⟨scheme', authority', hparts', hscheme, hauthority⟩
    cases hparts.symm.trans hparts'
    exact ⟨hscheme, hauthority⟩

namespace Shape

variable {ms : Members} {name : String} {v : Json}

/-! ### Members -/

/-- A member that is an integer above zero. -/
def PositiveAt (ms : Members) (name : String) : Prop :=
  ∃ n : ℤ, get? ms name = some (.int n) ∧ 0 < n

/-- A member that is absent or an integer above zero. -/
def PositiveIfThere (ms : Members) (name : String) : Prop :=
  get? ms name = none ∨ PositiveAt ms name

/-- Scale factors: some integers, all above zero. -/
def HasScaleFactors (ms : Members) : Prop :=
  ∃ vs, get? ms "scaleFactors" = some (.array vs) ∧ vs ≠ [] ∧
    ∀ v ∈ vs, ∃ n : ℤ, v = .int n ∧ 0 < n

/-- **An entry of `sizes`.** -/
def IsSize (v : Json) : Prop :=
  ∃ ms, v = .object ms ∧ PositiveAt ms "width" ∧ PositiveAt ms "height"

/-- **An entry of `tiles`.** -/
def IsTile (v : Json) : Prop :=
  ∃ ms, v = .object ms ∧ PositiveAt ms "width" ∧ PositiveIfThere ms "height" ∧ HasScaleFactors ms

/-- A member that is absent or an array. -/
def ArrayIfThere (ms : Members) (name : String) : Prop :=
  get? ms name = none ∨ ∃ vs, get? ms name = some (.array vs)

/-- A member that is absent, null or an array of values that satisfy `P`. -/
def ArrayIfGiven (ms : Members) (name : String) (P : Json → Prop) : Prop :=
  get? ms name = none ∨ get? ms name = some .null ∨
    ∃ vs, get? ms name = some (.array vs) ∧ ∀ v ∈ vs, P v

/-- **The members of a proper document.** -/
structure Proper (ms : Members) : Prop where
  context : get? ms "@context" = some (.text imageContext) ∨
    ∃ vs, get? ms "@context" = some (.array vs) ∧ vs.getLast? = some (.text imageContext)
  id : ∃ s, get? ms "id" = some (.text s) ∧ s ≠ "" ∧ Uri.IsHttp s
  type : get? ms "type" = some (.text imageServiceType)
  protocol : get? ms "protocol" = some (.text imageProtocol)
  profile : ∃ level : ComplianceLevel, get? ms "profile" = some (.text level.name)
  width : PositiveAt ms "width"
  height : PositiveAt ms "height"
  maxWidth : PositiveIfThere ms "maxWidth"
  maxHeight : PositiveIfThere ms "maxHeight"
  maxArea : PositiveIfThere ms "maxArea"
  sizes : ArrayIfGiven ms "sizes" IsSize
  tiles : ArrayIfGiven ms "tiles" IsTile
  extraFeatures : ArrayIfGiven ms "extraFeatures" fun _ => True
  extraFormats : ArrayIfThere ms "extraFormats"
  extraQualities : ArrayIfThere ms "extraQualities"
  upscaling : ∀ vs, get? ms "extraFeatures" = some (.array vs) →
    .text Feature.sizeUpscaling.name ∈ vs → has ms "maxWidth" = true ∨ has ms "maxArea" = true

/-! ### Single checks -/

/-- **The id** is a text that is a URI under `http` or `https`. -/
theorem errors_checkId {id : ShapeReport} (h : checkId ms = .ok id) : id.errors = [] ↔
    ∃ s, get? ms "id" = some (.text s) ∧ s ≠ "" ∧ Uri.IsHttp s := by
  unfold checkId at h
  split at h
  · rename_i hgiven
    injection h with h
    rcases given?_eq_none.mp hgiven with hget | hget <;> simp [← h, hget, Report.ofErrors]
  · rename_i s hgiven
    have hget := (given?_eq_some.mp hgiven).1
    simp only [hget, Option.some.injEq, Json.text.injEq, exists_eq_left']
    by_cases hs : s = ""
    · rw [if_pos hs] at h
      injection h with h
      simp [← h, hs, Report.ofErrors]
    · rw [if_neg hs] at h
      obtain ⟨http, hhttp, h⟩ := Outcome.bind_eq_ok.mp h
      rw [← Uri.hasHttpAuthority_eq_ok hhttp, and_iff_right hs]
      cases http with
      | false =>
        injection h with h
        simp [← h, Report.ofErrors]
      | true =>
        simp only [Bool.not_true, Bool.false_eq_true, if_false] at h
        split_ifs at h <;> injection h with h <;> simp [← h, Report.ofErrors, Report.ofWarnings]
  · rename_i v hnot hgiven
    injection h with h
    have hget := (given?_eq_some.mp hgiven).1
    simp only [← h, Report.errors_ofErrors, List.cons_ne_nil, hget, Option.some.injEq, false_iff]
    rintro ⟨s, rfl, -⟩
    exact hnot s rfl

theorem checkEntries_eq_nil_iff {check : ℕ → Json → List ShapeError} {P : Json → Prop}
    (hP : ∀ i v, check i v = [] ↔ P v) (i : ℕ) (vs : List Json) :
    checkEntries check i vs = [] ↔ ∀ v ∈ vs, P v := by
  induction vs generalizing i with
  | nil => simp [checkEntries]
  | cons v vs ih => rw [checkEntries, List.append_eq_nil_iff, hP, ih, List.forall_mem_cons]

theorem checkList_eq_nil_iff {check : ℕ → Json → List ShapeError} {P : Json → Prop}
    (hP : ∀ i v, check i v = [] ↔ P v) :
    checkList ms name check = [] ↔ ArrayIfGiven ms name P := by
  unfold checkList ArrayIfGiven
  split
  · rename_i hgiven
    rcases given?_eq_none.mp hgiven with hget | hget <;> simp [hget]
  · rename_i vs hgiven
    rw [checkEntries_eq_nil_iff hP]
    simp [(given?_eq_some.mp hgiven).1]
  · rename_i v hnot hgiven
    obtain ⟨hget, hnull⟩ := given?_eq_some.mp hgiven
    simp only [List.cons_ne_nil, hget, reduceCtorEq, Option.some.injEq, hnull, false_or, false_iff]
    rintro ⟨vs, rfl, -⟩
    exact hnot vs rfl

theorem checkSizes_eq_nil : checkList ms name checkSize = [] ↔ ArrayIfGiven ms name IsSize :=
  checkList_eq_nil_iff fun _ _ => checkSize_eq_nil

theorem checkTile_eq_nil_iff {i : ℕ} : checkTile i v = [] ↔ IsTile v := by
  simp only [checkTile_eq_nil, areScaleFactors_iff]
  rfl

theorem checkTiles_eq_nil : checkList ms name checkTile = [] ↔ ArrayIfGiven ms name IsTile :=
  checkList_eq_nil_iff fun _ _ => checkTile_eq_nil_iff

/-- Enlarging is bounded. -/
theorem checkUpscaling_eq_nil {vs : List Json} : checkUpscaling ms (.array vs) = [] ↔
    (.text Feature.sizeUpscaling.name ∈ vs →
      has ms "maxWidth" = true ∨ has ms "maxArea" = true) := by
  have hany : vs.any (·.isText Feature.sizeUpscaling.name) = true ↔
      .text Feature.sizeUpscaling.name ∈ vs := by
    simp [Json.isText_iff]
  simp only [checkUpscaling, ite_eq_right_iff, List.cons_ne_nil, imp_false, Bool.and_eq_true, hany,
    Bool.not_eq_true', ← Bool.not_eq_true]
  tauto

theorem errors_checkFeatures : (checkFeatures ms).errors = [] ↔
    ArrayIfGiven ms "extraFeatures" (fun _ => True) ∧
    ∀ vs, get? ms "extraFeatures" = some (.array vs) → .text Feature.sizeUpscaling.name ∈ vs →
      has ms "maxWidth" = true ∨ has ms "maxArea" = true := by
  unfold checkFeatures ArrayIfGiven
  split
  · rename_i hgiven
    rcases given?_eq_none.mp hgiven with hget | hget <;> simp [hget]
  · rename_i v hgiven
    obtain ⟨hget, hnull⟩ := given?_eq_some.mp hgiven
    simp only [Report.errors_append, Report.errors_ofErrors, List.append_eq_nil_iff,
      errors_checkTerms, hget, Option.some.injEq, hnull, reduceCtorEq, false_or, implies_true,
      and_true]
    refine and_congr_right ?_
    rintro ⟨vs, rfl⟩
    simp only [Json.array.injEq, forall_eq', checkUpscaling_eq_nil]

/-! ### All checks -/

/-- **No error is found** in the members of a document exactly if it is proper. -/
theorem errors_eq_nil_iff {r : ShapeReport} (h : checkMembers ms = .ok r) :
    r.errors = [] ↔ Proper ms := by
  obtain ⟨id, hid, herrors⟩ := errors_of_checkMembers h
  rw [herrors]
  simp only [List.append_eq_nil_iff, checkContext_eq_nil, errors_checkId hid, checkConstant_eq_nil,
    checkProfile_eq_nil, checkPositive_eq_nil, checkPositiveIfThere_eq_nil, checkSizes_eq_nil,
    checkTiles_eq_nil, errors_checkFeatures, errors_checkExtras, and_assoc]
  constructor
  · rintro ⟨hcontext, hid, htype, hprotocol, hprofile, hwidth, hheight, hmaxWidth, hmaxHeight,
      hmaxArea, hsizes, htiles, hfeatures, hupscaling, hformats, hqualities⟩
    exact ⟨hcontext, hid, htype, hprotocol, hprofile, hwidth, hheight, hmaxWidth, hmaxHeight,
      hmaxArea, hsizes, htiles, hfeatures, hformats, hqualities, hupscaling⟩
  · intro h
    exact ⟨h.context, h.id, h.type, h.protocol, h.profile, h.width, h.height, h.maxWidth,
      h.maxHeight, h.maxArea, h.sizes, h.tiles, h.extraFeatures, h.upscaling, h.extraFormats,
      h.extraQualities⟩

end Shape

end IiifRules
