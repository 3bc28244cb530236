import Mathlib
import IiifRules.Descriptor.Shape
import IiifRules.Proofs.Descriptor.Reader
import IiifRules.Proofs.Json.Term
import IiifRules.Proofs.Outcome

/-! # What an accepted shape says of a document

A document in which the check of its shape finds no error gives its names and constants as texts and
its lengths as integers above zero, so that they are read as they stand.

* `Shape.checkPositive_eq_nil`, `Shape.checkTile_eq_nil`: what it means that a check finds nothing.
* `Shape.Accepted`: the members of a document of an accepted shape; `exists_accepted` says that they
  are as it states.
* `Descriptor.positive_of_shape`: width and height of the image and all lengths of its tile layouts
  are positive. -/

namespace IiifRules

/-- The lengths and factors of a layout of tiles are positive. -/
structure TileEntry.Positive (t : TileEntry) : Prop where
  width : 0 < t.width
  tileHeight : 0 < t.tileHeight
  scaleFactors : ∀ s ∈ t.scaleFactors, 0 < s

/-! ### The findings of several checks -/

namespace Report

variable {ε ω : Type}

@[simp]
theorem errors_append (r s : Report ε ω) : (r ++ s).errors = r.errors ++ s.errors := rfl

@[simp]
theorem errors_ofErrors (es : List ε) : (ofErrors es : Report ε ω).errors = es := rfl

@[simp]
theorem errors_ofWarnings (ws : List ω) : (ofWarnings ws : Report ε ω).errors = [] := rfl

@[simp]
theorem warnings_append (r s : Report ε ω) : (r ++ s).warnings = r.warnings ++ s.warnings := rfl

@[simp]
theorem warnings_ofErrors (es : List ε) : (ofErrors es : Report ε ω).warnings = [] := rfl

@[simp]
theorem warnings_ofWarnings (ws : List ω) : (ofWarnings ws : Report ε ω).warnings = ws := rfl

end Report

namespace Shape

open Json (Members)

variable {ms : Members} {name : String} {place : ShapePlace} {v : Json}

/-- A member that is not given is absent or null. -/
theorem given?_eq_none : given? ms name = none ↔
    Json.get? ms name = none ∨ Json.get? ms name = some .null := by
  unfold given?
  split
  · rename_i hnull
    simp [hnull]
  · rename_i hnull
    exact (or_iff_left hnull).symm

theorem given?_eq_some :
    given? ms name = some v ↔ Json.get? ms name = some v ∧ v ≠ .null := by
  unfold given?
  split
  · rename_i hnull
    simp only [reduceCtorEq, hnull, Option.some.injEq, false_iff, not_and, not_not]
    exact Eq.symm
  · rename_i hnull
    refine ⟨fun h => ⟨h, ?_⟩, And.left⟩
    rintro rfl
    exact hnull h

theorem isPositive_iff : isPositive v = true ↔ ∃ n : ℤ, v = .int n ∧ 0 < n := by
  cases v with
  | int n => simp [isPositive]
  | _ => simp [isPositive]

/-- **A positive property** is given as an integer above zero. -/
theorem checkPositive_eq_nil :
    checkPositive ms name place = [] ↔ ∃ n : ℤ, Json.get? ms name = some (.int n) ∧ 0 < n := by
  unfold checkPositive
  cases hv : Json.get? ms name with
  | none => simp
  | some v =>
    by_cases hpos : isPositive v = true
    · simpa [hpos] using isPositive_iff.mp hpos
    · have hnot := mt isPositive_iff.mpr hpos
      simpa [hpos] using hnot

theorem checkPositiveIfThere_eq_nil : checkPositiveIfThere ms name place = [] ↔
    Json.get? ms name = none ∨ ∃ n : ℤ, Json.get? ms name = some (.int n) ∧ 0 < n := by
  unfold checkPositiveIfThere Json.has
  cases hv : Json.get? ms name with
  | none => simp
  | some v => rw [if_pos (by simp), checkPositive_eq_nil, hv]; simp

/-- **Scale factors** are integers above zero. -/
theorem areScaleFactors_iff {v? : Option Json} : areScaleFactors v? = true ↔
    ∃ vs, v? = some (.array vs) ∧ vs ≠ [] ∧ ∀ v ∈ vs, ∃ n : ℤ, v = .int n ∧ 0 < n := by
  unfold areScaleFactors
  split
  · rename_i vs
    simp [isPositive_iff]
  · rename_i hnot
    simp only [Bool.false_eq_true, false_iff]
    rintro ⟨vs, rfl, -⟩
    exact hnot vs rfl

theorem checkTile_eq_nil {i : ℕ} : checkTile i v = [] ↔ ∃ ms, v = .object ms ∧
    (∃ n : ℤ, Json.get? ms "width" = some (.int n) ∧ 0 < n) ∧
    (Json.get? ms "height" = none ∨ ∃ n : ℤ, Json.get? ms "height" = some (.int n) ∧ 0 < n) ∧
    areScaleFactors (Json.get? ms "scaleFactors") = true := by
  unfold checkTile
  split
  · rename_i ms
    rw [List.append_eq_nil_iff, List.append_eq_nil_iff, checkPositive_eq_nil,
      checkPositiveIfThere_eq_nil]
    constructor
    · rintro ⟨⟨hw, hh⟩, hs⟩
      refine ⟨ms, rfl, hw, hh, ?_⟩
      split_ifs at hs with h
      exact h
    · rintro ⟨ms', h, hw, hh, hs⟩
      cases h
      exact ⟨⟨hw, hh⟩, if_pos hs⟩
  · rename_i hnot
    simp only [List.cons_ne_nil, false_iff]
    rintro ⟨ms, rfl, -⟩
    exact hnot ms rfl

theorem checkEntries_eq_nil {check : ℕ → Json → List ShapeError} {i : ℕ} {vs : List Json}
    (h : checkEntries check i vs = []) : ∀ v ∈ vs, ∃ j, check j v = [] := by
  induction vs generalizing i with
  | nil => simp
  | cons v vs ih =>
    rw [checkEntries, List.append_eq_nil_iff] at h
    intro w hw
    rcases List.mem_cons.mp hw with rfl | hw
    · exact ⟨i, h.1⟩
    · exact ih h.2 w hw

/-- **A list of entries** is given as an array of entries without errors, or not or as null. -/
theorem checkList_eq_nil {check : ℕ → Json → List ShapeError} (h : checkList ms name check = []) :
    Json.get? ms name = none ∨ Json.get? ms name = some .null ∨
      ∃ vs, Json.get? ms name = some (.array vs) ∧ ∀ v ∈ vs, ∃ j, check j v = [] := by
  unfold checkList at h
  split at h
  · rename_i hgiven
    rcases given?_eq_none.mp hgiven with hget | hget
    · exact .inl hget
    · exact .inr (.inl hget)
  · rename_i vs hgiven
    exact .inr (.inr ⟨vs, (given?_eq_some.mp hgiven).1, checkEntries_eq_nil h⟩)
  · cases h

theorem checkSize_eq_nil {i : ℕ} : checkSize i v = [] ↔ ∃ ms, v = .object ms ∧
    (∃ n : ℤ, Json.get? ms "width" = some (.int n) ∧ 0 < n) ∧
    ∃ n : ℤ, Json.get? ms "height" = some (.int n) ∧ 0 < n := by
  cases v with
  | object ms =>
    rw [checkSize, List.append_eq_nil_iff, checkPositive_eq_nil, checkPositive_eq_nil]
    simp
  | _ => simp [checkSize]

/-! ### Names and constants -/

/-- **The context** is that of the Image API, or an array that ends with it. -/
theorem checkContext_eq_nil : checkContext ms = [] ↔
    Json.get? ms "@context" = some (.text imageContext) ∨
      ∃ vs, Json.get? ms "@context" = some (.array vs) ∧
        vs.getLast? = some (.text imageContext) := by
  unfold checkContext given?
  cases Json.get? ms "@context" with
  | none => simp
  | some v =>
    cases v with
    | text s => simp
    | array vs =>
      have hlast : vs.getLast?.any (·.isText imageContext) = true ↔
          vs.getLast? = some (.text imageContext) := by
        rw [Option.any_eq_true]
        simp [Json.isText_iff]
      simp only [Option.some.injEq, reduceCtorEq, Json.array.injEq, exists_eq_left', false_or,
        ← hlast]
      -- An array that ends with the context has it among its items.
      have hany : vs.getLast?.any (·.isText imageContext) = true →
          vs.any (·.isText imageContext) = true := by
        intro h
        exact List.any_eq_true.mpr ⟨_, List.mem_of_getLast? (hlast.mp h), by simp [Json.isText]⟩
      split_ifs with hnone hends
      · refine ⟨False.elim, fun h => ?_⟩
        rw [hany h] at hnone
        cases hnone
      · simpa using hends
      · simpa using hends
    | _ => simp

/-- **What the check of the id answers.** -/
theorem checkId_cases {id : ShapeReport} (h : checkId ms = .ok id) :
    id = .ofErrors [.idMissing] ∨ id = .ofErrors [.idNotHttp] ∨
      id = .ofWarnings [.trailingSlash] ∨ id = .ofErrors [] := by
  unfold checkId at h
  split at h
  · cases h; exact .inl rfl
  · rename_i s _
    by_cases hs : s = ""
    · rw [if_pos hs] at h
      cases h; exact .inl rfl
    · rw [if_neg hs] at h
      obtain ⟨http, -, h⟩ := Outcome.bind_eq_ok.mp h
      split_ifs at h
      · cases h; exact .inr (.inl rfl)
      · cases h; exact .inr (.inr (.inl rfl))
      · cases h; exact .inr (.inr (.inr rfl))
  · cases h; exact .inr (.inl rfl)

theorem text_of_checkId {id : ShapeReport} (h : checkId ms = .ok id) (hid : id.errors = []) :
    ∃ s, Json.get? ms "id" = some (.text s) := by
  unfold checkId given? at h
  cases hv : Json.get? ms "id" with
  | none => rw [hv] at h; cases h; cases hid
  | some v =>
    cases v with
    | text s => exact ⟨s, rfl⟩
    | _ => rw [hv] at h; cases h; cases hid

/-- **An id under `http` or `https`** without a slash at its end is accepted. -/
theorem checkId_of_hasHttpAuthority {s : String} (hget : Json.get? ms "id" = some (.text s))
    (hhttp : Uri.hasHttpAuthority s = .ok true) (hs : s ≠ "")
    (hlast : s.toList.getLast? ≠ some '/') : checkId ms = .ok ⟨[], []⟩ := by
  have hgiven : given? ms "id" = some (.text s) := by
    rw [given?, hget]
  rw [checkId, hgiven]
  dsimp only
  rw [if_neg hs, hhttp, Outcome.ok_bind, if_neg (by simp), if_neg hlast]
  rfl

theorem checkConstant_eq_nil {value : String} {missing wrong : ShapeError} :
    checkConstant ms name value missing wrong = [] ↔
      Json.get? ms name = some (.text value) := by
  unfold checkConstant
  cases Json.get? ms name with
  | none => simp
  | some v => simp [Json.isText_iff]

theorem checkProfile_eq_nil : checkProfile ms = [] ↔
    ∃ level : ComplianceLevel, Json.get? ms "profile" = some (.text level.name) := by
  unfold checkProfile given?
  cases Json.get? ms "profile" with
  | none => simp
  | some v =>
    cases v with
    | text s =>
      simp only [ite_eq_left_iff, List.cons_ne_nil, imp_false, not_not, Vocabulary.isName_iff,
        Option.some.injEq, Json.text.injEq]
      exact exists_congr fun level => eq_comm
    | _ => simp

/-! ### Lists of terms -/

theorem errors_checkTerms {α : Type} [Vocabulary α] :
    (checkTerms α name v).errors = [] ↔ ∃ vs, v = .array vs := by
  cases v with
  | array vs => simp [checkTerms, Report.ofWarnings]
  | _ => simp [checkTerms, Report.ofErrors]

theorem errors_checkExtras {α : Type} [Vocabulary α] : (checkExtras α ms name).errors = [] ↔
    Json.get? ms name = none ∨ ∃ vs, Json.get? ms name = some (.array vs) := by
  unfold checkExtras
  cases Json.get? ms name with
  | none => simp
  | some v => simp [errors_checkTerms]

theorem list_of_checkFeatures (h : (checkFeatures ms).errors = []) :
    Json.get? ms "extraFeatures" = none ∨ Json.get? ms "extraFeatures" = some .null ∨
      ∃ vs, Json.get? ms "extraFeatures" = some (.array vs) := by
  unfold checkFeatures at h
  split at h
  · rename_i hgiven
    rcases given?_eq_none.mp hgiven with hget | hget
    · exact .inl hget
    · exact .inr (.inl hget)
  · rename_i v hgiven
    rw [Report.errors_append, List.append_eq_nil_iff] at h
    obtain ⟨vs, rfl⟩ := errors_checkTerms.mp h.1
    exact .inr (.inr ⟨vs, (given?_eq_some.mp hgiven).1⟩)

/-! ### Documents -/

/-- **The members of a document of an accepted shape.** -/
structure Accepted (ms : Members) : Prop where
  context : Json.get? ms "@context" = some (.text imageContext) ∨
    ∃ vs, Json.get? ms "@context" = some (.array vs) ∧ vs.getLast? = some (.text imageContext)
  id : ∃ s, Json.get? ms "id" = some (.text s)
  type : Json.get? ms "type" = some (.text imageServiceType)
  protocol : Json.get? ms "protocol" = some (.text imageProtocol)
  profile : ∃ level : ComplianceLevel, Json.get? ms "profile" = some (.text level.name)
  width : ∃ n : ℤ, Json.get? ms "width" = some (.int n) ∧ 0 < n
  height : ∃ n : ℤ, Json.get? ms "height" = some (.int n) ∧ 0 < n
  maxWidth : Json.get? ms "maxWidth" = none ∨
    ∃ n : ℤ, Json.get? ms "maxWidth" = some (.int n) ∧ 0 < n
  maxHeight : Json.get? ms "maxHeight" = none ∨
    ∃ n : ℤ, Json.get? ms "maxHeight" = some (.int n) ∧ 0 < n
  maxArea : Json.get? ms "maxArea" = none ∨
    ∃ n : ℤ, Json.get? ms "maxArea" = some (.int n) ∧ 0 < n
  sizes : Json.get? ms "sizes" = none ∨ Json.get? ms "sizes" = some .null ∨
    ∃ vs, Json.get? ms "sizes" = some (.array vs) ∧ ∀ v ∈ vs, ∃ i, checkSize i v = []
  tiles : Json.get? ms "tiles" = none ∨ Json.get? ms "tiles" = some .null ∨
    ∃ vs, Json.get? ms "tiles" = some (.array vs) ∧ ∀ v ∈ vs, ∃ i, checkTile i v = []
  extraFeatures : Json.get? ms "extraFeatures" = none ∨
    Json.get? ms "extraFeatures" = some .null ∨
    ∃ vs, Json.get? ms "extraFeatures" = some (.array vs)
  extraFormats : Json.get? ms "extraFormats" = none ∨
    ∃ vs, Json.get? ms "extraFormats" = some (.array vs)
  extraQualities : Json.get? ms "extraQualities" = none ∨
    ∃ vs, Json.get? ms "extraQualities" = some (.array vs)

/-- **All errors that are found** in the members of a document, check by check. -/
theorem errors_of_checkMembers {r : ShapeReport} (h : checkMembers ms = .ok r) :
    ∃ id, checkId ms = .ok id ∧ r.errors =
      checkContext ms ++ id.errors ++
      (checkConstant ms "type" imageServiceType .typeMissing .typeWrong ++
       checkConstant ms "protocol" imageProtocol .protocolMissing .protocolWrong ++
       checkProfile ms ++
       checkPositive ms "width" (.document "width") ++
       checkPositive ms "height" (.document "height") ++
       checkPositiveIfThere ms "maxWidth" (.document "maxWidth") ++
       checkPositiveIfThere ms "maxHeight" (.document "maxHeight") ++
       checkPositiveIfThere ms "maxArea" (.document "maxArea")) ++
      (checkList ms "sizes" checkSize ++ checkList ms "tiles" checkTile) ++
      (checkFeatures ms).errors ++
      (checkExtras ImageFormat ms "extraFormats").errors ++
      (checkExtras Quality ms "extraQualities").errors := by
  obtain ⟨id, hid, h⟩ := Outcome.bind_eq_ok.mp h
  injection h with h
  refine ⟨id, hid, ?_⟩
  simp only [← h, Report.errors_append, Report.errors_ofErrors, Report.errors_ofWarnings,
    List.append_nil]

theorem accepted_of_checkMembers {r : ShapeReport} (h : checkMembers ms = .ok r)
    (hvalid : r.errors = []) : Accepted ms := by
  obtain ⟨id, hid, herrors⟩ := errors_of_checkMembers h
  rw [herrors] at hvalid
  simp only [List.append_eq_nil_iff, and_assoc] at hvalid
  obtain ⟨hcontext, hid', htype, hprotocol, hprofile, hwidth, hheight, hmaxWidth, hmaxHeight,
    hmaxArea, hsizes, htiles, hfeatures, hformats, hqualities⟩ := hvalid
  exact {
    context := checkContext_eq_nil.mp hcontext
    id := text_of_checkId hid hid'
    type := checkConstant_eq_nil.mp htype
    protocol := checkConstant_eq_nil.mp hprotocol
    profile := checkProfile_eq_nil.mp hprofile
    width := checkPositive_eq_nil.mp hwidth
    height := checkPositive_eq_nil.mp hheight
    maxWidth := checkPositiveIfThere_eq_nil.mp hmaxWidth
    maxHeight := checkPositiveIfThere_eq_nil.mp hmaxHeight
    maxArea := checkPositiveIfThere_eq_nil.mp hmaxArea
    sizes := checkList_eq_nil hsizes
    tiles := checkList_eq_nil htiles
    extraFeatures := list_of_checkFeatures hfeatures
    extraFormats := errors_checkExtras.mp hformats
    extraQualities := errors_checkExtras.mp hqualities }

/-- **An accepted shape** is that of an object. -/
theorem exists_accepted {r : ShapeReport} (h : check v = .ok r) (hvalid : r.valid = true) :
    ∃ ms, v = .object ms ∧ Accepted ms := by
  unfold check at h
  split at h
  · rename_i ms
    exact ⟨ms, rfl, accepted_of_checkMembers h (List.isEmpty_iff.mp hvalid)⟩
  · injection h with h
    rw [← h] at hvalid
    cases hvalid

end Shape

/-! ### The lengths that are read -/

/-- A layout of tiles of an accepted shape. -/
theorem TileEntry.positive_of_checkTile {v : Json} {t : TileEntry} {i : ℕ}
    (hshape : Shape.checkTile i v = []) (hread : TileEntry.ofJson v = .ok t) : t.Positive := by
  obtain ⟨ms, hv, hfields⟩ := TileEntry.fields_of_ofJson hread
  obtain ⟨ms', hv', ⟨w, hw, hw0⟩, hheight, hfactors⟩ := Shape.checkTile_eq_nil.mp hshape
  rw [hv] at hv'
  cases hv'
  have hwidth : t.width = w := by
    have := (FieldName.required_of_get? (f := Field.width) hw).mp hfields.width
    rw [Checked.integer_int] at this
    injection this with this
    exact this.symm
  constructor
  · omega
  · unfold TileEntry.tileHeight
    rcases hheight with hnone | ⟨h, hh, hh0⟩
    · have := hfields.height
      unfold Field.height at this
      rw [FieldName.withDefault_single_of_none hnone] at this
      injection this with this
      rw [← this, Option.getD_none]
      omega
    · have := (FieldName.withDefault_of_get? (f := Field.height) hh).mp hfields.height
      injection this with this
      rw [← this, Option.getD_some]
      exact hh0
  · obtain ⟨vs, hvs, -, hpos⟩ := Shape.areScaleFactors_iff.mp hfactors
    have := (FieldName.required_of_get? (f := Field.scaleFactors) hvs).mp hfields.scaleFactors
    have hall := Checked.forall₂_of_array this
    intro s hs
    obtain ⟨v, hv, hread⟩ := Outcome.exists_of_forall₂ hall hs
    obtain ⟨n, rfl, hn⟩ := hpos v hv
    rw [Checked.integer_int] at hread
    injection hread with hread
    omega

/-- **The lengths of a document of an accepted shape** are positive. -/
theorem Descriptor.positive_of_shape {v : Json} {r : ShapeReport} {d : Descriptor}
    (hshape : Shape.check v = .ok r) (hvalid : r.valid = true)
    (hread : Descriptor.ofJson v = .ok d) :
    0 < d.width ∧ 0 < d.height ∧ ∀ t ∈ d.tiles, t.Positive := by
  obtain ⟨ms, hv, haccepted⟩ := Shape.exists_accepted hshape hvalid
  obtain ⟨w, hw, hw0⟩ := haccepted.width
  obtain ⟨h, hh, hh0⟩ := haccepted.height
  obtain ⟨ms', hv', hfields⟩ := Descriptor.fields_of_ofJson hread
  rw [hv] at hv'
  cases hv'
  have hwidth := (FieldName.required_of_get? (f := Field.width) hw).mp hfields.width
  have hheight := (FieldName.required_of_get? (f := Field.height) hh).mp hfields.height
  rw [Checked.integer_int] at hwidth hheight
  injection hwidth with hwidth
  injection hheight with hheight
  refine ⟨by omega, by omega, fun t ht => ?_⟩
  have hread := hfields.tiles
  rcases haccepted.tiles with hnone | hnull | ⟨vs, hvs, hentries⟩
  · unfold Field.tiles at hread
    rw [FieldName.withDefault_single_of_none hnone] at hread
    injection hread with hread
    rw [← hread] at ht
    cases ht
  · -- Null is passed over by the check but is no array.
    have := (FieldName.withDefault_of_get? (f := Field.tiles) hnull).mp hread
    cases this
  · have hall :=
      Checked.forall₂_of_array ((FieldName.withDefault_of_get? (f := Field.tiles) hvs).mp hread)
    obtain ⟨v, hv, hentry⟩ := Outcome.exists_of_forall₂ hall ht
    obtain ⟨i, hcheck⟩ := hentries v hv
    exact TileEntry.positive_of_checkTile hcheck hentry

end IiifRules
