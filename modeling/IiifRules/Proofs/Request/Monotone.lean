import Mathlib
import IiifRules.Proofs.Request.Accepted

/-! # More capable services

A request in order for one service is in order for every service that can do at least as much.
Mirroring stands apart: a service may mirror because of the level it declares, so that the features
alone do not tell.

* `Request.JudgedAs.mono`, `Request.JudgedAs.grammar`: the axes, judged against more lenient terms.
* `Descriptor.Covers`: one service does what another does, mirroring left aside.
* `Request.Passes.of_covers`: what passes for the other service.
* `Request.passes_mono`: the same for a service that declares at least as much. -/

namespace IiifRules

/-! ### More lenient terms -/

theorem Quality.mem_terms (q : Quality) : q ∈ (Vocabulary.terms : List Quality) := by
  cases q <;> decide

theorem ImageFormat.mem_terms (f : ImageFormat) : f ∈ (Vocabulary.terms : List ImageFormat) := by
  cases f <;> decide

namespace Segment

variable {s : Segment} {width? height? width?' height?' : Option ℤ}

theorem checkSize_mono {v : Size} {upscaling upscaling' : Bool}
    (h : s.checkSize width? height? upscaling = .ok (.ok v))
    (hup : upscaling = true → upscaling' = true)
    (hfits : v.form.Fits width? height? → v.form.Fits width?' height?') :
    s.checkSize width?' height?' upscaling' = .ok (.ok v) := by
  obtain ⟨hread, hcheck⟩ := checkSize_eq_ok_iff.mp h
  refine checkSize_eq_ok_iff.mpr ⟨hread, Size.check_eq_ok_iff.mpr ⟨rfl, ?_⟩⟩
  have hrule := (Size.check_eq_ok_iff.mp hcheck).2
  split_ifs at hrule ⊢ with hcaret
  · exact hup hrule
  · exact hfits hrule

theorem checkRotation_mono {v : Rotation} {arbitrary arbitrary' mirroring mirroring' : Bool}
    (h : s.checkRotation arbitrary mirroring = .ok (.ok v))
    (harbitrary : arbitrary = true → arbitrary' = true)
    (hmirroring : v.mirror = true → mirroring = true → mirroring' = true) :
    s.checkRotation arbitrary' mirroring' = .ok (.ok v) := by
  obtain ⟨hread, hcheck⟩ := checkRotation_eq_ok_iff.mp h
  obtain ⟨-, hmirror, hrange, hquarter⟩ := Rotation.check_eq_ok_iff.mp hcheck
  refine checkRotation_eq_ok_iff.mpr ⟨hread, Rotation.check_eq_ok_iff.mpr
    ⟨rfl, fun hm => hmirroring hm (hmirror hm), hrange, fun harb => hquarter ?_⟩⟩
  cases arbitrary with
  | false => rfl
  | true => rw [harbitrary rfl] at harb; cases harb

theorem checkQuality_mono {supported supported' : List Quality} {q : Quality}
    (h : s.checkQuality supported = .ok (.ok q)) (hsub : supported ⊆ supported') :
    s.checkQuality supported' = .ok (.ok q) := by
  obtain ⟨hterm, hmem⟩ := checkQuality_eq_ok_iff.mp h
  exact checkQuality_eq_ok_iff.mpr ⟨hterm, hsub hmem⟩

theorem checkFormat_mono {supported supported' : List ImageFormat} {f : ImageFormat}
    (h : s.checkFormat supported = .ok (.ok f)) (hsub : supported ⊆ supported') :
    s.checkFormat supported' = .ok (.ok f) := by
  obtain ⟨hterm, hmem⟩ := checkFormat_eq_ok_iff.mp h
  exact checkFormat_eq_ok_iff.mpr ⟨hterm, hsub hmem⟩

end Segment

namespace Request

variable {r : Request} {t t' : Terms} {a : Values}

/-- **What is in order on some terms** is so on more lenient ones for the same image. Only a request
that mirrors asks whether the service does. -/
theorem JudgedAs.mono (h : r.JudgedAs t a) (hwidth : t'.width? = t.width?)
    (hheight : t'.height? = t.height?) (hup : t.upscaling = true → t'.upscaling = true)
    (harbitrary : t.arbitraryRotation = true → t'.arbitraryRotation = true)
    (hmirroring : a.rotation.mirror = true → t.mirroring = true → t'.mirroring = true)
    (hqualities : t.qualities ⊆ t'.qualities) (hformats : t.formats ⊆ t'.formats) :
    r.JudgedAs t' a where
  region := by rw [hwidth, hheight]; exact h.region
  dimensions := by rw [hwidth, hheight]; exact h.dimensions
  size := Segment.checkSize_mono h.size hup id
  rotation := Segment.checkRotation_mono h.rotation harbitrary hmirroring
  quality := Segment.checkQuality_mono h.quality hqualities
  format := Segment.checkFormat_mono h.format hformats

/-- **What is in order on any terms** is so by the grammar, where no dimensions are known. -/
theorem JudgedAs.grammar (h : r.JudgedAs t a) :
    r.JudgedAs .grammar { a with dimensions? := none } where
  region := Segment.checkRegion_none h.region
  dimensions := rfl
  size := Segment.checkSize_mono h.size (fun _ => rfl) SizeForm.Fits.none
  rotation := Segment.checkRotation_mono h.rotation (fun _ => rfl) fun _ _ => rfl
  quality := Segment.checkQuality_mono h.quality fun q _ => q.mem_terms
  format := Segment.checkFormat_mono h.format fun f _ => f.mem_terms

theorem Passes.grammar {d : Descriptor} (h : r.Passes (some d)) : r.Passes none := by
  obtain ⟨a, ha, -⟩ := passes_some_iff.mp h
  exact passes_none_iff.mpr ⟨_, ha.grammar⟩

end Request

/-! ### A service that does what another one does -/

/-- **The service `d'` does what `d` does** with images of the same dimensions, mirroring left
aside. -/
structure Descriptor.Covers (d' d : Descriptor) : Prop where
  width_eq : d'.width = d.width
  height_eq : d'.height = d.height
  hasFeature : ∀ f, d.hasFeature f = true → d'.hasFeature f = true
  hasFormat : ∀ f, d.hasFormat f = true → d'.hasFormat f = true
  hasQuality : ∀ q, d.hasQuality q = true → d'.hasQuality q = true
  allows : ∀ w h, d.Allows w h → d'.Allows w h

namespace Descriptor

variable {d d' : Descriptor}

/-- A warning about a feature of both services is not worded; any other is worded for both. -/
theorem Covers.warned (hd : d'.Covers d) {f : Feature}
    {worded : Except Failure (List RequestWarning)}
    (h : ∃ ws, (if d.hasFeature f then .ok [] else worded) = .ok ws) :
    ∃ ws, (if d'.hasFeature f then .ok [] else worded) = .ok ws := by
  split_ifs with hf'
  · exact ⟨[], rfl⟩
  · rwa [if_neg (fun hf => hf' (hd.hasFeature f hf))] at h

theorem Covers.regionWarnings (hd : d'.Covers d) {region : Judged Segment}
    (h : ∃ ws, d.regionWarnings region = .ok ws) : ∃ ws, d'.regionWarnings region = .ok ws := by
  unfold Descriptor.regionWarnings at h ⊢
  split at h
  · split at h
    · exact hd.warned h
    · exact h
  · exact ⟨[], rfl⟩

theorem Covers.sizeWarnings (hd : d'.Covers d) {size : Judged Size}
    (h : ∃ ws, d.sizeWarnings size = .ok ws) : ∃ ws, d'.sizeWarnings size = .ok ws := by
  unfold Descriptor.sizeWarnings at h ⊢
  split at h
  · split at h
    · exact hd.warned h
    · exact h
  · exact ⟨[], rfl⟩

theorem Covers.deliveryErrors (hd : d'.Covers d) {dimensions? : Option (ℤ × ℤ)}
    {size : Judged Size} (h : d.deliveryErrors dimensions? size = .ok []) :
    d'.deliveryErrors dimensions? size = .ok [] := by
  unfold Descriptor.deliveryErrors at h ⊢
  split at h
  · split at h
    · dsimp only at h ⊢
      split_ifs at h ⊢
      · rfl
      · obtain ⟨out, hout, h⟩ := Outcome.bind_eq_ok.mp h
        rw [hout, Outcome.ok_bind]
        exact limitErrors_eq_nil.mpr (hd.allows _ _ (limitErrors_eq_nil.mp h))
    · rfl
  · rfl

end Descriptor

namespace Request

variable {r : Request} {d d' : Descriptor}

/-- The rotation of the request mirrors. -/
def Mirrors (r : Request) : Prop := ∃ v, r.rotation.readRotation = .ok (.ok v) ∧ v.mirror = true

/-- **What passes for a service** passes for each that covers it, and that mirrors if need be. -/
theorem Passes.of_covers (h : r.Passes (some d)) (hd : d'.Covers d)
    (hmirrors : r.Mirrors → d.mirrors = true → d'.mirrors = true) : r.Passes (some d') := by
  obtain ⟨a, ha, hregion, hsize, hlimits⟩ := passes_some_iff.mp h
  refine passes_some_iff.mpr ⟨a, ?_, hd.regionWarnings hregion, hd.sizeWarnings hsize,
    hd.deliveryErrors hlimits⟩
  refine ha.mono (congrArg some hd.width_eq) (congrArg some hd.height_eq)
    (hd.hasFeature .sizeUpscaling) (hd.hasFeature .rotationArbitrary) (fun hm => ?_) ?_ ?_
  · exact hmirrors ⟨a.rotation, (Segment.checkRotation_eq_ok_iff.mp ha.rotation).1, hm⟩
  · exact (List.monotone_filter_right _ hd.hasQuality).subset
  · exact (List.monotone_filter_right _ hd.hasFormat).subset

/-- A request that passes mirrors only if the service does. -/
theorem Passes.mirrors (h : r.Passes (some d)) (hr : r.Mirrors) : d.mirrors = true := by
  obtain ⟨a, ha, -⟩ := passes_some_iff.mp h
  obtain ⟨hread, hcheck⟩ := Segment.checkRotation_eq_ok_iff.mp ha.rotation
  obtain ⟨v, hv, hm⟩ := hr
  rw [hread] at hv
  cases hv
  exact (Rotation.check_eq_ok_iff.mp hcheck).2.1 hm

end Request

/-! ### A service that declares at least as much -/

namespace ComplianceLevel

/-- How high a level stands. -/
def rank : ComplianceLevel → ℕ
  | level0 => 0
  | level1 => 1
  | level2 => 2

variable {l l' : ComplianceLevel}

/-- The tables nest, though none is derived from another. -/
theorem features_subset (h : l.rank ≤ l'.rank) : l.features ⊆ l'.features := by
  revert h
  cases l <;> cases l' <;> decide

theorem formats_subset (h : l.rank ≤ l'.rank) : l.formats ⊆ l'.formats := by
  revert h
  cases l <;> cases l' <;> decide

theorem qualities_subset (h : l.rank ≤ l'.rank) : l.qualities ⊆ l'.qualities := by
  revert h
  cases l <;> cases l' <;> decide

theorem eq_level2 (h : level2.rank ≤ l.rank) : l = level2 := by
  revert h
  cases l <;> decide

end ComplianceLevel

namespace Descriptor

/-- A service for an image of 4000 by 3000 pixels that delivers no more than the given width. -/
def bounded (maxWidth : ℤ) (profile : ComplianceLevel) (extraFeatures : List Feature) :
    Descriptor where
  context := .uri imageContext
  id := "https://example.org/iiif/1"
  profile := profile
  width := 4000
  height := 3000
  maxWidth := some maxWidth
  maxHeight := none
  maxArea := none
  sizes := []
  tiles := []
  preferredFormats := []
  rights := none
  extraFeatures := extraFeatures
  extraFormats := []
  extraQualities := []
  extras := []

/-- **The service `d` declares no more than `d'`** about images of the same dimensions: its level is
not higher, whatever it offers beyond its level `d'` offers too, and both declare the same limits,
those of `d` not greater. -/
structure Within (d d' : Descriptor) : Prop where
  width_eq : d.width = d'.width
  height_eq : d.height = d'.height
  rank_le : d.profile.rank ≤ d'.profile.rank
  extraFeatures : d.extraFeatures ⊆ d'.extraFeatures
  extraFormats : d.extraFormats ⊆ d'.extraFormats
  extraQualities : d.extraQualities ⊆ d'.extraQualities
  maxWidth : Option.Rel (· ≤ ·) d.maxWidth d'.maxWidth
  maxHeight : Option.Rel (· ≤ ·) d.maxHeight d'.maxHeight
  maxArea : Option.Rel (· ≤ ·) d.maxArea d'.maxArea

variable {d d' : Descriptor}

theorem le_limit_of_rel {limit? limit?' : Option ℤ} (h : Option.Rel (· ≤ ·) limit? limit?') {n : ℤ}
    (hn : ∀ limit ∈ limit?, n ≤ limit) : ∀ limit ∈ limit?', n ≤ limit := by
  cases h with
  | none => rintro _ ⟨⟩
  | some hle => rintro _ ⟨⟩; exact (hn _ rfl).trans hle

/-- The default for a limit that is not declared keeps the order. -/
theorem Within.heightLimit (hd : d.Within d') :
    Option.Rel (· ≤ ·) d.heightLimit d'.heightLimit := by
  have hheight := hd.maxHeight
  unfold Descriptor.heightLimit
  generalize d.maxHeight = limit?, d'.maxHeight = limit?' at hheight ⊢
  cases hheight with
  | none => exact hd.maxWidth
  | some hle => exact .some hle

theorem Within.allows (hd : d.Within d') {w h : ℤ} (hallows : d.Allows w h) : d'.Allows w h where
  width_le := le_limit_of_rel hd.maxWidth hallows.width_le
  height_le := le_limit_of_rel hd.heightLimit hallows.height_le
  area_le := le_limit_of_rel hd.maxArea hallows.area_le

/-- **A service that declares at least as much** does at least as much. -/
theorem Within.covers (hd : d.Within d') : d'.Covers d where
  width_eq := hd.width_eq.symm
  height_eq := hd.height_eq.symm
  hasFeature f := by
    simp only [hasFeature, Bool.or_eq_true, List.contains_iff_mem]
    exact Or.imp (ComplianceLevel.features_subset hd.rank_le ·) (hd.extraFeatures ·)
  hasFormat f := by
    simp only [hasFormat, Bool.or_eq_true, List.contains_iff_mem]
    exact Or.imp (ComplianceLevel.formats_subset hd.rank_le ·) (hd.extraFormats ·)
  hasQuality q := by
    simp only [hasQuality, Bool.or_eq_true, List.contains_iff_mem]
    exact Or.imp (ComplianceLevel.qualities_subset hd.rank_le ·) (hd.extraQualities ·)
  allows _ _ := hd.allows

/-- Level 2 mirrors without a feature, and nothing stands above it. -/
theorem Within.mirrors (hd : d.Within d') (h : d.mirrors = true) : d'.mirrors = true := by
  unfold Descriptor.mirrors at h ⊢
  rw [Bool.or_eq_true, beq_iff_eq] at h ⊢
  refine h.imp (hd.covers.hasFeature _) fun hlevel => ComplianceLevel.eq_level2 ?_
  rw [← hlevel]
  exact hd.rank_le

end Descriptor

namespace Request

variable {r : Request} {d d' : Descriptor}

/-- **A request that passes** passes for every service that declares at least as much, and where no
service is known. -/
theorem passes_mono (hd : d.Within d') (h : r.Passes (some d)) :
    r.Passes (some d') ∧ r.Passes none :=
  ⟨h.of_covers hd.covers fun _ => hd.mirrors, h.grammar⟩

/-- An enlarged and mirrored square. -/
theorem passes_mono_of_level2 :
    let r := ofTexts "square" "^3500," "!0" "default" "jpg"
    let d := Descriptor.bounded 4000 .level1 [.mirroring, .sizeUpscaling]
    let d' := Descriptor.bounded 5000 .level2 [.sizeUpscaling, .mirroring, .cors]
    d.Within d' ∧ r.Passes (some d) ∧ r.Passes (some d') ∧ r.Passes none := by
  intro r d d'
  have hd : d.Within d' := ⟨rfl, rfl, by decide, by decide, by decide, by decide,
    .some (by decide), .none, .none⟩
  have h : r.Passes (some d) := ⟨⟨[], []⟩, by decide +kernel, rfl⟩
  exact ⟨hd, h, passes_mono hd h⟩

end Request

end IiifRules
