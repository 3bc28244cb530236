import Mathlib
import IiifRules.Proofs.Request.Geometry
import IiifRules.Proofs.Request.Judged

/-! # What an accepted request delivers

* `Descriptor.limitErrors_eq_nil`: no limit is exceeded exactly if the service allows the image.
* `Segment.checkSize_eq_ok`: an accepted size that may not enlarge names no more than the region has.
* `Request.delivered_within`: an accepted request delivers an image that the service allows, and
  one no larger than its region unless it may enlarge. -/

namespace IiifRules

open Numeric

/-! ### The limits of a service -/

/-- **The service delivers images of this width and height.** -/
structure Descriptor.Allows (d : Descriptor) (width height : ℤ) : Prop where
  width_le : ∀ limit ∈ d.maxWidth, width ≤ limit
  height_le : ∀ limit ∈ d.heightLimit, height ≤ limit
  area_le : ∀ limit ∈ d.maxArea, width * height ≤ limit

theorem Descriptor.limitError_eq_nil {error : ℤ → ℤ → RequestError} {n : ℤ} {limit? : Option ℤ} :
    limitError error n limit? = .ok [] ↔ ∀ limit ∈ limit?, n ≤ limit := by
  cases limit? with
  | none => simp [limitError]
  | some limit =>
    unfold limitError
    dsimp only
    split_ifs with hlt hwritable
    · simp [hlt]
    · simp [hlt]
    · simp [not_lt.mp hlt]

theorem Descriptor.limitErrors_eq_nil {d : Descriptor} {width height : ℤ} :
    d.limitErrors width height = .ok [] ↔ d.Allows width height := by
  unfold limitErrors
  constructor
  · intro h
    obtain ⟨w, hw, h⟩ := Outcome.bind_eq_ok.mp h
    obtain ⟨h', hh, h⟩ := Outcome.bind_eq_ok.mp h
    obtain ⟨a, ha, h⟩ := Outcome.bind_eq_ok.mp h
    injection h with h
    obtain ⟨hwh, rfl⟩ := List.append_eq_nil_iff.mp h
    obtain ⟨rfl, rfl⟩ := List.append_eq_nil_iff.mp hwh
    exact ⟨limitError_eq_nil.mp hw, limitError_eq_nil.mp hh, limitError_eq_nil.mp ha⟩
  · intro h
    rw [limitError_eq_nil.mpr h.width_le, limitError_eq_nil.mpr h.height_le,
      limitError_eq_nil.mpr h.area_le]
    rfl

/-! ### Accepted axes -/

theorem Segment.checkRegion_eq_ok {text : String} {width? height? : Option ℤ} {v : Segment}
    (h : (Segment.text text).checkRegion width? height? = .ok (.ok v)) :
    ∃ r, Region.parse text = .ok (.ok r) ∧ v = .region r := by
  obtain ⟨value, hvalue, h⟩ := Outcome.bind_eq_ok.mp h
  obtain ⟨parsed, hparsed, hvalue⟩ := Outcome.bind_eq_ok.mp hvalue
  cases hvalue
  cases parsed with
  | error e => cases h
  | ok r =>
    refine ⟨r, hparsed, ?_⟩
    dsimp only [Except.map] at h
    split at h
    · split_ifs at h
      · cases h
      · cases h
        rfl
    · cases h
      rfl

/-- A form that fits a region names no more than the region has. -/
theorem SizeForm.Fits.within {form : SizeForm} {rw rh : ℤ} (h : form.Fits (some rw) (some rh)) :
    form.Within rw rh := by
  cases form with
  | width w => exact h rw rfl
  | height h' => exact h rh rfl
  | exact w h' => exact h rw rfl rh rfl
  | percent n => exact h
  | max => trivial
  | confined w h' => trivial

theorem Segment.checkSize_eq_ok {text : String} {rw rh : ℤ} {upscaling : Bool} {s : Size}
    (h : (Segment.text text).checkSize (some rw) (some rh) upscaling = .ok (.ok s)) :
    Size.parse text = .ok (.ok s) ∧ (s.upscale = false → s.form.Within rw rh) := by
  obtain ⟨hparse, hcheck⟩ := Segment.checkSize_eq_ok_iff.mp h
  refine ⟨hparse, fun hup => ?_⟩
  have hfits := (Size.check_eq_ok_iff.mp hcheck).2
  rw [hup, if_neg (by simp)] at hfits
  exact hfits.within

/-! ### Accepted requests -/

namespace Request

variable {region size rotation quality format : String} {d : Descriptor} {report : RequestReport}

/-- **The steps to an accepted request**: region and size are read, the size is judged against the
dimensions of the region, and what is delivered of a region that is not empty exceeds no limit. -/
theorem steps_of_valid
    (h : (ofTexts region size rotation quality format).check (some d) = .ok report)
    (hvalid : report.valid = true) : ∃ r s rw rh, Region.parse region = .ok (.ok r) ∧
      Size.parse size = .ok (.ok s) ∧ r.dimensions d.width d.height = .ok (rw, rh) ∧
      (s.upscale = false → s.form.Within rw rh) ∧
      d.deliveryErrors (some (rw, rh)) (.ok s) = .ok [] := by
  obtain ⟨a, ha, -, -, hlimits⟩ := passes_some_iff.mp ⟨report, h, hvalid⟩
  obtain ⟨r, hr, hregion⟩ := Segment.checkRegion_eq_ok ha.region
  obtain ⟨⟨rw, rh⟩, hdim, hdimensions⟩ := Outcome.map_eq_ok.mp ha.dimensions
  have hsize := ha.size
  rw [← hdimensions] at hsize hlimits
  rw [hregion] at hdim
  obtain ⟨hparse, hwithin⟩ := Segment.checkSize_eq_ok hsize
  exact ⟨r, a.size, rw, rh, hr, hparse, hdim, hwithin, hlimits⟩

/-- **An accepted request delivers what it may.** If the size is not the largest one and the region
is not empty, then the delivered image is not larger than the region unless the size has a caret,
and it exceeds no limit of the service. -/
theorem delivered_within (hw : 0 < d.width ∧ d.width ≤ 2 ^ 31)
    (hh : 0 < d.height ∧ d.height ≤ 2 ^ 31)
    (h : (ofTexts region size rotation quality format).check (some d) = .ok report)
    (hvalid : report.valid = true) : ∃ r s rw rh, Region.parse region = .ok (.ok r) ∧
      Size.parse size = .ok (.ok s) ∧ r.dimensions d.width d.height = .ok (rw, rh) ∧
      (s.form ≠ .max → 0 < rw → 0 < rh → ∃ ow oh, s.delivered rw rh = .ok (ow, oh) ∧
        (s.upscale = false → ow ≤ rw ∧ oh ≤ rh) ∧ d.Allows ow oh) := by
  obtain ⟨r, s, rw, rh, hr, hs, hdim, hwithin, hlimits⟩ := steps_of_valid h hvalid
  refine ⟨r, s, rw, rh, hr, hs, hdim, fun hmax hw0 hh0 => ?_⟩
  obtain ⟨cs, -, hspells⟩ := Size.spells_of_parse hs
  obtain ⟨hle, hle'⟩ :=
    Region.dimensions_le (Region.spells_of_parse hr) hw.1 hw.2 hh.1 hh.2 hdim
  unfold Descriptor.deliveryErrors at hlimits
  dsimp only at hlimits
  rw [if_neg (by rintro (h | h | h) <;> first | exact hmax h | omega)] at hlimits
  obtain ⟨⟨ow, oh⟩, hdelivered, hlimits⟩ := Outcome.bind_eq_ok.mp hlimits
  exact ⟨ow, oh, hdelivered, fun hup => Size.delivered_le hspells hup (hwithin hup) hw0
    (hle.trans hw.2) hh0 (hle'.trans hh.2) hdelivered, Descriptor.limitErrors_eq_nil.mp hlimits⟩

/-- A region of 500 by 800 pixels at the right edge, enlarged to a width of 501: its height is the
greatest that the service delivers. -/
theorem delivered_within_of_width : ∃ d s ow oh,
    (ofTexts "3500,10,1000,800" "^501," "90" "gray" "png").check (some d) = .ok ⟨[], []⟩ ∧
      Size.parse "^501," = .ok (.ok s) ∧ s.delivered 500 800 = .ok (ow, oh) ∧
      d.maxHeight = some 802 ∧ oh ≤ 802 := by
  let d : Descriptor := {
    context := .uri imageContext
    id := "https://example.org/iiif/1"
    profile := .level2
    width := 4000
    height := 3000
    maxWidth := some 600
    maxHeight := some 802
    maxArea := none
    sizes := []
    tiles := []
    preferredFormats := []
    rights := none
    extraFeatures := [.sizeUpscaling]
    extraFormats := []
    extraQualities := []
    extras := [] }
  have hcheck : (ofTexts "3500,10,1000,800" "^501," "90" "gray" "png").check (some d) =
      .ok ⟨[], []⟩ := by decide +kernel
  obtain ⟨r, s, rw, rh, hr, hs, hdim, hdelivered⟩ :=
    delivered_within (by decide) (by decide) hcheck rfl
  have hr' : Region.parse "3500,10,1000,800" = .ok (.ok (.pixels 3500 10 1000 800)) := by
    decide +kernel
  have hs' : Size.parse "^501," = .ok (.ok ⟨.width 501, true⟩) := by decide +kernel
  rw [hr'] at hr
  cases hr
  rw [hs'] at hs
  cases hs
  cases hdim
  obtain ⟨ow, oh, hsize, -, hallows⟩ := hdelivered (by simp) (by decide) (by decide)
  exact ⟨d, _, ow, oh, hcheck, hs', hsize, rfl, hallows.height_le 802 rfl⟩

end Request

end IiifRules
