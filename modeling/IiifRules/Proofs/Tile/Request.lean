import Mathlib
import IiifRules.Proofs.Request.Accepted
import IiifRules.Proofs.Segment.RoundTrip

/-! # Requests for tiles are in order

A tile is asked for by a rectangle in pixels inside the image, a width and a height that are no
larger, no rotation, and the quality and format that every level has.

* `Descriptor.Allows.mono`: a service that delivers an image delivers every smaller one.
* `Request.check_of_pixels`: such a request has no error if the service delivers an image of its
  width and height. -/

namespace IiifRules

open Numeric

/-! ### What every service delivers -/

/-- **A service that delivers an image** delivers every smaller one. -/
theorem Descriptor.Allows.mono {d : Descriptor} {w h w' h' : ℤ} (hd : d.Allows w h) (hw0 : 0 ≤ w')
    (hw : w' ≤ w) (hh0 : 0 ≤ h') (hh : h' ≤ h) : d.Allows w' h' where
  width_le limit hlimit := hw.trans (hd.width_le limit hlimit)
  height_le limit hlimit := hh.trans (hd.height_le limit hlimit)
  area_le limit hlimit := (mul_le_mul hw hh hh0 (hw0.trans hw)).trans (hd.area_le limit hlimit)

theorem Descriptor.default_mem_qualities (d : Descriptor) : Quality.default ∈ d.qualities := by
  have hlevel : d.profile.qualities.contains .default = true := by
    cases d.profile <;> rfl
  simp only [qualities, List.mem_filter, hasQuality, hlevel, Bool.true_or]
  exact ⟨by decide, trivial⟩

theorem Descriptor.jpg_mem_formats (d : Descriptor) : ImageFormat.jpg ∈ d.formats := by
  have hlevel : d.profile.formats.contains .jpg = true := by
    cases d.profile <;> rfl
  simp only [formats, List.mem_filter, hasFormat, hlevel, Bool.true_or]
  exact ⟨by decide, trivial⟩

/-! ### The axes -/

namespace Segment

theorem checkRegion_of_pixels {text : String} {x y w h width height : ℤ}
    (hparse : Region.parse text = .ok (.ok (.pixels x y w h))) (hx : x < width) (hy : y < height) :
    (Segment.text text).checkRegion (some width) (some height) =
      .ok (.ok (.region (.pixels x y w h))) := by
  unfold checkRegion
  dsimp only
  rw [hparse]
  simp only [Outcome.ok_bind, pure_bind, Except.map]
  rw [if_neg (by omega)]
  rfl

theorem checkSize_of_exact {text : String} {w h width height : ℤ} (upscaling : Bool)
    (hparse : Size.parse text = .ok (.ok ⟨.exact w h, false⟩)) (hw : w ≤ width) (hh : h ≤ height) :
    (Segment.text text).checkSize (some width) (some height) upscaling =
      .ok (.ok ⟨.exact w h, false⟩) := by
  unfold checkSize readSize
  dsimp only
  rw [hparse, Outcome.ok_bind]
  dsimp only
  unfold Size.check
  rw [if_neg (by simp)]
  dsimp only
  rw [if_neg (by omega)]
  rfl

theorem checkRotation_zero (arbitrary mirroring : Bool) :
    (Segment.text "0").checkRotation arbitrary mirroring = .ok (.ok .none) := by
  have hparse : Rotation.parse "0" = .ok (.ok .none) := by decide +kernel
  have hcheck : ∀ arbitrary mirroring, Rotation.none.check arbitrary mirroring = .ok .none := by
    decide +kernel
  unfold checkRotation readRotation
  dsimp only
  rw [hparse, Outcome.ok_bind]
  exact congrArg Except.ok (hcheck arbitrary mirroring)

theorem checkQuality_default (d : Descriptor) :
    (Segment.text Quality.default.name).checkQuality d.qualities = .ok (.ok .default) := by
  have hterm : (Segment.text Quality.default.name).term? Quality = some .default := by decide
  unfold checkQuality
  rw [hterm]
  dsimp only
  rw [if_pos (List.contains_iff_mem.mpr d.default_mem_qualities)]
  rfl

theorem checkFormat_jpg (d : Descriptor) :
    (Segment.text ImageFormat.jpg.name).checkFormat d.formats = .ok (.ok .jpg) := by
  have hterm : (Segment.text ImageFormat.jpg.name).term? ImageFormat = some .jpg := by decide
  unfold checkFormat
  rw [hterm]
  dsimp only
  rw [if_pos (List.contains_iff_mem.mpr d.jpg_mem_formats)]
  rfl

end Segment

/-! ### The whole request -/

namespace Request

variable {d : Descriptor} {region size : String} {x y rw rh w h : ℤ}

theorem judge_of_pixels (hregion : Region.parse region = .ok (.ok (.pixels x y rw rh)))
    (hsize : Size.parse size = .ok (.ok ⟨.exact w h, false⟩)) (hrw : 0 < rw) (hrh : 0 < rh)
    (hx : x + rw ≤ d.width) (hy : y + rh ≤ d.height) (hw : w ≤ rw) (hh : h ≤ rh) :
    (ofTexts region size "0" Quality.default.name ImageFormat.jpg.name).judge (.ofDescriptor d) =
      .ok ⟨.ok (.region (.pixels x y rw rh)), some (rw, rh), .ok ⟨.exact w h, false⟩, .ok .none,
        .ok .default, .ok .jpg⟩ := by
  have hdim : Segment.dimensions (.region (.pixels x y rw rh)) d.width d.height =
      .ok (rw, rh) := by
    have hclip : ∀ {start extent length : ℤ}, 0 < extent → start + extent ≤ length →
        clip start extent length = extent := by
      intro start extent length h0 hle
      unfold clip
      omega
    show Except.ok (clip x rw d.width, clip y rh d.height) = _
    rw [hclip hrw hx, hclip hrh hy]
  unfold judge ofTexts
  dsimp only [Terms.ofDescriptor]
  rw [Segment.checkRegion_of_pixels hregion (by omega) (by omega), Outcome.ok_bind]
  dsimp only [regionDimensions]
  rw [hdim]
  simp only [Except.map, Outcome.ok_bind, Option.map_some]
  rw [Segment.checkSize_of_exact _ hsize hw hh, Outcome.ok_bind, Segment.checkRotation_zero,
    Outcome.ok_bind, Segment.checkQuality_default, Outcome.ok_bind, Segment.checkFormat_jpg]
  rfl

/-- A region that is not empty is delivered at the width and height that are asked for. -/
theorem delivered_of_exact (hrw : 0 < rw ∧ rw ≤ 2 ^ 53) (hrh : 0 < rh ∧ rh ≤ 2 ^ 53) :
    Size.delivered ⟨.exact w h, false⟩ rw rh = .ok (w, h) := by
  have hle : (rh / rw : ℚ) ≤ rh :=
    div_le_self (by exact_mod_cast hrh.1.le) (by exact_mod_cast hrw.1)
  have hrh' : (rh : ℚ) ≤ 2 ^ 53 := by exact_mod_cast hrh.2
  obtain ⟨z, hz, -⟩ := floatQuotient_hasValue hrh.1.le hrw.1 (hle.trans hrh') (by norm_num)
  unfold Size.delivered Size.aspect
  rw [if_neg (by omega), hz]
  rfl

/-- **A request for a tile has no error** if the service delivers an image of its size. -/
theorem check_of_pixels (hregion : Region.parse region = .ok (.ok (.pixels x y rw rh)))
    (hsize : Size.parse size = .ok (.ok ⟨.exact w h, false⟩)) (hrw : 0 < rw ∧ rw ≤ 2 ^ 53)
    (hrh : 0 < rh ∧ rh ≤ 2 ^ 53) (hx : x + rw ≤ d.width) (hy : y + rh ≤ d.height) (hw : w ≤ rw)
    (hh : h ≤ rh) (hd : d.Allows w h) : ∃ report,
      (ofTexts region size "0" Quality.default.name ImageFormat.jpg.name).check (some d) =
        .ok report ∧ report.errors = [] := by
  have hjudge := judge_of_pixels (d := d) hregion hsize hrw.1 hrh.1 hx hy hw hh
  obtain ⟨regionWarnings, hregionWarnings⟩ :
      ∃ ws, d.regionWarnings (.ok (.region (.pixels x y rw rh))) = .ok ws := by
    unfold Descriptor.regionWarnings
    dsimp only [Region.feature?]
    rw [Region.format_of_parse hregion]
    split_ifs
    · exact ⟨_, rfl⟩
    · exact ⟨_, rfl⟩
  obtain ⟨sizeWarnings, hsizeWarnings⟩ :
      ∃ ws, d.sizeWarnings (.ok ⟨.exact w h, false⟩) = .ok ws := by
    unfold Descriptor.sizeWarnings
    dsimp only [SizeForm.feature?]
    rw [Size.format_of_parse hsize]
    split_ifs
    · exact ⟨_, rfl⟩
    · exact ⟨_, rfl⟩
  have hlimits : d.deliveryErrors (some (rw, rh)) (.ok ⟨.exact w h, false⟩) = .ok [] := by
    unfold Descriptor.deliveryErrors
    dsimp only
    rw [if_neg (by simp; omega), delivered_of_exact hrw hrh, Outcome.ok_bind]
    exact Descriptor.limitErrors_eq_nil.mpr hd
  refine ⟨_, Outcome.bind_eq_ok.mpr ⟨_, hjudge, Outcome.bind_eq_ok.mpr ⟨_, hregionWarnings,
    Outcome.bind_eq_ok.mpr ⟨_, hsizeWarnings, Outcome.bind_eq_ok.mpr ⟨_, hlimits, rfl⟩⟩⟩⟩, rfl⟩

end Request

end IiifRules
