import Mathlib
import IiifRules.Proofs.Numeric.Pixel
import IiifRules.Proofs.Request.Accepted
import IiifRules.Proofs.Request.Monotone

/-! # When there is anything to deliver

A request in order may still ask for nothing: a percentage or a proportion of less than half a pixel
is rounded to none, and only a region in pixels has to begin inside the image.

* `Region.dimensions_pos_iff`: when a region has pixels.
* `Size.delivered_pos_iff`: when a region with pixels is delivered with pixels.
* `Request.delivered_pos_iff_visible`: both, for an accepted request. -/

namespace IiifRules

open Numeric

/-! ### Regions -/

/-- **The percentage of the length is half a pixel**: their product is fifty or more, or below fifty
by less than one and a half last places of binary64. -/
def HalfPixel (length : ℤ) (percent : Binary64) : Prop :=
  ∃ p, percent.HasValue p ∧ 50 - 3 / 2 ^ 48 < length * p

/-- The percentage of the length, in whole pixels, lies before its end. -/
def StartsWithin (length : ℤ) (percent : Binary64) : Prop :=
  ∃ start, percentOf length percent = .ok start ∧ start < length

section

variable {x : Binary64} {p : ℚ} {length n start extent : ℤ}

theorem startsWithin_iff (h : percentOf length x = .ok n) : StartsWithin length x ↔ n < length := by
  unfold StartsWithin
  simp [h]

theorem percentOf_pos_iff (hx : x.HasValue p) (hp : p ≤ 2 ^ 53) (hl0 : 0 ≤ length)
    (hl : length ≤ 2 ^ 31) (h : percentOf length x = .ok n) : 1 ≤ n ↔ HalfPixel length x := by
  obtain ⟨z, hz, heq⟩ := percentOf_eq hx hp hl0 hl
  rw [heq] at h
  have hprod : (0 : ℚ) ≤ length * p := mul_nonneg (by exact_mod_cast hl0) hx.nonneg
  rw [hz.eq_pixels h, percent_pixels_pos_iff hprod]
  constructor
  · intro hhalf
    exact ⟨p, hx, hhalf⟩
  · rintro ⟨p', hx', hhalf⟩
    rwa [hx.unique hx']

theorem percentOf_pos_iff_of_read {cs : List Char}
    (hx : Segment.Token.readDecimal none cs = .ok (some x)) (hl0 : 0 < length)
    (hl : length ≤ 2 ^ 31) (h : percentOf length x = .ok n) : 1 ≤ n ↔ HalfPixel length x := by
  obtain ⟨p, hp, hle⟩ := Segment.Token.hasValue_of_readDecimal hx
  exact percentOf_pos_iff hp (hle.trans (by norm_num)) hl0.le hl h

theorem clip_pos_iff : 1 ≤ clip start extent length ↔ start < length ∧ 1 ≤ extent := by
  unfold clip
  omega

end

namespace Region

variable {cs : List Char} {r : Region} {width height rw rh : ℤ}

/-- A region in pixels begins inside the image. -/
def BeginsInside (width height : ℤ) : Region → Prop
  | .pixels x y _ _ => x < width ∧ y < height
  | _ => True

/-- **Some of the region lies in the image**: one in percent begins before the far edges, in whole
pixels, and extends over half a pixel. -/
def Visible (width height : ℤ) : Region → Prop
  | .percent x y w h => (StartsWithin width x ∧ HalfPixel width w) ∧
      StartsWithin height y ∧ HalfPixel height h
  | _ => True

/-- **A region has pixels exactly if some of it lies in the image.** -/
theorem dimensions_pos_iff (hs : Spells cs r) (hin : r.BeginsInside width height)
    (hw0 : 0 < width) (hw : width ≤ 2 ^ 31) (hh0 : 0 < height) (hh : height ≤ 2 ^ 31)
    (h : r.dimensions width height = .ok (rw, rh)) :
    1 ≤ rw ∧ 1 ≤ rh ↔ r.Visible width height := by
  cases hs with
  | full =>
    cases h
    exact iff_of_true ⟨hw0, hh0⟩ trivial
  | square =>
    cases h
    exact iff_of_true ⟨le_min hw0 hh0, le_min hw0 hh0⟩ trivial
  | pixels hx hy hw' hh' hwpos hhpos =>
    cases h
    exact iff_of_true ⟨clip_pos_iff.mpr ⟨hin.1, by omega⟩, clip_pos_iff.mpr ⟨hin.2, by omega⟩⟩
      trivial
  | @percent cx cy cw ch x y w h' hx hy hw' hh' =>
    obtain ⟨x', hx', h⟩ := Outcome.bind_eq_ok.mp h
    obtain ⟨y', hy', h⟩ := Outcome.bind_eq_ok.mp h
    obtain ⟨w', hwpct, h⟩ := Outcome.bind_eq_ok.mp h
    obtain ⟨h'', hhpct, h⟩ := Outcome.bind_eq_ok.mp h
    cases h
    rw [clip_pos_iff, clip_pos_iff, ← startsWithin_iff hx', ← startsWithin_iff hy',
      percentOf_pos_iff_of_read hw' hw0 hw hwpct, percentOf_pos_iff_of_read hh' hh0 hh hhpct]
    rfl

end Region

/-! ### Sizes -/

/-- **Nothing of a region disappears at this size**: what belongs to a width, to a height or to a
percentage is half a pixel at least. -/
def SizeForm.Visible (rw rh : ℤ) : SizeForm → Prop
  | .max => True
  | .width w => rw ≤ 2 * (w * rh)
  | .height h => rh ≤ 2 * (h * rw)
  | .percent n => HalfPixel rw n ∧ HalfPixel rh n
  | .exact _ _ => True
  | .confined w h => rh ≤ 2 * (h * rw) ∧ rw ≤ 2 * (w * rh)

namespace Size

variable {cs : List Char} {s : Size} {rw rh ow oh : ℤ} {x : Binary64}

theorem scaled_aspect_pos_iff {w n : ℤ} (hw0 : 0 < rw) (hw : rw ≤ 2 ^ 31) (hh0 : 0 < rh)
    (hwpos : 0 ≤ w) (hx : x.HasValue (nearest (rh / rw))) (h : scaled w x = .ok n) :
    1 ≤ n ↔ rw ≤ 2 * (w * rh) := by
  rw [scaled_eq_pixels hx hwpos h]
  exact pixels_mul_pos_iff hwpos hh0 hw0 hw (near_aspect hw0 hw hh0)

theorem unscaled_aspect_pos_iff {h' n : ℤ} (hw0 : 0 < rw) (hw : rw ≤ 2 ^ 31) (hh0 : 0 < rh)
    (hh : rh ≤ 2 ^ 31) (hhpos : 0 ≤ h') (hx : x.HasValue (nearest (rh / rw)))
    (h : unscaled h' x = .ok n) : 1 ≤ n ↔ rh ≤ 2 * (h' * rw) := by
  have ha0 := aspect_pos hw0 hw hh0
  have hq0 : (0 : ℚ) < rh / rw := div_pos (by exact_mod_cast hh0) (by exact_mod_cast hw0)
  have hnear := (near_aspect hw0 hw hh0).div_left ha0 hq0 zero_le_one
  rw [one_div_div] at hnear
  rw [unscaled_eq_pixels hx ha0 hhpos h, div_eq_mul_one_div]
  exact pixels_mul_pos_iff hhpos hw0 hh0 hh hnear

/-- What bounds the factor of a confined size, and which of the bounds it is. -/
theorem confinedFactor_cases {w h : ℤ} {upscale : Bool} (hw : 0 ≤ w) (hh : 0 ≤ h) (hw0 : 0 < rw)
    (hh0 : 0 < rh) (hx : confinedFactor rw rh w h upscale = .ok x) : ∃ f, x.HasValue f ∧
      f ≤ nearest (w / rw) ∧ f ≤ nearest (h / rh) ∧ (upscale = false → f ≤ 1) ∧
      (f = nearest (w / rw) ∨ f = nearest (h / rh) ∨ upscale = false ∧ f = 1) := by
  have hvalue := confinedFactor_hasValue hw hh hw0 hh0 hx
  have hfit := min_choice (nearest (w / rw)) (nearest (h / rh))
  cases upscale with
  | true =>
    rw [if_pos rfl] at hvalue
    refine ⟨_, hvalue, inf_le_left, inf_le_right, nofun, ?_⟩
    rcases hfit with h | h <;> simp [h]
  | false =>
    rw [if_neg Bool.false_ne_true] at hvalue
    refine ⟨_, hvalue, inf_le_left.trans inf_le_left, inf_le_left.trans inf_le_right,
      fun _ => inf_le_right, ?_⟩
    rcases min_choice (nearest (w / rw) ⊓ nearest (h / rh)) 1 with h1 | h1
    · rw [h1]
      rcases hfit with h | h <;> simp [h]
    · simp [h1]

/-- **One side of a confined size** has a pixel as far as the bound on the other side lets it: its
own bound names a pixel. -/
theorem scaled_factor_pos_iff {length side own other n : ℤ} {f : ℚ} (hl0 : 0 < length)
    (hl : length ≤ 2 ^ 31) (hs0 : 0 < side) (hs : side ≤ 2 ^ 31) (hown : 0 < own)
    (hother : 0 < other) (hx : x.HasValue f) (hle : f ≤ nearest (other / side))
    (hf : f = nearest (own / length) ∨ f = nearest (other / side) ∨ f = 1)
    (h : scaled length x = .ok n) : 1 ≤ n ↔ side ≤ 2 * (other * length) := by
  have hl0' : (1 : ℚ) ≤ length := by exact_mod_cast hl0
  have hown' : (1 : ℚ) ≤ own := by exact_mod_cast hown
  have hlow := le_proportion_of_lengths hown hl0 (hl.trans (by norm_num))
  have hlow' := le_proportion_of_lengths hother hs0 (hs.trans (by norm_num))
  have hv : ((other * length : ℤ) / side : ℚ) = length * (other / side) := by
    push_cast
    rw [mul_div_assoc', mul_comm]
  rw [scaled_eq_pixels hx hl0.le h, nearest_intCast hl0.le (by omega)]
  refine pixels_pos_iff hs0 hs (mul_nonneg (by linarith) hx.nonneg) ?_ ?_
  · intro hhalf
    rw [hv] at hhalf
    rcases hf with rfl | rfl | rfl
    · refine le_mul_nearest (by linarith) hlow ?_
      rw [mul_div_cancel₀ _ (by linarith)]
      linarith
    · exact le_mul_nearest (by linarith) hlow' hhalf
    · linarith
  · intro hhalf
    have hupper := nearest_le_mul (le_trans (by positivity) hlow') le_rfl hlow'
    rw [hv, mul_assoc]
    exact mul_le_mul_of_nonneg_left (hle.trans hupper) (by linarith)

/-- **A region is delivered with pixels exactly if nothing of it disappears.** -/
theorem delivered_pos_iff (hs : s.form.Spells cs) (hw0 : 0 < rw) (hw : rw ≤ 2 ^ 31) (hh0 : 0 < rh)
    (hh : rh ≤ 2 ^ 31) (h : s.delivered rw rh = .ok (ow, oh)) :
    1 ≤ ow ∧ 1 ≤ oh ↔ s.form.Visible rw rh := by
  obtain ⟨form, upscale⟩ := s
  obtain ⟨x, hx, h⟩ := Outcome.bind_eq_ok.mp h
  have hxv := aspect_hasValue hw0 hh0 hx
  cases hs with
  | max => cases h; exact iff_of_true ⟨hw0, hh0⟩ trivial
  | @width cw w hread hwpos =>
    obtain ⟨m, hm, h⟩ := Outcome.bind_eq_ok.mp h
    cases h
    rw [scaled_aspect_pos_iff hw0 hw hh0 (by omega) hxv hm]
    exact and_iff_right (by omega)
  | @height ch h' hread hhpos =>
    obtain ⟨m, hm, h⟩ := Outcome.bind_eq_ok.mp h
    cases h
    rw [unscaled_aspect_pos_iff hw0 hw hh0 hh (by omega) hxv hm]
    exact and_iff_left (by omega)
  | @percent cn n hread =>
    obtain ⟨m, hm, h⟩ := Outcome.bind_eq_ok.mp h
    obtain ⟨m', hm', h⟩ := Outcome.bind_eq_ok.mp h
    cases h
    rw [percentOf_pos_iff_of_read hread hw0 hw hm, percentOf_pos_iff_of_read hread hh0 hh hm']
    rfl
  | exact => cases h; exact iff_of_true ⟨by omega, by omega⟩ trivial
  | @confined cw ch w h' hreadw hreadh hwpos hhpos =>
    obtain ⟨factor, hfactor, h⟩ := Outcome.bind_eq_ok.mp h
    obtain ⟨m, hm, h⟩ := Outcome.bind_eq_ok.mp h
    obtain ⟨m', hm', h⟩ := Outcome.bind_eq_ok.mp h
    cases h
    obtain ⟨f, hf, hfw, hfh, -, hcases⟩ :=
      confinedFactor_cases (by omega) (by omega) hw0 hh0 hfactor
    replace hcases := hcases.imp_right (Or.imp_right And.right)
    have hcases' : f = nearest ((h' : ℤ) / rh) ∨ f = nearest ((w : ℤ) / rw) ∨ f = 1 := by tauto
    rw [scaled_factor_pos_iff hw0 hw hh0 hh (by omega) (by omega) hf hfh hcases hm,
      scaled_factor_pos_iff hh0 hh hw0 hw (by omega) (by omega) hf hfw hcases' hm']
    rfl

/-- A strip of 7 pixels disappears at a width of 250, where one of 8 pixels is kept. -/
example : (Size.mk (.width 250) false).delivered 4000 7 = .ok (250, 0) ∧
    (Size.mk (.width 250) false).delivered 4000 8 = .ok (250, 1) := by decide +kernel

end Size

/-! ### Accepted requests -/

theorem Segment.checkRegion_beginsInside {s : Segment} {width height : ℤ} {r : Region}
    (h : s.checkRegion (some width) (some height) = .ok (.ok (.region r))) :
    r.BeginsInside width height := by
  obtain ⟨value, -, h⟩ := Outcome.bind_eq_ok.mp h
  cases value with
  | error e => cases h
  | ok v =>
    dsimp only at h
    split at h
    · split_ifs at h with hout
      · cases h
      · cases h
        rename_i hwidth hheight
        cases hwidth
        cases hheight
        exact ⟨by omega, by omega⟩
    · rename_i hother
      cases h
      cases r with
      | pixels x y w h' => exact absurd rfl (hother x y w h' width height rfl rfl)
      | _ => trivial

namespace Request

variable {region size rotation quality format : String} {d : Descriptor} {report : RequestReport}

theorem beginsInside_of_valid
    (h : (ofTexts region size rotation quality format).check (some d) = .ok report)
    (hvalid : report.valid = true) {r : Region} (hr : Region.parse region = .ok (.ok r)) :
    r.BeginsInside d.width d.height := by
  obtain ⟨a, ha, -⟩ := passes_some_iff.mp ⟨report, h, hvalid⟩
  obtain ⟨r', hr', hregion⟩ := Segment.checkRegion_eq_ok ha.region
  rw [hr] at hr'
  cases hr'
  exact Segment.checkRegion_beginsInside (hregion ▸ ha.region)

/-- **An accepted request comes to an image**: whatever pixels its region has are delivered at some
size. -/
theorem exists_delivered_of_valid (hw : 0 < d.width ∧ d.width ≤ 2 ^ 31)
    (hh : 0 < d.height ∧ d.height ≤ 2 ^ 31)
    (h : (ofTexts region size rotation quality format).check (some d) = .ok report)
    (hvalid : report.valid = true) : ∃ r s rw rh, Region.parse region = .ok (.ok r) ∧
      Size.parse size = .ok (.ok s) ∧ r.dimensions d.width d.height = .ok (rw, rh) ∧
      (1 ≤ rw → 1 ≤ rh → ∃ ow oh, s.delivered rw rh = .ok (ow, oh)) := by
  obtain ⟨r, s, rw, rh, hr, hs, hdim, -, hlimits⟩ := steps_of_valid h hvalid
  refine ⟨r, s, rw, rh, hr, hs, hdim, fun hrw hrh => ?_⟩
  obtain ⟨cs, -, hspells⟩ := Size.spells_of_parse hs
  obtain ⟨hle, hle'⟩ :=
    Region.dimensions_le (Region.spells_of_parse hr) hw.1 hw.2 hh.1 hh.2 hdim
  by_cases hmax : s.form = .max
  · obtain ⟨ow, oh, hdelivered, -⟩ := Size.exists_delivered (m := 31) (n := 0) hspells
      (by rw [hmax]; trivial) hrw (hle.trans hw.2) hrh (hle'.trans hh.2) (by norm_num) (by norm_num)
    exact ⟨ow, oh, hdelivered⟩
  · unfold Descriptor.deliveryErrors at hlimits
    dsimp only at hlimits
    rw [if_neg (by rintro (h | h | h) <;> first | exact hmax h | omega)] at hlimits
    obtain ⟨⟨ow, oh⟩, hdelivered, -⟩ := Outcome.bind_eq_ok.mp hlimits
    exact ⟨ow, oh, hdelivered⟩

/-- **What an accepted request delivers is visible or not**: its region has pixels exactly if some of
it lies in the image, and a region with pixels is delivered with pixels exactly if nothing of it
disappears. -/
theorem delivered_pos_iff_visible (hw : 0 < d.width ∧ d.width ≤ 2 ^ 31)
    (hh : 0 < d.height ∧ d.height ≤ 2 ^ 31)
    (h : (ofTexts region size rotation quality format).check (some d) = .ok report)
    (hvalid : report.valid = true) : ∃ r s rw rh, Region.parse region = .ok (.ok r) ∧
      Size.parse size = .ok (.ok s) ∧ r.dimensions d.width d.height = .ok (rw, rh) ∧
      (1 ≤ rw ∧ 1 ≤ rh ↔ r.Visible d.width d.height) ∧
      (1 ≤ rw → 1 ≤ rh → ∃ ow oh, s.delivered rw rh = .ok (ow, oh) ∧
        (1 ≤ ow ∧ 1 ≤ oh ↔ s.form.Visible rw rh)) := by
  obtain ⟨r, s, rw, rh, hr, hs, hdim, hdelivered⟩ := exists_delivered_of_valid hw hh h hvalid
  have hregion := Region.spells_of_parse hr
  obtain ⟨cs, -, hspells⟩ := Size.spells_of_parse hs
  obtain ⟨hle, hle'⟩ := Region.dimensions_le hregion hw.1 hw.2 hh.1 hh.2 hdim
  refine ⟨r, s, rw, rh, hr, hs, hdim, Region.dimensions_pos_iff hregion
    (beginsInside_of_valid h hvalid hr) hw.1 hw.2 hh.1 hh.2 hdim, fun hrw hrh => ?_⟩
  obtain ⟨ow, oh, hsize⟩ := hdelivered hrw hrh
  exact ⟨ow, oh, hsize,
    Size.delivered_pos_iff hspells hrw (hle.trans hw.2) hrh (hle'.trans hh.2) hsize⟩

/-- A strip of 8 pixels, whose height is just half a pixel where its width is 250. -/
theorem delivered_pos_iff_visible_of_strip : ∃ s ow oh,
    (ofTexts "0,0,4000,8" "250," "0" "default" "jpg").check
      (some (Descriptor.bounded 4000 .level2 [])) = .ok ⟨[], []⟩ ∧
    Size.parse "250," = .ok (.ok s) ∧ s.delivered 4000 8 = .ok (ow, oh) ∧ 1 ≤ ow ∧ 1 ≤ oh := by
  have hcheck : (ofTexts "0,0,4000,8" "250," "0" "default" "jpg").check
      (some (Descriptor.bounded 4000 .level2 [])) = .ok ⟨[], []⟩ := by decide +kernel
  obtain ⟨r, s, rw, rh, hr, hs, hdim, -, hdelivered⟩ :=
    delivered_pos_iff_visible (by decide) (by decide) hcheck rfl
  have hr' : Region.parse "0,0,4000,8" = .ok (.ok (.pixels 0 0 4000 8)) := by decide +kernel
  have hs' : Size.parse "250," = .ok (.ok ⟨.width 250, false⟩) := by decide +kernel
  rw [hr'] at hr
  cases hr
  rw [hs'] at hs
  cases hs
  cases hdim
  obtain ⟨ow, oh, hsize, hiff⟩ := hdelivered (by decide) (by decide)
  have hvisible : (SizeForm.width 250).Visible 4000 8 := show (4000 : ℤ) ≤ 2 * (250 * 8) by decide
  exact ⟨_, ow, oh, hcheck, hs', hsize, hiff.mpr hvisible⟩

/-- **A request in order may ask for nothing**: a region in percent may begin at the far edge of the
image. -/
theorem not_delivered_pos : ¬ ∀ (d : Descriptor) (region size rotation quality format : String)
    (report : RequestReport), 0 < d.width ∧ d.width ≤ 2 ^ 31 → 0 < d.height ∧ d.height ≤ 2 ^ 31 →
    (ofTexts region size rotation quality format).check (some d) = .ok report →
    report.valid = true → ∃ r s rw rh ow oh, Region.parse region = .ok (.ok r) ∧
      Size.parse size = .ok (.ok s) ∧ r.dimensions d.width d.height = .ok (rw, rh) ∧
      (1 ≤ rw ∧ 1 ≤ rh) ∧ s.delivered rw rh = .ok (ow, oh) ∧ 1 ≤ ow ∧ 1 ≤ oh := by
  intro h
  obtain ⟨r, s, rw, rh, ow, oh, hr, -, hdim, hpos, -⟩ :=
    h (Descriptor.bounded 4000 .level2 []) "pct:100,0,10,10" "max" "0" "default" "jpg" ⟨[], []⟩
      (by decide) (by decide) (by decide +kernel) rfl
  have hempty : (Region.parse "pct:100,0,10,10" >>= fun parsed => match parsed with
      | .ok r => r.dimensions 4000 3000
      | .error _ => .ok (0, 0)) = .ok (0, 300) := by decide +kernel
  rw [hr, Outcome.ok_bind] at hempty
  cases hdim.symm.trans hempty
  omega

end Request

end IiifRules
