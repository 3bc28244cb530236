import Mathlib
import IiifRules.Proofs.Numeric.Magnitude
import IiifRules.Proofs.Outcome
import IiifRules.Proofs.Segment.Grammar
import IiifRules.Request.Geometry

/-! # Requests whose geometry is in range

The dimensions of a region and of what is delivered are computed in binary64. They come to a value
unless a number leaves the range on the way: with an image of at most `2 ^ m` pixels on each side and
a size that names at most `2 ^ n` pixels, `m + n` must not be above 1022.

* `Region.exists_dimensions`: the region.
* `Size.exists_delivered`: what is delivered. -/

namespace IiifRules

open Numeric

/-! ### Percentages and proportions -/

section

variable {x : Binary64} {q : ℚ} {length : ℤ} {j m : ℕ}

theorem exists_percentOf (hx : x.AtMost j) (h0 : 0 ≤ length) (hl : length ≤ 2 ^ m)
    (hmj : m + j ≤ 1022) :
    ∃ n, percentOf length x = .ok n ∧ 0 ≤ n ∧ n ≤ 2 ^ (m + j + 1) := by
  obtain ⟨y, hy, hyle⟩ := floatOfInt_atMost h0 hl (by omega)
  have hhundred : (Binary64.ofInt 100).HasValue (100 : ℤ) :=
    Binary64.ofInt_exact (by norm_num) (by norm_num)
  obtain ⟨z, hz, hzle⟩ := (hyle.mul hx (by omega)).div (k := 0) hhundred (by norm_num) (by omega)
  obtain ⟨n, hn, hbounds⟩ := hzle.roundHalfUp (by omega)
  refine ⟨n, ?_, hbounds⟩
  unfold percentOf
  rw [hy, Outcome.ok_bind, hz, Outcome.ok_bind, hn]

theorem exists_scaled (hx : x.AtMost j) (h0 : 0 ≤ length) (hl : length ≤ 2 ^ m)
    (hmj : m + j ≤ 1022) :
    ∃ n, Size.scaled length x = .ok n ∧ 0 ≤ n ∧ n ≤ 2 ^ (m + j + 1) := by
  obtain ⟨y, hy, hyle⟩ := floatOfInt_atMost h0 hl (by omega)
  obtain ⟨n, hn, hbounds⟩ := (hyle.mul hx (by omega)).roundHalfUp (by omega)
  refine ⟨n, ?_, hbounds⟩
  unfold Size.scaled
  rw [hy, Outcome.ok_bind, hn]

theorem exists_unscaled (hx : x.HasValue q) (hq : 1 / 2 ^ j ≤ q) (h0 : 0 ≤ length)
    (hl : length ≤ 2 ^ m) (hmj : m + j ≤ 1022) :
    ∃ n, Size.unscaled length x = .ok n ∧ 0 ≤ n ∧ n ≤ 2 ^ (m + j + 1) := by
  obtain ⟨y, hy, hyle⟩ := floatOfInt_atMost h0 hl (by omega)
  obtain ⟨z, hz, hzle⟩ := hyle.div hx hq (by omega)
  obtain ⟨n, hn, hbounds⟩ := hzle.roundHalfUp (by omega)
  refine ⟨n, ?_, hbounds⟩
  unfold Size.unscaled
  rw [hy, Outcome.ok_bind, hz, Outcome.ok_bind, hn]

end

/-! ### Regions -/

theorem clip_bounds {start extent length : ℤ} (hs : 0 ≤ start) (hl : 0 ≤ length) :
    0 ≤ clip start extent length ∧ clip start extent length ≤ length := by
  unfold clip
  omega

/-- **A region comes to dimensions**, and they are not larger than the image. -/
theorem Region.exists_dimensions {cs : List Char} {r : Region} {width height : ℤ} {m : ℕ}
    (hs : Spells cs r) (hw0 : 0 < width) (hw : width ≤ 2 ^ m) (hh0 : 0 < height)
    (hh : height ≤ 2 ^ m) (hm : m ≤ 972) : ∃ rw rh, r.dimensions width height = .ok (rw, rh) ∧
      (0 ≤ rw ∧ rw ≤ width) ∧ 0 ≤ rh ∧ rh ≤ height := by
  cases hs with
  | full => exact ⟨_, _, rfl, ⟨hw0.le, le_rfl⟩, hh0.le, le_rfl⟩
  | square =>
    exact ⟨_, _, rfl, ⟨le_min hw0.le hh0.le, min_le_left _ _⟩, le_min hw0.le hh0.le,
      min_le_right _ _⟩
  | pixels =>
    exact ⟨_, _, rfl, clip_bounds (by omega) hw0.le, clip_bounds (by omega) hh0.le⟩
  | percent hx hy hw' hh' =>
    have hread : ∀ {cs : List Char} {p : Binary64} {length : ℤ},
        Segment.Token.readDecimal none cs = .ok (some p) → 0 < length → length ≤ 2 ^ m →
        ∃ n, percentOf length p = .ok n ∧ 0 ≤ n := by
      intro cs p length hp h0 hl
      obtain ⟨n, hn, hpos, -⟩ :=
        exists_percentOf (Segment.Token.hasValue_of_readDecimal hp) h0.le hl (by omega)
      exact ⟨n, hn, hpos⟩
    obtain ⟨x, hx, hx0⟩ := hread hx hw0 hw
    obtain ⟨y, hy, hy0⟩ := hread hy hh0 hh
    obtain ⟨w, hw', -⟩ := hread hw' hw0 hw
    obtain ⟨h, hh', -⟩ := hread hh' hh0 hh
    refine ⟨clip x w width, clip y h height, ?_, clip_bounds hx0 hw0.le, clip_bounds hy0 hh0.le⟩
    unfold dimensions
    dsimp only
    rw [hx, Outcome.ok_bind, hy, Outcome.ok_bind, hw', Outcome.ok_bind, hh']
    rfl

/-! ### Sizes -/

/-- **The size names no more than** `bound` pixels. -/
def SizeForm.AtMost (bound : ℤ) : SizeForm → Prop
  | .max => True
  | .width w => w ≤ bound
  | .height h => h ≤ bound
  | .percent _ => True
  | .exact w h => w ≤ bound ∧ h ≤ bound
  | .confined w h => w ≤ bound ∧ h ≤ bound

namespace Size

variable {cs : List Char} {s : Size} {rw rh : ℤ} {m n : ℕ}

theorem exists_confinedFactor {w h : ℤ} (hw0 : 0 ≤ w) (hw : w ≤ 2 ^ n) (hh0 : 0 ≤ h)
    (hh : h ≤ 2 ^ n) (hrw : 0 < rw) (hrh : 0 < rh) (hn : n ≤ 1023) (upscale : Bool) :
    ∃ x, confinedFactor rw rh w h upscale = .ok x ∧ x.AtMost n := by
  obtain ⟨y, hy, hyle⟩ := floatQuotient_atMost hw0 hw hrw hn
  obtain ⟨z, hz, hzle⟩ := floatQuotient_atMost hh0 hh hrh hn
  unfold confinedFactor
  rw [hy, Outcome.ok_bind, hz, Outcome.ok_bind]
  refine ⟨_, rfl, ?_⟩
  split_ifs
  · exact hyle.min hzle
  · exact (hyle.min hzle).min (Binary64.one_atMost (k := n))

/-- **What is delivered of a region comes to dimensions** that are in range. -/
theorem exists_delivered (hs : s.form.Spells cs) (hform : s.form.AtMost (2 ^ n)) (hw0 : 0 < rw)
    (hw : rw ≤ 2 ^ m) (hh0 : 0 < rh) (hh : rh ≤ 2 ^ m) (hm : m ≤ 511) (hmn : m + n ≤ 1022) :
    ∃ ow oh, s.delivered rw rh = .ok (ow, oh) ∧ (0 ≤ ow ∧ ow ≤ 2 ^ 1023) ∧
      0 ≤ oh ∧ oh ≤ 2 ^ 1023 := by
  have hle : ∀ {a : ℤ} {k : ℕ}, k ≤ 1023 → a ≤ 2 ^ k → a ≤ 2 ^ 1023 := fun hk ha =>
    ha.trans (pow_le_pow_right₀ (by norm_num) hk)
  obtain ⟨x, q, hx, hxv, hxlow, hxhigh⟩ := exists_proportion hh0 hh hw0 hw (by omega)
  have haspect : aspect rw rh = .ok x := by
    unfold aspect
    rw [if_neg (by omega), hx]
  obtain ⟨form, upscale⟩ := s
  unfold delivered
  rw [haspect, Outcome.ok_bind]
  unfold deliveredWith
  dsimp only at hs hform ⊢
  cases hs with
  | max => exact ⟨_, _, rfl, ⟨hw0.le, hle (by omega) hw⟩, hh0.le, hle (by omega) hh⟩
  | @width cw w =>
    have hwle : (w : ℤ) ≤ 2 ^ n := hform
    obtain ⟨o, ho, ho0, hole⟩ := exists_scaled ⟨q, hxv, hxhigh⟩ (Int.natCast_nonneg w) hwle
      (by omega)
    dsimp only
    rw [ho]
    exact ⟨_, _, rfl, ⟨by omega, hle (by omega) hwle⟩, ho0, hle (by omega) hole⟩
  | @height ch h =>
    have hhle : (h : ℤ) ≤ 2 ^ n := hform
    obtain ⟨o, ho, ho0, hole⟩ := exists_unscaled hxv hxlow (Int.natCast_nonneg h) hhle (by omega)
    dsimp only
    rw [ho]
    exact ⟨_, _, rfl, ⟨ho0, hle (by omega) hole⟩, by omega, hle (by omega) hhle⟩
  | @percent cn p hp =>
    have hp50 : p.AtMost 50 := Segment.Token.hasValue_of_readDecimal hp
    obtain ⟨o, ho, ho0, hole⟩ := exists_percentOf hp50 hw0.le hw (by omega)
    obtain ⟨o', ho', ho0', hole'⟩ := exists_percentOf hp50 hh0.le hh (by omega)
    dsimp only
    rw [ho, Outcome.ok_bind, ho']
    exact ⟨_, _, rfl, ⟨ho0, hle (by omega) hole⟩, ho0', hle (by omega) hole'⟩
  | @exact cw ch w h =>
    exact ⟨_, _, rfl, ⟨by omega, hle (by omega) hform.1⟩, by omega, hle (by omega) hform.2⟩
  | @confined cw ch w h =>
    obtain ⟨p, hp, hple⟩ := exists_confinedFactor (by omega) hform.1 (by omega) hform.2 hw0 hh0
      (by omega) upscale
    obtain ⟨o, ho, ho0, hole⟩ := exists_scaled hple hw0.le hw (by omega)
    obtain ⟨o', ho', ho0', hole'⟩ := exists_scaled hple hh0.le hh (by omega)
    dsimp only
    rw [hp, Outcome.ok_bind, ho, Outcome.ok_bind, ho']
    exact ⟨_, _, rfl, ⟨ho0, hle (by omega) hole⟩, ho0', hle (by omega) hole'⟩

end Size

end IiifRules
