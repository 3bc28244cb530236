import Mathlib
import IiifRules.Proofs.Numeric.Half
import IiifRules.Proofs.Request.Geometry

/-! # Lengths in proportion

A size may name one length only; the other one is in proportion to the region. It is computed from
the aspect of the region, a rounded number, and so may differ from the exact proportion, rounded to
whole pixels: by one pixel, and only where that proportion is a half.

* `Size.delivered_width`, `Size.delivered_height`: what is delivered at one length.
* `Size.derived_length`: the other length is in proportion, unless a half is lost. -/

namespace IiifRules.Size

open Numeric

variable {rw rh n : ℤ}

theorem delivered_width (hw0 : 0 < rw) (hw : rw ≤ 2 ^ 31) (hh0 : 0 < rh) (hh : rh ≤ 2 ^ 31)
    (hn0 : 0 ≤ n) (hn : n ≤ 2 ^ 31) (upscale : Bool) :
    (Size.mk (.width n) upscale).delivered rw rh =
      .ok (n, pixels (nearest (n * nearest (rh / rw)))) := by
  obtain ⟨x, hx, hv, -, hhigh⟩ := exists_aspect hw0 hw hh0 hh
  obtain ⟨m, hm, -⟩ := exists_scaled ⟨_, hv, hhigh⟩ hn0 hn (by norm_num)
  have hpixels := scaled_eq_pixels hv hn0 hm
  rw [nearest_intCast hn0 (by omega)] at hpixels
  unfold delivered
  rw [hx, Outcome.ok_bind]
  unfold deliveredWith
  dsimp only
  rw [hm, hpixels]
  rfl

theorem delivered_height (hw0 : 0 < rw) (hw : rw ≤ 2 ^ 31) (hh0 : 0 < rh) (hh : rh ≤ 2 ^ 31)
    (hn0 : 0 ≤ n) (hn : n ≤ 2 ^ 31) (upscale : Bool) :
    (Size.mk (.height n) upscale).delivered rw rh =
      .ok (pixels (nearest (n / nearest (rh / rw))), n) := by
  obtain ⟨x, hx, hv, hlow, -⟩ := exists_aspect hw0 hw hh0 hh
  obtain ⟨m, hm, -⟩ := exists_unscaled hv hlow hn0 hn (by norm_num)
  have hpixels := unscaled_eq_pixels hv (aspect_pos hw0 hw hh0) hn0 hm
  rw [nearest_intCast hn0 (by omega)] at hpixels
  unfold delivered
  rw [hx, Outcome.ok_bind]
  unfold deliveredWith
  dsimp only
  rw [hm, hpixels]
  rfl

/-- **The other length is in proportion**, rounded to whole pixels, halves up; but a half that is
lost goes down. -/
theorem derived_length (hw0 : 0 < rw) (hw : rw ≤ 2 ^ 20) (hh0 : 0 < rh) (hh : rh ≤ 2 ^ 20)
    (hn0 : 0 < n) (hn : n ≤ 2 ^ 20) (upscale : Bool) :
    (∃ m, (Size.mk (.width n) upscale).delivered rw rh = .ok (n, m) ∧
      (¬HalfLost (n * rh / rw) (n * nearest (rh / rw)) → m = ⌊(n * rh / rw + 1 / 2 : ℚ)⌋) ∧
      (HalfLost (n * rh / rw) (n * nearest (rh / rw)) → m = ⌊(n * rh / rw + 1 / 2 : ℚ)⌋ - 1)) ∧
    (∃ m, (Size.mk (.height n) upscale).delivered rw rh = .ok (m, n) ∧
      (¬HalfLost (n * rw / rh) (n / nearest (rh / rw)) → m = ⌊(n * rw / rh + 1 / 2 : ℚ)⌋) ∧
      (HalfLost (n * rw / rh) (n / nearest (rh / rw)) → m = ⌊(n * rw / rh + 1 / 2 : ℚ)⌋ - 1)) := by
  have hprod : ∀ l : ℤ, 0 < l → l ≤ 2 ^ 20 → 0 < n * l ∧ n * l ≤ 2 ^ 40 := by
    intro l hl0 hl
    refine ⟨mul_pos hn0 hl0, ?_⟩
    calc n * l ≤ 2 ^ 20 * 2 ^ 20 := mul_le_mul hn hl hl0.le (by norm_num)
      _ = 2 ^ 40 := by norm_num
  constructor
  · have hnear := near_mul_aspect hw0 (by omega) hh0 hn0.le
    obtain ⟨ha0, ha⟩ := hprod rh hh0 hh
    obtain ⟨hlost, hkept⟩ := hnear.pixels_eq hw0 hw ha0 ha
    rw [Int.cast_mul] at hlost hkept
    exact ⟨_, delivered_width hw0 (by omega) hh0 (by omega) hn0.le (by omega) upscale, hkept, hlost⟩
  · have hnear := near_div_aspect hw0 (by omega) hh0 hn0.le
    obtain ⟨ha0, ha⟩ := hprod rw hw0 hw
    obtain ⟨hlost, hkept⟩ := hnear.pixels_eq hh0 hh ha0 ha
    rw [Int.cast_mul] at hlost hkept
    exact ⟨_, delivered_height hw0 (by omega) hh0 (by omega) hn0.le (by omega) upscale, hkept,
      hlost⟩

/-- The height at width 21 of 14 by 17 pixels is 25 and a half, which is lost; the one at width 5 of
10 by 5 pixels is 2 and a half, which is not. -/
theorem derived_length_of_lost_half :
    ((Size.mk (.width 21) false).delivered 14 17 = .ok (21, 25) ∧
      HalfLost (21 * 17 / 14) (21 * nearest (17 / 14))) ∧
    ((Size.mk (.width 5) true).delivered 10 5 = .ok (5, 3) ∧
      ¬HalfLost (5 * 5 / 10) (5 * nearest (5 / 10))) := by
  have hlost : (Size.mk (.width 21) false).delivered 14 17 = .ok (21, 25) := by decide +kernel
  have hkept : (Size.mk (.width 5) true).delivered 10 5 = .ok (5, 3) := by decide +kernel
  refine ⟨⟨hlost, ?_⟩, hkept, ?_⟩
  · obtain ⟨⟨m, hm, hround, -⟩, -⟩ := @derived_length 14 17 21
      (by norm_num) (by norm_num) (by norm_num) (by norm_num) (by norm_num) (by norm_num) false
    rw [hlost] at hm
    cases hm
    by_contra hnot
    push_cast at hround
    have := hround hnot
    norm_num at this
  · obtain ⟨⟨m, hm, -, hround⟩, -⟩ := @derived_length 10 5 5
      (by norm_num) (by norm_num) (by norm_num) (by norm_num) (by norm_num) (by norm_num) true
    rw [hkept] at hm
    cases hm
    intro hhalf
    push_cast at hround
    have := hround hhalf
    norm_num at this

/-- **Halves do not always go up**: the width at height 9 of 7 by 18 pixels is 3 and a half, and 3
pixels are delivered. -/
theorem not_halves_up : ¬∀ (rw rh w h : ℤ) (upscale : Bool), (0 < rw ∧ rw ≤ 2 ^ 20) →
    (0 < rh ∧ rh ≤ 2 ^ 20) → (0 < w ∧ w ≤ 2 ^ 20) → (0 < h ∧ h ≤ 2 ^ 20) →
    (Size.mk (.width w) upscale).delivered rw rh = .ok (w, ⌊(w * rh / rw + 1 / 2 : ℚ)⌋) ∧
      (Size.mk (.height h) upscale).delivered rw rh = .ok (⌊(h * rw / rh + 1 / 2 : ℚ)⌋, h) := by
  intro hall
  obtain ⟨-, hheight⟩ := hall 7 18 1 9 false (by norm_num) (by norm_num) (by norm_num) (by norm_num)
  have hdown : (Size.mk (.height 9) false).delivered 7 18 = .ok (3, 9) := by decide +kernel
  rw [hdown] at hheight
  norm_num at hheight

end IiifRules.Size
