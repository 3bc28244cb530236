import Mathlib
import IiifRules.Proofs.Request.Derived
import IiifRules.Proofs.Request.Visible

/-! # Boxes

A confined size is a box, and the region is delivered as large as fits into it. Its factor is the
less of two rounded quotients, with which both lengths are multiplied again; the nearest whole
pixels hide these errors, so that nothing sticks out of the box and one side of it is filled.

* `Size.le_scaled`: a length in proportion reaches the length that its factor stands for.
* `Size.exists_delivered_confined`: what is delivered, by the factor.
* `Size.confined_fits`: it lies in the box, and no larger image would. -/

namespace IiifRules.Size

open Numeric

variable {rw rh w h n m length : ℤ} {x : Binary64} {p : ℚ}

/-! ### One side -/

/-- **A side reaches a bound** that is reached but for two roundings. -/
theorem le_scaled (hx : x.HasValue p) (hl0 : 0 ≤ length) (hl : length ≤ 2 ^ 31) (hn0 : 0 < n)
    (hn : n ≤ 2 ^ 31) (hp : n ≤ length * p * (1 + 1 / 2 ^ 52)) (h : scaled length x = .ok m) :
    n ≤ m := by
  rw [scaled_eq_pixels hx hl0 h, nearest_intCast hl0 (by omega)]
  exact le_pixels_nearest hn0 hn hp

theorem near_mul_quotient (hl0 : 0 < length) (hl : length ≤ 2 ^ 31) (hn0 : 0 < n) :
    Near (length * nearest (n / length)) n := by
  have hl0' : (0 : ℚ) < length := by exact_mod_cast hl0
  have hnear := near_nearest (le_proportion_of_lengths hn0 hl0 (hl.trans (by norm_num)))
  have hmul := hnear.mul_left hl0'.le
  rwa [mul_div_cancel₀ _ hl0'.ne'] at hmul

section

variable (hl0 : 0 < length) (hl : length ≤ 2 ^ 31) (hn0 : 0 < n) (hn : n ≤ 2 ^ 31)
include hl0 hl hn0 hn

theorem scaled_le_of_le_quotient (hx : x.HasValue p) (hp : p ≤ nearest (n / length))
    (h : scaled length x = .ok m) : m ≤ n := by
  have hl0' : (0 : ℚ) < length := by exact_mod_cast hl0
  have hn0' : (0 : ℚ) < n := by exact_mod_cast hn0
  have hupper := (near_mul_quotient hl0 hl hn0).upper
  refine scaled_le hx hl0.le hl hn0 hn ?_ h
  calc (length * p : ℚ) ≤ length * nearest (n / length) := mul_le_mul_of_nonneg_left hp hl0'.le
    _ ≤ n * (1 + 1 / 2 ^ 53) := hupper
    _ ≤ n * (1 + 1 / 2 ^ 52) := by gcongr <;> norm_num

theorem scaled_quotient_eq (hx : x.HasValue (nearest (n / length)))
    (h : scaled length x = .ok m) : m = n := by
  have hl0' : (0 : ℚ) < length := by exact_mod_cast hl0
  have hprod : (0 : ℚ) ≤ length * nearest (n / length) := mul_nonneg hl0'.le (nearest_nonneg _)
  have hlower := (near_mul_quotient hl0 hl hn0).lower
  refine le_antisymm (scaled_le_of_le_quotient hl0 hl hn0 hn hx le_rfl h) ?_
  refine le_scaled hx hl0.le hl hn0 hn (hlower.trans ?_) h
  gcongr <;> norm_num

end

theorem scaled_one_eq (hl0 : 0 < length) (hl : length ≤ 2 ^ 31) (hx : x.HasValue 1)
    (h : scaled length x = .ok m) : m = length := by
  have hl0' : (0 : ℚ) < length := by exact_mod_cast hl0
  refine le_antisymm (scaled_le_self hx le_rfl hl0 hl h) (le_scaled hx hl0.le hl hl0 hl ?_ h)
  rw [mul_one]
  exact le_mul_of_one_le_right hl0'.le (by norm_num)

/-! ### Both sides -/

section

variable (hw0 : 0 < rw) (hw : rw ≤ 2 ^ 31) (hh0 : 0 < rh) (hh : rh ≤ 2 ^ 31) (hbw0 : 0 < w)
  (hbw : w ≤ 2 ^ 31) (hbh0 : 0 < h) (hbh : h ≤ 2 ^ 31)
include hw0 hw hh0 hh hbw0 hbw hbh0 hbh

theorem exists_delivered_confined (upscale : Bool) : ∃ x ow oh,
    confinedFactor rw rh w h upscale = .ok x ∧ scaled rw x = .ok ow ∧ scaled rh x = .ok oh ∧
      (Size.mk (.confined w h) upscale).delivered rw rh = .ok (ow, oh) := by
  obtain ⟨a, ha, -⟩ := exists_aspect hw0 hw hh0 hh
  obtain ⟨x, hx, hxle⟩ :=
    exists_confinedFactor hbw0.le hbw hbh0.le hbh hw0 hh0 (by norm_num) upscale
  obtain ⟨ow, how, -⟩ := exists_scaled hxle hw0.le hw (by norm_num)
  obtain ⟨oh, hoh, -⟩ := exists_scaled hxle hh0.le hh (by norm_num)
  refine ⟨x, ow, oh, hx, how, hoh, ?_⟩
  unfold delivered
  rw [ha, Outcome.ok_bind]
  unfold deliveredWith
  dsimp only
  rw [hx, Outcome.ok_bind, how, Outcome.ok_bind, hoh]
  rfl

/-- **The region is delivered as large as fits into the box**: nothing sticks out, nothing is
enlarged unless it may be, and one side of the box is filled or the whole region is there. -/
theorem confined_fits (upscale : Bool) : ∃ ow oh,
    (Size.mk (.confined w h) upscale).delivered rw rh = .ok (ow, oh) ∧ (ow ≤ w ∧ oh ≤ h) ∧
      (upscale = false → ow ≤ rw ∧ oh ≤ rh) ∧
      (ow = w ∨ oh = h ∨ upscale = false ∧ ow = rw ∧ oh = rh) := by
  obtain ⟨x, ow, oh, hx, how, hoh, hdelivered⟩ :=
    exists_delivered_confined hw0 hw hh0 hh hbw0 hbw hbh0 hbh upscale
  obtain ⟨f, hf, hfw, hfh, hf1, hcases⟩ := confinedFactor_cases hbw0.le hbh0.le hw0 hh0 hx
  have hboxw := scaled_le_of_le_quotient hw0 hw hbw0 hbw hf hfw how
  have hboxh := scaled_le_of_le_quotient hh0 hh hbh0 hbh hf hfh hoh
  refine ⟨ow, oh, hdelivered, ⟨hboxw, hboxh⟩, fun hup => ?_, ?_⟩
  · exact ⟨scaled_le_self hf (hf1 hup) hw0 hw how, scaled_le_self hf (hf1 hup) hh0 hh hoh⟩
  · rcases hcases with rfl | rfl | ⟨hup, rfl⟩
    · exact .inl (scaled_quotient_eq hw0 hw hbw0 hbw hf how)
    · exact .inr (.inl (scaled_quotient_eq hh0 hh hbh0 hbh hf hoh))
    · exact .inr (.inr ⟨hup, scaled_one_eq hw0 hw hf how, scaled_one_eq hh0 hh hf hoh⟩)

end

/-- A wide strip in a square box fills its width: its height cannot be that of the box. -/
theorem confined_fits_of_strip : ∃ oh,
    (Size.mk (.confined 1000 1000) false).delivered 4001 2 = .ok (1000, oh) ∧ oh ≤ 2 := by
  obtain ⟨ow, oh, hdelivered, ⟨hwide, -⟩, hregion, hfilled⟩ := @confined_fits 4001 2 1000 1000
    (by norm_num) (by norm_num) (by norm_num) (by norm_num) (by norm_num) (by norm_num)
    (by norm_num) (by norm_num) false
  obtain ⟨-, hflat⟩ := hregion rfl
  obtain rfl : ow = 1000 := by omega
  exact ⟨oh, hdelivered, hflat⟩

end IiifRules.Size
