import Mathlib
import IiifRules.Proofs.Numeric.Pixel
import IiifRules.Proofs.Request.Range

/-! # No rounding enlarges a region

A length that is computed in binary64 may come out above its exact value, by a relative error of
`2^-53` for each operation. Rounding to the nearest pixel hides that error: if the exact value is at
most `n ≤ 2^31`, so is the computed one.

* `Region.dimensions_le`: a region has no more pixels than the image.
* `Size.delivered_le`: what is delivered without enlarging is not larger than the region. -/

namespace IiifRules

open Numeric

/-! ### Percentages and proportions -/

section

variable {x : Binary64} {p : ℚ} {length n m : ℤ}

/-- A percentage is computed from a product and a quotient. -/
theorem percentOf_eq (hx : x.HasValue p) (hp : p ≤ 2 ^ 53) (hl0 : 0 ≤ length)
    (hl : length ≤ 2 ^ 31) : ∃ z, z.HasValue (nearest (nearest (length * p) / 100)) ∧
      percentOf length x = roundHalfUp z := by
  have hl0' : (0 : ℚ) ≤ length := by exact_mod_cast hl0
  have hl' : (length : ℚ) ≤ 2 ^ 31 := by exact_mod_cast hl
  have hprod : (length * p : ℚ) ≤ 2 ^ 84 := by
    calc (length * p : ℚ) ≤ 2 ^ 31 * 2 ^ 53 := mul_le_mul hl' hp hx.nonneg (by norm_num)
      _ = 2 ^ 84 := by norm_num
  have hnear := nearest_le_of_le (mul_nonneg hl0' hx.nonneg) hprod (isBinary64_two_pow 84)
  obtain ⟨y, hy, hyv⟩ := floatOfInt_exact hl0 (by omega)
  have hmul := hyv.mul hx hprod (by norm_num)
  have hhundred : (Binary64.ofInt 100).HasValue 100 := by
    have := Binary64.ofInt_exact (n := 100) (by norm_num) (by norm_num)
    rwa [Int.cast_ofNat] at this
  obtain ⟨z, hz, hzv⟩ := hmul.div hhundred (by norm_num) (k := 84) (by linarith) (by norm_num)
  refine ⟨z, hzv, ?_⟩
  unfold percentOf
  rw [hy, Outcome.ok_bind, hz, Outcome.ok_bind]

theorem percentOf_le (hx : x.HasValue p) (hp : p ≤ 100) (hl0 : 0 < length) (hl : length ≤ 2 ^ 31)
    (h : percentOf length x = .ok m) : m ≤ length := by
  obtain ⟨z, hz, heq⟩ :=
    percentOf_eq hx (hp.trans (show (100 : ℚ) ≤ 2 ^ 53 by norm_num)) hl0.le hl
  have hl1 : (1 : ℚ) ≤ length := by exact_mod_cast hl0
  have hnear : nearest (length * p) ≤ length * 100 * (1 + 1 / 2 ^ 53) :=
    nearest_le_mul (mul_nonneg (by linarith) hx.nonneg)
      (mul_le_mul_of_nonneg_left hp (by linarith))
      (by linarith [show (1 : ℚ) / 2 ^ 200 ≤ 1 by norm_num])
  rw [heq] at h
  rw [hz.eq_pixels h]
  exact pixels_nearest_le hl0 hl (by have := nearest_nonneg (length * p); positivity) (by linarith)

/-- What a length times a factor comes to. -/
theorem scaled_eq_pixels (hx : x.HasValue p) (hl0 : 0 ≤ length)
    (h : Size.scaled length x = .ok n) : n = pixels (nearest (nearest length * p)) := by
  obtain ⟨y, hy, h⟩ := Outcome.bind_eq_ok.mp h
  exact (hasValue_of_floatOfInt hl0 hy).eq_pixels_of_mul hx h

theorem unscaled_eq_pixels (hx : x.HasValue p) (hp : 0 < p) (hl0 : 0 ≤ length)
    (h : Size.unscaled length x = .ok n) : n = pixels (nearest (nearest length / p)) := by
  obtain ⟨y, hy, h⟩ := Outcome.bind_eq_ok.mp h
  obtain ⟨z, hz, h⟩ := Outcome.bind_eq_ok.mp h
  exact (hasValue_of_floatOfInt hl0 hy).eq_pixels_of_div hx hp hz h

theorem scaled_le (hx : x.HasValue p) (hl0 : 0 ≤ length) (hl : length ≤ 2 ^ 31) (hn0 : 0 < n)
    (hn : n ≤ 2 ^ 31) (hp : length * p ≤ n * (1 + 1 / 2 ^ 52))
    (h : Size.scaled length x = .ok m) : m ≤ n := by
  have hl0' : (0 : ℚ) ≤ length := by exact_mod_cast hl0
  rw [scaled_eq_pixels hx hl0 h, nearest_intCast hl0 (by omega)]
  exact pixels_nearest_le hn0 hn (mul_nonneg hl0' hx.nonneg) hp

/-- A factor of at most one does not enlarge. -/
theorem scaled_le_self (hx : x.HasValue p) (hp : p ≤ 1) (hl0 : 0 < length) (hl : length ≤ 2 ^ 31)
    (h : Size.scaled length x = .ok m) : m ≤ length := by
  have hl0' : (0 : ℚ) < length := by exact_mod_cast hl0
  refine scaled_le hx hl0.le hl hl0 hl ?_ h
  gcongr
  linarith [show (0 : ℚ) ≤ 1 / 2 ^ 52 by positivity]

theorem unscaled_le (hx : x.HasValue p) (hp0 : 0 < p) (hl0 : 0 ≤ length) (hl : length ≤ 2 ^ 31)
    (hn0 : 0 < n) (hn : n ≤ 2 ^ 31) (hp : length / p ≤ n * (1 + 1 / 2 ^ 52))
    (h : Size.unscaled length x = .ok m) : m ≤ n := by
  have hl0' : (0 : ℚ) ≤ length := by exact_mod_cast hl0
  rw [unscaled_eq_pixels hx hp0 hl0 h, nearest_intCast hl0 (by omega)]
  exact pixels_nearest_le hn0 hn (div_nonneg hl0' hp0.le) hp

end

/-! ### Regions -/

/-- **A region has no more pixels than the image.** -/
theorem Region.dimensions_le {cs : List Char} {r : Region} {width height rw rh : ℤ}
    (hs : Spells cs r) (hw0 : 0 < width) (hw : width ≤ 2 ^ 31) (hh0 : 0 < height)
    (hh : height ≤ 2 ^ 31) (h : r.dimensions width height = .ok (rw, rh)) :
    rw ≤ width ∧ rh ≤ height := by
  obtain ⟨rw', rh', hdim, ⟨-, hwle⟩, -, hhle⟩ :=
    exists_dimensions hs hw0 hw hh0 hh (by norm_num)
  rw [h] at hdim
  cases hdim
  exact ⟨hwle, hhle⟩

/-! ### Sizes -/

/-- The size names no more than the region has, as far as it names anything. -/
def SizeForm.Within (rw rh : ℤ) : SizeForm → Prop
  | .max => True
  | .width w => w ≤ rw
  | .height h => h ≤ rh
  | .percent n => Binary64.lt (.ofInt 100) n = false
  | .exact w h => w ≤ rw ∧ h ≤ rh
  | .confined _ _ => True

namespace Size

variable {cs : List Char} {s : Size} {rw rh ow oh : ℤ} {x : Binary64}

/-- The aspect of a region is its proportion, rounded. -/
theorem aspect_hasValue (hw0 : 0 < rw) (hh0 : 0 < rh) (h : aspect rw rh = .ok x) :
    x.HasValue (nearest (rh / rw)) := by
  unfold aspect at h
  rw [if_neg (by omega)] at h
  exact hasValue_of_floatQuotient hh0.le hw0 h

/-- **A region has an aspect**, which is neither too great nor too small. -/
theorem exists_aspect (hw0 : 0 < rw) (hw : rw ≤ 2 ^ 31) (hh0 : 0 < rh) (hh : rh ≤ 2 ^ 31) :
    ∃ x, aspect rw rh = .ok x ∧ x.HasValue (nearest (rh / rw)) ∧
      1 / 2 ^ 31 ≤ nearest (rh / rw) ∧ nearest (rh / rw) ≤ 2 ^ 31 := by
  obtain ⟨x, q, hx, hv, hlow, hhigh⟩ := exists_proportion hh0 hh hw0 hw (by norm_num)
  have haspect : aspect rw rh = .ok x := by
    unfold aspect
    rw [if_neg (by omega), hx]
  obtain rfl := hv.unique (aspect_hasValue hw0 hh0 haspect)
  exact ⟨x, haspect, hv, hlow, hhigh⟩

section

variable {n : ℤ} (hw0 : 0 < rw) (hw : rw ≤ 2 ^ 31) (hh0 : 0 < rh)
include hw0 hw hh0

theorem near_aspect : Near (nearest (rh / rw)) (rh / rw) :=
  near_nearest (le_proportion_of_lengths hh0 hw0 (hw.trans (by norm_num)))

theorem aspect_pos : 0 < nearest (rh / rw) := by
  have hlower := (near_aspect hw0 hw hh0).lower
  have : (0 : ℚ) < rh / rw := div_pos (by exact_mod_cast hh0) (by exact_mod_cast hw0)
  linarith

/-- **The height that belongs to a width**, computed from the rounded aspect. -/
theorem near_mul_aspect (hn : 0 ≤ n) : Near (n * nearest (rh / rw)) ((n * rh : ℤ) / rw) := by
  rw [Int.cast_mul, mul_div_assoc]
  exact (near_aspect hw0 hw hh0).mul_left (by exact_mod_cast hn)

/-- **The width that belongs to a height**, computed from the rounded aspect. -/
theorem near_div_aspect (hn : 0 ≤ n) : Near (n / nearest (rh / rw)) ((n * rw : ℤ) / rh) := by
  have hq0 : (0 : ℚ) < rh / rw := div_pos (by exact_mod_cast hh0) (by exact_mod_cast hw0)
  rw [Int.cast_mul, ← div_div_eq_mul_div]
  exact (near_aspect hw0 hw hh0).div_left (aspect_pos hw0 hw hh0) hq0 (by exact_mod_cast hn)

end

/-- A length in proportion to one within a side is within the other side, but for two roundings. -/
theorem le_of_near_of_le {c : ℚ} {n side other : ℤ} (hnear : Near c ((n * other : ℤ) / side))
    (hs0 : 0 < side) (ho0 : 0 ≤ other) (hle : n ≤ side) : c ≤ other * (1 + 1 / 2 ^ 52) := by
  have hs0' : (0 : ℚ) < side := by exact_mod_cast hs0
  have ho0' : (0 : ℚ) ≤ other := by exact_mod_cast ho0
  have hexact : ((n * other : ℤ) / side : ℚ) ≤ other := by
    rw [div_le_iff₀ hs0', mul_comm (other : ℚ)]
    exact_mod_cast mul_le_mul_of_nonneg_right hle ho0
  calc c ≤ (n * other : ℤ) / side * (1 + 1 / 2 ^ 53) := hnear.upper
    _ ≤ other * (1 + 1 / 2 ^ 52) := by gcongr <;> norm_num

/-- **The factor of a confined size** is the less of two proportions, or one if that is less and
nothing may be enlarged. -/
theorem confinedFactor_hasValue {w h : ℤ} {upscale : Bool} (hw : 0 ≤ w) (hh : 0 ≤ h)
    (hw0 : 0 < rw) (hh0 : 0 < rh) (hx : confinedFactor rw rh w h upscale = .ok x) :
    x.HasValue (if upscale then nearest (w / rw) ⊓ nearest (h / rh)
      else nearest (w / rw) ⊓ nearest (h / rh) ⊓ 1) := by
  obtain ⟨y, hy, hx⟩ := Outcome.bind_eq_ok.mp hx
  obtain ⟨z, hz, hx⟩ := Outcome.bind_eq_ok.mp hx
  have hfit := (hasValue_of_floatQuotient hw hw0 hy).min (hasValue_of_floatQuotient hh hh0 hz)
  cases hx
  cases upscale with
  | true =>
    rw [if_pos rfl, if_pos rfl]
    exact hfit
  | false =>
    rw [if_neg Bool.false_ne_true, if_neg Bool.false_ne_true]
    exact hfit.min Binary64.one_hasValue

/-- **What is delivered without enlarging** is not larger than the region. -/
theorem delivered_le (hs : s.form.Spells cs) (hup : s.upscale = false)
    (hwithin : s.form.Within rw rh) (hw0 : 0 < rw) (hw : rw ≤ 2 ^ 31) (hh0 : 0 < rh)
    (hh : rh ≤ 2 ^ 31) (h : s.delivered rw rh = .ok (ow, oh)) : ow ≤ rw ∧ oh ≤ rh := by
  obtain ⟨form, upscale⟩ := s
  obtain ⟨x, hx, h⟩ := Outcome.bind_eq_ok.mp h
  have hxv := aspect_hasValue hw0 hh0 hx
  cases hs with
  | max => cases h; exact ⟨le_rfl, le_rfl⟩
  | @width cw w =>
    obtain ⟨m, hm, h⟩ := Outcome.bind_eq_ok.mp h
    cases h
    have hle : (w : ℤ) ≤ rw := hwithin
    have hnear := near_mul_aspect hw0 hw hh0 (Int.natCast_nonneg w)
    exact ⟨hle, scaled_le hxv (by omega) (by omega) hh0 hh
      (le_of_near_of_le hnear hw0 hh0.le hle) hm⟩
  | @height ch h' =>
    obtain ⟨m, hm, h⟩ := Outcome.bind_eq_ok.mp h
    cases h
    have hle : (h' : ℤ) ≤ rh := hwithin
    have hnear := near_div_aspect hw0 hw hh0 (Int.natCast_nonneg h')
    exact ⟨unscaled_le hxv (aspect_pos hw0 hw hh0) (by omega) (by omega) hw0 hw
      (le_of_near_of_le hnear hh0 hw0.le hle) hm, hle⟩
  | @percent cn n hn =>
    obtain ⟨m, hm, h⟩ := Outcome.bind_eq_ok.mp h
    obtain ⟨m', hm', h⟩ := Outcome.bind_eq_ok.mp h
    cases h
    obtain ⟨p, hp, -⟩ := Segment.Token.hasValue_of_readDecimal hn
    have hp100 : p ≤ 100 := by
      have hlt : Binary64.lt (.ofInt 100) n = false := hwithin
      have hhundred := Binary64.ofInt_exact (n := 100) (by norm_num) (by norm_num)
      rw [hhundred.lt hp, decide_eq_false_iff_not, not_lt, Int.cast_ofNat] at hlt
      exact hlt
    exact ⟨percentOf_le hp hp100 hw0 hw hm, percentOf_le hp hp100 hh0 hh hm'⟩
  | exact => cases h; exact hwithin
  | @confined cw ch w h' =>
    obtain ⟨factor, hfactor, h⟩ := Outcome.bind_eq_ok.mp h
    obtain ⟨m, hm, h⟩ := Outcome.bind_eq_ok.mp h
    obtain ⟨m', hm', h⟩ := Outcome.bind_eq_ok.mp h
    cases h
    cases hup
    have hp := confinedFactor_hasValue (by omega) (by omega) hw0 hh0 hfactor
    rw [if_neg Bool.false_ne_true] at hp
    exact ⟨scaled_le_self hp inf_le_right hw0 hw hm, scaled_le_self hp inf_le_right hh0 hh hm'⟩

end Size

end IiifRules
