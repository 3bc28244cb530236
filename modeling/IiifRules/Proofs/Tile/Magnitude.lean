import Mathlib
import IiifRules.Proofs.Numeric.Quotient
import IiifRules.Proofs.Tile.Count

/-! # Grids of any magnitude

The columns and rows of a grid are counted through rounded quotients. Nothing is lost on the way if
all quantities are at most `2^53`; beyond that the count may differ from the number of tiles that
begin within the image, be zero, or fail.

* `stepCount`: the number of steps that begin within a length.
* `CountKept`: the count in one direction is the exact one.
* `Grid.count_eq_stepCount_iff`: for which grids the count is exact, and for which it fails. -/

namespace IiifRules

open Numeric

/-- **The number of steps** that begin within a length. -/
def stepCount (length step : ℤ) : ℤ :=
  ((Finset.range length.toNat).filter fun p : ℕ => step ∣ (p : ℤ)).card

variable {length factor tile step n m : ℤ}

/-! ### One direction -/

namespace Covering

theorem stepCount_eq (h : Covering n step length) : stepCount length step = n := by
  obtain ⟨s, rfl⟩ := Int.eq_ofNat_of_zero_le h.step_pos.le
  obtain ⟨k, rfl⟩ := Int.eq_ofNat_of_zero_le h.pos.le
  have hs : 0 < s := by have := h.step_pos; omega
  have hsteps : ((Finset.range length.toNat).filter fun p : ℕ => (s : ℤ) ∣ (p : ℤ)) =
      (Finset.range k).image fun i => i * s := by
    ext p
    simp only [Finset.mem_filter, Finset.mem_range, Finset.mem_image, Int.natCast_dvd_natCast]
    constructor
    · rintro ⟨hp, i, rfl⟩
      have hlt : (i : ℤ) * s < length := by rw [mul_comm]; exact_mod_cast Int.lt_toNat.mp hp
      exact ⟨i, by exact_mod_cast h.mul_lt_iff.mp hlt, mul_comm i s⟩
    · rintro ⟨i, hi, rfl⟩
      have hlt := h.mul_lt (i := i) (by exact_mod_cast hi)
      exact ⟨Int.lt_toNat.mpr (by exact_mod_cast hlt), Dvd.intro_left i rfl⟩
  unfold stepCount
  rw [hsteps, Finset.card_image_of_injective _ (mul_left_injective₀ hs.ne'), Finset.card_range]

/-- With a point less, as many strips are just enough unless the last one had that point alone. -/
theorem pred_iff (h : Covering n step (m + 1)) : Covering n step m ↔ ¬step ∣ m := by
  constructor
  · rintro hm ⟨c, rfl⟩
    have hlow := hm.last_lt
    have hhigh := h.le_mul
    rw [mul_comm step] at hlow hhigh
    have hc : n - 1 < c := lt_of_mul_lt_mul_right hlow h.step_pos.le
    have hc' : c < n := lt_of_mul_lt_mul_right (by omega) h.step_pos.le
    omega
  · intro hdvd
    have hlow := h.last_lt
    have hhigh := h.le_mul
    have hne : (n - 1) * step ≠ m := fun heq => hdvd (Dvd.intro_left _ heq)
    exact ⟨h.pos, h.step_pos, by omega, by omega⟩

end Covering

/-- What is counted for a length, a scale factor and the side of a tile. -/
def counted (length factor tile : ℤ) : ℤ :=
  ⌈nearest (⌈nearest (length / factor)⌉ / tile)⌉

/-- **The count in one direction is exact.** The length, scaled, is in range. If it comes to no more
than `2^53` pixels, an excess over whole pixels may be lost only if there is no tile that has that
excess alone, and the tiles must not be so large that their number is rounded to zero. If it comes
to more, then what its rounded value comes to, in tiles, is the exact number of them. -/
structure CountKept (length factor tile : ℤ) : Prop where
  inRange : (length / factor : ℚ) < rangeEnd
  of_lost : length ≤ 2 ^ 53 * factor → ExcessLost (length / factor) →
    ¬tile ∣ ⌈(length / factor : ℚ)⌉ - 1 ∧
      tile < 2 * unitsPerOne * (⌈(length / factor : ℚ)⌉ - 1)
  of_kept : length ≤ 2 ^ 53 * factor → ¬ExcessLost (length / factor) →
    tile < 2 * unitsPerOne * ⌈(length / factor : ℚ)⌉
  of_great : 2 ^ 53 * factor < length →
    ⌈nearest (nearest (length / factor) / tile)⌉ = ⌈(length / (tile * factor) : ℚ)⌉

theorem counted_of_great (hf : 0 < factor) (hgt : 2 ^ 53 * factor < length) :
    counted length factor tile = ⌈nearest (nearest (length / factor) / tile)⌉ := by
  have hf' : (0 : ℚ) < factor := by exact_mod_cast hf
  have hge : (2 ^ 53 : ℚ) ≤ length / factor := by
    rw [le_div_iff₀ hf']
    exact_mod_cast hgt.le
  have hnear := le_nearest_of_le (by norm_num) hge (isBinary64_two_pow 53)
  unfold counted
  rw [(isBinary64_nearest (le_trans (by norm_num) hge)).ceil_eq hnear]

section

variable (ht : 0 < tile)
include ht

/-- A number of pixels in tiles, rounded: just enough of them, or none if it is rounded to zero. -/
theorem ceil_nearest_div (hm : 0 ≤ m) (hM : m ≤ 2 ^ 53) :
    (tile < 2 * unitsPerOne * m → Covering ⌈nearest (m / tile)⌉ tile m) ∧
      (2 * unitsPerOne * m ≤ tile → ⌈nearest (m / tile)⌉ = 0) := by
  have hm' : (0 : ℚ) ≤ m := by exact_mod_cast hm
  have ht' : (0 : ℚ) < tile := by exact_mod_cast ht
  have hu := unitsPerOne_pos
  constructor
  · intro hlt
    have hpos : 0 < m := by
      by_contra hle
      have hzero : m = 0 := by omega
      rw [hzero, mul_zero] at hlt
      omega
    have hkept : ¬ExcessLost (m / tile) := by
      rw [excessLost_div_iff hpos hM ht]
      omega
    have hle : (m / tile : ℚ) ≤ m := div_le_self hm' (by exact_mod_cast ht)
    have hM' : (m : ℚ) ≤ 2 ^ 53 := by exact_mod_cast hM
    rw [(ceil_nearest (div_pos (by exact_mod_cast hpos) ht') (hle.trans hM')).2 hkept]
    exact Covering.ceil hpos ht
  · intro hge
    have hge' : (2 * unitsPerOne * m : ℚ) ≤ tile := by exact_mod_cast hge
    have hsmall : (m / tile : ℚ) ≤ 1 / (2 * unitsPerOne) := by
      rw [div_le_div_iff₀ ht' (by positivity)]
      linarith
    have hzero := (nearest_nonpos_iff (div_nonneg hm' ht'.le)).mpr hsmall
    rw [le_antisymm hzero (nearest_nonneg _), Int.ceil_zero]

theorem ceil_nearest_div_eq_iff (hM : m ≤ 2 ^ 53) (hn : Covering n tile m) :
    ⌈nearest (m / tile)⌉ = n ↔ tile < 2 * unitsPerOne * m := by
  have hm : 0 < m := by simpa using hn.mul_lt hn.pos
  obtain ⟨hcover, hzero⟩ := ceil_nearest_div ht hm.le hM
  rcases lt_or_ge tile (2 * unitsPerOne * m) with hlt | hge
  · exact iff_of_true ((hcover hlt).unique hn) hlt
  · refine iff_of_false ?_ (not_lt.mpr hge)
    rw [hzero hge]
    exact hn.pos.ne

theorem ceil_nearest_div_pred_eq_iff (hm : 0 ≤ m) (hM : m ≤ 2 ^ 53)
    (hn : Covering n tile (m + 1)) :
    ⌈nearest (m / tile)⌉ = n ↔ ¬tile ∣ m ∧ tile < 2 * unitsPerOne * m := by
  obtain ⟨hcover, hzero⟩ := ceil_nearest_div ht hm hM
  rw [← hn.pred_iff]
  constructor
  · intro heq
    rcases lt_or_ge tile (2 * unitsPerOne * m) with hlt | hge
    · exact ⟨heq ▸ hcover hlt, hlt⟩
    · exact absurd ((hzero hge).symm.trans heq) hn.pos.ne
  · rintro ⟨hn', hlt⟩
    exact (hcover hlt).unique hn'

theorem counted_eq_iff (hl : 0 < length) (hf : 0 < factor) (hle : length ≤ 2 ^ 53 * factor)
    (hn : Covering n tile ⌈(length / factor : ℚ)⌉) : counted length factor tile = n ↔
      (ExcessLost (length / factor) → ¬tile ∣ ⌈(length / factor : ℚ)⌉ - 1 ∧
        tile < 2 * unitsPerOne * (⌈(length / factor : ℚ)⌉ - 1)) ∧
      (¬ExcessLost (length / factor) → tile < 2 * unitsPerOne * ⌈(length / factor : ℚ)⌉) := by
  have hf' : (0 : ℚ) < factor := by exact_mod_cast hf
  have hq : (0 : ℚ) < length / factor := div_pos (by exact_mod_cast hl) hf'
  have hle' : (length / factor : ℚ) ≤ 2 ^ 53 := by
    rw [div_le_iff₀ hf']
    exact_mod_cast hle
  have hM : ⌈(length / factor : ℚ)⌉ ≤ 2 ^ 53 := Int.ceil_le.mpr (by exact_mod_cast hle')
  have hpos := Int.ceil_pos.mpr hq
  obtain ⟨hlost, hkept⟩ := ceil_nearest hq hle'
  unfold counted
  by_cases h : ExcessLost (length / factor)
  · rw [hlost h, ceil_nearest_div_pred_eq_iff ht (by omega) (by omega) (by rwa [sub_add_cancel])]
    simp [h]
  · rw [hkept h, ceil_nearest_div_eq_iff ht hM hn]
    simp [h]

theorem countKept_iff (hl : 0 < length) (hf : 0 < factor) : CountKept length factor tile ↔
    (length / factor : ℚ) < rangeEnd ∧
      counted length factor tile = stepCount length (tile * factor) := by
  have hstep := Covering.ceil hl (mul_pos ht hf)
  have htiles := (Covering.ceil hl hf).of_trans hstep
  rw [hstep.stepCount_eq]
  rcases le_or_gt length (2 ^ 53 * factor) with hle | hgt
  · rw [counted_eq_iff ht hl hf hle htiles]
    constructor
    · rintro ⟨hrange, hlost, hkept, -⟩
      exact ⟨hrange, hlost hle, hkept hle⟩
    · rintro ⟨hrange, hlost, hkept⟩
      exact ⟨hrange, fun _ => hlost, fun _ => hkept, fun h => absurd h hle.not_gt⟩
  · rw [counted_of_great hf hgt]
    push_cast
    constructor
    · rintro ⟨hrange, -, -, hgreat⟩
      exact ⟨hrange, hgreat hgt⟩
    · rintro ⟨hrange, hgreat⟩
      exact ⟨hrange, fun h => absurd hgt h.not_gt, fun h => absurd hgt h.not_gt, fun _ => hgreat⟩

theorem ceilQuotient_counted (hl : 0 < length) (hf : 0 < factor)
    (hrange : (length / factor : ℚ) < rangeEnd) :
    ceilQuotient length factor = .ok ⌈nearest (length / factor)⌉ ∧
      ceilQuotient ⌈nearest (length / factor)⌉ tile = .ok (counted length factor tile) := by
  have hf' : (0 : ℚ) < factor := by exact_mod_cast hf
  have hq : (0 : ℚ) ≤ length / factor := div_nonneg (by exact_mod_cast hl.le) hf'.le
  have hpixels : 0 ≤ ⌈nearest (length / factor)⌉ := Int.ceil_nonneg (nearest_nonneg _)
  have hless := div_le_self (a := (⌈nearest (length / factor)⌉ : ℚ))
    (by exact_mod_cast hpixels) (show (1 : ℚ) ≤ tile by exact_mod_cast ht)
  exact ⟨ceilQuotient_eq_ok hl.le hf hrange,
    ceilQuotient_eq_ok hpixels ht (hless.trans_lt (ceil_nearest_lt_rangeEnd hq hrange))⟩

end

/-- **A length of at most** `2^53` is counted exactly, unless its scaled length or its tiles are
rounded to zero. -/
theorem countKept_iff_of_le (hl : 0 < length) (hL : length ≤ 2 ^ 53) (hf : 0 < factor) :
    CountKept length factor tile ↔ factor < 2 * unitsPerOne * length ∧
      tile < 2 * unitsPerOne * ⌈(length / factor : ℚ)⌉ := by
  have hlost := excessLost_div_iff hl hL hf
  have hle : length ≤ 2 ^ 53 * factor := by omega
  constructor
  · rintro ⟨-, hof_lost, hof_kept, -⟩
    have hkept : ¬ExcessLost (length / factor) := by
      intro h
      -- The scaled length is not even one pixel, so that all of it is lost.
      have hone : ⌈(length / factor : ℚ)⌉ = 1 := by
        refine (Covering.ceil hl hf).unique ⟨one_pos, hf, by simpa using hl, ?_⟩
        have hu := unitsPerOne_pos
        have hmul : 1 * length ≤ 2 * unitsPerOne * length :=
          mul_le_mul_of_nonneg_right (by omega) hl.le
        have := hlost.mp h
        omega
      have hdvd := (hof_lost hle h).1
      rw [hone, sub_self] at hdvd
      exact hdvd (dvd_zero tile)
    exact ⟨by rw [hlost] at hkept; omega, hof_kept hle hkept⟩
  · rintro ⟨hfactor, htile⟩
    have hkept : ¬ExcessLost (length / factor) := by
      rw [hlost]
      omega
    have hself : (length / factor : ℚ) ≤ length :=
      div_le_self (by exact_mod_cast hl.le) (by exact_mod_cast hf)
    have hL' : (length : ℚ) ≤ 2 ^ 53 := by exact_mod_cast hL
    exact ⟨(hself.trans hL').trans_lt two_pow_lt_rangeEnd, fun _ h => absurd h hkept,
      fun _ _ => htile, fun h => absurd hle h.not_ge⟩

theorem countKept_of_multiple {n : ℕ} (hn : n ≤ 2 ^ 53) (hf : 0 < factor)
    (ht : tile < 2 * unitsPerOne * n) : CountKept (n * factor) factor tile := by
  have hf' : (factor : ℚ) ≠ 0 := by exact_mod_cast hf.ne'
  have hle : n * factor ≤ 2 ^ 53 * factor := mul_le_mul_of_nonneg_right (by omega) hf.le
  have hq : ((n * factor : ℤ) / factor : ℚ) = n := by
    push_cast
    exact mul_div_cancel_right₀ _ hf'
  have hn' : (n : ℚ) ≤ 2 ^ 53 := by exact_mod_cast hn
  constructor
  · rw [hq]
    exact hn'.trans_lt two_pow_lt_rangeEnd
  · intro _ hlost
    rw [hq] at hlost
    exact absurd hlost (not_excessLost_natCast hn)
  · intro _ _
    rw [hq, Int.ceil_natCast]
    exact ht
  · intro hgt
    exact absurd hle hgt.not_ge

namespace Grid

variable {g : Grid}

theorem count_eq_ok (hg : g.Positive) (hw : (g.fullWidth / g.scaleFactor : ℚ) < rangeEnd)
    (hh : (g.fullHeight / g.scaleFactor : ℚ) < rangeEnd) :
    g.count = .ok (counted g.fullWidth g.scaleFactor g.tileWidth,
      counted g.fullHeight g.scaleFactor g.tileHeight) := by
  obtain ⟨hpixels, hcolumns⟩ := ceilQuotient_counted hg.tileWidth hg.fullWidth hg.scaleFactor hw
  obtain ⟨hpixels', hrows⟩ := ceilQuotient_counted hg.tileHeight hg.fullHeight hg.scaleFactor hh
  unfold count
  rw [require_eq_ok hg, hpixels, hpixels']
  simp only [Outcome.ok_bind]
  rw [hcolumns, hrows]
  rfl

theorem count_eq_error (hg : g.Positive) (h : rangeEnd ≤ (g.fullWidth / g.scaleFactor : ℚ) ∨
    rangeEnd ≤ (g.fullHeight / g.scaleFactor : ℚ)) :
    g.count = .error .quotientTooLargeForFloat := by
  unfold count
  rw [require_eq_ok hg, Outcome.ok_bind]
  rcases le_or_gt rangeEnd (g.fullWidth / g.scaleFactor : ℚ) with hge | hlt
  · rw [ceilQuotient_eq_error hg.fullWidth.le hg.scaleFactor hge]
    rfl
  · rw [ceilQuotient_eq_ok hg.fullWidth.le hg.scaleFactor hlt, Outcome.ok_bind,
      ceilQuotient_eq_error hg.fullHeight.le hg.scaleFactor (h.resolve_left hlt.not_ge)]
    rfl

/-- **The count of a grid** is exact if and only if it is in both directions; it fails if and only
if a scaled side is out of range. -/
theorem count_eq_stepCount_iff (hg : g.Positive) :
    (g.count = .ok (stepCount g.fullWidth (g.tileWidth * g.scaleFactor),
        stepCount g.fullHeight (g.tileHeight * g.scaleFactor)) ↔
      CountKept g.fullWidth g.scaleFactor g.tileWidth ∧
        CountKept g.fullHeight g.scaleFactor g.tileHeight) ∧
    ∀ failure, g.count = .error failure ↔ failure = .quotientTooLargeForFloat ∧
      (rangeEnd ≤ (g.fullWidth / g.scaleFactor : ℚ) ∨
        rangeEnd ≤ (g.fullHeight / g.scaleFactor : ℚ)) := by
  rw [countKept_iff hg.tileWidth hg.fullWidth hg.scaleFactor,
    countKept_iff hg.tileHeight hg.fullHeight hg.scaleFactor]
  by_cases hout : rangeEnd ≤ (g.fullWidth / g.scaleFactor : ℚ) ∨
      rangeEnd ≤ (g.fullHeight / g.scaleFactor : ℚ)
  · rw [count_eq_error hg hout]
    refine ⟨iff_of_false (by simp) ?_, fun failure => ?_⟩
    · rintro ⟨⟨hw, -⟩, hh, -⟩
      exact hout.elim hw.not_ge hh.not_ge
    · rw [Except.error.injEq]
      exact ⟨fun h => ⟨h.symm, hout⟩, fun h => h.1.symm⟩
  · obtain ⟨hw, hh⟩ := not_or.mp hout
    rw [count_eq_ok hg (not_le.mp hw) (not_le.mp hh)]
    refine ⟨?_, fun failure => iff_of_false (by simp) fun h => hout h.2⟩
    rw [Except.ok.injEq, Prod.mk.injEq]
    exact ⟨fun h => ⟨⟨not_le.mp hw, h.1⟩, not_le.mp hh, h.2⟩, fun h => ⟨h.1.2, h.2.2⟩⟩

/-- A side of `10^400` pixels at scale factor `10^399`: three tiles of four pixels, two of five. -/
theorem count_eq_stepCount_iff_of_huge :
    (⟨10 ^ 400, 10 ^ 400, 4, 5, 10 ^ 399⟩ : Grid).count =
      .ok (stepCount (10 ^ 400) (4 * 10 ^ 399), stepCount (10 ^ 400) (5 * 10 ^ 399)) ∧
    stepCount (10 ^ 400) (4 * 10 ^ 399) = 3 ∧ stepCount (10 ^ 400) (5 * 10 ^ 399) = 2 := by
  have hfactor : (0 : ℤ) < 10 ^ 399 := by positivity
  have hlength : (10 ^ 400 : ℤ) = (10 : ℕ) * 10 ^ 399 := pow_succ' 10 399
  have hkept : ∀ tile : ℤ, tile ≤ 5 → CountKept (10 ^ 400) (10 ^ 399) tile := by
    intro tile htile
    have hu := unitsPerOne_pos
    rw [hlength]
    exact countKept_of_multiple (by norm_num) hfactor (by omega)
  refine ⟨(count_eq_stepCount_iff ⟨by positivity, by positivity, four_pos, by norm_num,
    hfactor⟩).1.mpr ⟨hkept 4 (by norm_num), hkept 5 le_rfl⟩, ?_, ?_⟩
  · exact Covering.stepCount_eq ⟨by norm_num, by positivity, by omega, by omega⟩
  · exact Covering.stepCount_eq ⟨by norm_num, by positivity, by omega, by omega⟩

/-- A side of `2^53 + 1` pixels, one tile to the pixel, is counted one short. -/
theorem not_count_eq_stepCount : ¬∀ g : Grid, g.Positive →
    g.count = .ok (stepCount g.fullWidth (g.tileWidth * g.scaleFactor),
      stepCount g.fullHeight (g.tileHeight * g.scaleFactor)) := by
  intro h
  have hexact : stepCount (2 ^ 53 + 1) (1 * 1) = 2 ^ 53 + 1 :=
    Covering.stepCount_eq ⟨by norm_num, by norm_num, by norm_num, by norm_num⟩
  have hcount : (⟨2 ^ 53 + 1, 1, 1, 1, 1⟩ : Grid).count = .ok (2 ^ 53, 1) := by decide +kernel
  have heq := h ⟨2 ^ 53 + 1, 1, 1, 1, 1⟩ ⟨by decide, by decide, by decide, by decide, by decide⟩
  rw [hcount] at heq
  injection heq with heq
  injection heq with heq
  rw [hexact] at heq
  exact absurd heq (by norm_num)

end Grid

end IiifRules
