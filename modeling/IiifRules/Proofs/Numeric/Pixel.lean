import Mathlib
import IiifRules.Proofs.Numeric.Value

/-! # Half a pixel

A length comes to a pixel if it is at least half of one. It is rounded on the way there, once for
each operation, and once more where one half is added before its floor is taken. That moves no
proportion of two lengths of at most `2 ^ 31` over the half (`pixels_pos_iff`), but a percentage may
come so close to the half that it is moved (`percent_pixels_pos_iff`).

* `nearest_middle`, `le_nearest_of_lt`: the middle of two neighbours, and a fraction above it.
* `pixels`: the whole pixels nearest to a length.
* `pixels_nearest_le`, `le_pixels_nearest`: a length with a bound.
* `HasValue.eq_pixels`, `HasValue.eq_pixels_of_mul`, `HasValue.eq_pixels_of_div`: what a number comes
  to, if to anything. -/

namespace IiifRules.Numeric

/-! ### The middle of two neighbours -/

theorem lt_roundHalfEven {num den n : ℕ} (hden : 0 < den) (h : (2 * n + 1) * den < 2 * num) :
    n < roundHalfEven num den := by
  obtain ⟨-, herr⟩ := roundHalfEven_error num hden
  by_contra hle
  have hmul := Nat.mul_le_mul_right den (not_lt.mp hle)
  rw [Nat.add_mul, Nat.mul_assoc] at h
  omega

theorem roundHalfEven_middle (n : ℕ) :
    roundHalfEven (2 * n + 1) 2 = if n % 2 = 0 then n else n + 1 := by
  have hdiv : (2 * n + 1) / 2 = n := by omega
  have hmod : (2 * n + 1) % 2 = 1 := by omega
  unfold roundHalfEven
  dsimp only
  rw [hdiv, hmod, if_neg (by omega), if_neg (by omega)]

theorem le_dropped {num den e : ℕ} (hden : 0 < den) (h : 2 ^ (52 + e) * den ≤ num) :
    e ≤ dropped num den := by
  have hquot := (Nat.le_div_iff_mul_le hden).mpr h
  have := (Nat.le_log2 (by have := Nat.two_pow_pos (52 + e); omega)).mpr hquot
  unfold dropped
  omega

/-- A fraction above the middle of two neighbours is not rounded to the lower one. -/
theorem lt_roundSignificant {num den m e : ℕ} (hden : 0 < den) (hm : 2 ^ 52 ≤ m)
    (hm' : m < 2 ^ 53) (h : (2 * m + 1) * 2 ^ e * den < 2 * num) :
    (m + 1) * 2 ^ e ≤ roundSignificant num den := by
  have he : e ≤ dropped num den := by
    refine le_dropped hden ?_
    have hbinade : 2 * 2 ^ 52 * 2 ^ e * den ≤ (2 * m + 1) * 2 ^ e * den :=
      Nat.mul_le_mul_right _ (Nat.mul_le_mul_right _ (by omega))
    rw [Nat.mul_assoc 2, Nat.mul_assoc 2] at hbinade
    rw [Nat.pow_add]
    omega
  rcases Nat.eq_or_lt_of_le he with heq | hlt
  · rw [roundSignificant_def, ← heq]
    refine Nat.mul_le_mul_right _ (lt_roundHalfEven (Nat.mul_pos hden (Nat.two_pow_pos _)) ?_)
    rwa [Nat.mul_comm den, ← Nat.mul_assoc]
  · -- in a binade above, all results are beyond both neighbours
    calc (m + 1) * 2 ^ e ≤ 2 ^ 53 * 2 ^ e := Nat.mul_le_mul_right _ hm'
      _ = 2 ^ (53 + e) := (Nat.pow_add _ _ _).symm
      _ ≤ 2 ^ (52 + dropped num den) := Nat.pow_le_pow_right (by decide) (by omega)
      _ ≤ roundSignificant num den := binade_le_roundSignificant (by omega)

theorem roundSignificant_middle {m : ℕ} (hm : 2 ^ 52 ≤ m) (hm' : m < 2 ^ 53) (e : ℕ) :
    roundSignificant ((2 * m + 1) * 2 ^ e) 2 = (if m % 2 = 0 then m else m + 1) * 2 ^ e := by
  have hlow : 2 ^ (52 + e) * 2 ≤ (2 * m + 1) * 2 ^ e := by
    rw [Nat.pow_add, Nat.mul_right_comm]
    exact Nat.mul_le_mul_right _ (by omega)
  have hhigh : (2 * m + 1) * 2 ^ e < 2 ^ (53 + e) * 2 := by
    rw [Nat.pow_add, Nat.mul_right_comm]
    exact Nat.mul_lt_mul_of_pos_right (by omega) (Nat.two_pow_pos _)
  have hd : dropped ((2 * m + 1) * 2 ^ e) 2 = e := by
    refine Nat.le_antisymm ?_ (le_dropped (by norm_num) hlow)
    have hquot : (2 * m + 1) * 2 ^ e / 2 < 2 ^ (53 + e) := Nat.div_lt_of_lt_mul (by omega)
    have hpos := Nat.two_pow_pos (52 + e)
    have := (Nat.log2_lt (show (2 * m + 1) * 2 ^ e / 2 ≠ 0 by omega)).mpr hquot
    unfold dropped
    omega
  rw [roundSignificant_def, hd, Nat.mul_comm (2 * m + 1), Nat.mul_comm 2 (2 ^ e),
    roundHalfEven_mul_left (Nat.two_pow_pos _), roundHalfEven_middle]

theorem unitsPerOne_eq_mul {k : ℕ} (hk : k ≤ 1074) : unitsPerOne = 2 ^ (1074 - k) * 2 ^ k := by
  rw [← Nat.pow_add, Nat.sub_add_cancel hk, unitsPerOne_eq]

/-- **Above the middle of two neighbours** a fraction is rounded to the upper one at least. -/
theorem le_nearest_of_lt {q : ℚ} {m k : ℕ} (hm : 2 ^ 52 ≤ m) (hm' : m < 2 ^ 53) (hk : k ≤ 1074)
    (h : ((2 * m + 1 : ℕ) / (2 * 2 ^ k) : ℚ) < q) : ((m + 1 : ℕ) / 2 ^ k : ℚ) ≤ nearest q := by
  obtain ⟨num, den, hden, rfl⟩ := exists_natDiv (le_trans (by positivity) h.le)
  have hu := unitsPerOne_eq_mul hk
  have hden' : (0 : ℚ) < den := by exact_mod_cast hden
  rw [div_lt_div_iff₀ (by positivity) hden'] at h
  have hcross : (2 * m + 1) * den < num * (2 * 2 ^ k) := by exact_mod_cast h
  have hmiddle : (2 * m + 1) * 2 ^ (1074 - k) * den < 2 * (num * unitsPerOne) := by
    calc (2 * m + 1) * 2 ^ (1074 - k) * den = (2 * m + 1) * den * 2 ^ (1074 - k) := by ring
      _ < num * (2 * 2 ^ k) * 2 ^ (1074 - k) :=
        Nat.mul_lt_mul_of_pos_right hcross (Nat.two_pow_pos _)
      _ = 2 * (num * unitsPerOne) := by rw [hu]; ring
  have hround := lt_roundSignificant hden hm hm' hmiddle
  rw [nearest_natDiv num hden, div_le_div_iff₀ (by positivity) unitsPerOne_cast_pos]
  have hscaled := Nat.mul_le_mul_right (2 ^ k) hround
  rw [Nat.mul_assoc, ← hu] at hscaled
  exact_mod_cast hscaled

/-- **The middle of two neighbours** goes to the even one. -/
theorem nearest_middle {m k : ℕ} (hm : 2 ^ 52 ≤ m) (hm' : m < 2 ^ 53) (hk : k ≤ 1074) :
    nearest ((2 * m + 1 : ℕ) / (2 * 2 ^ k : ℕ)) =
      ((if m % 2 = 0 then m else m + 1 : ℕ) / 2 ^ k : ℚ) := by
  have hu := unitsPerOne_eq_mul hk
  have hscale : (2 * m + 1) * unitsPerOne * 2 = (2 * m + 1) * 2 ^ (1074 - k) * (2 * 2 ^ k) := by
    rw [hu]
    ring
  have hround := roundSignificant_middle hm hm' (1074 - k)
  rw [← roundSignificant_congr (by positivity) (by norm_num) hscale] at hround
  rw [nearest_natDiv _ (by positivity), hround,
    div_eq_div_iff unitsPerOne_cast_pos.ne' (by positivity), hu]
  push_cast
  ring

/-- A value of binary64 is no greater than what is rounded from above it. -/
theorem le_nearest_of_le {p q : ℚ} (hq0 : 0 ≤ q) (h : q ≤ p) (hq : IsBinary64 q) : q ≤ nearest p :=
  le_of_eq_of_le (nearest_eq_self hq).symm (nearest_mono hq0 h)

/-- The values next below a power of two. -/
theorem isBinary64_sub {j k : ℕ} (hlast : k ≤ j + 53) (hk : k ≤ 1074) (hjk : j ≤ k) :
    IsBinary64 (1 / 2 ^ j - 1 / 2 ^ k) := by
  have hn : 2 ^ (k - j) - 1 < 2 ^ 53 := by
    have := Nat.pow_le_pow_right (n := 2) (by norm_num) (show k - j ≤ 53 by omega)
    have := Nat.two_pow_pos (k - j)
    omega
  have hb := isBinary64_div_two_pow hn hk
  rw [Nat.cast_sub (Nat.one_le_two_pow), Nat.cast_pow, Nat.cast_ofNat, Nat.cast_one, sub_div] at hb
  rwa [show (2 ^ (k - j) / 2 ^ k : ℚ) = 1 / 2 ^ j by
    rw [div_eq_div_iff (by positivity) (by positivity), ← pow_add, Nat.sub_add_cancel hjk,
      one_mul]] at hb

/-! ### Whole pixels -/

/-- **The whole pixels nearest to a length**, where the sum with one half is rounded. -/
def pixels (q : ℚ) : ℤ := ⌊nearest (q + 1 / 2)⌋

/-- The middle between one and its lower neighbour goes to one. -/
theorem nearest_below_one : nearest (1 - 1 / 2 ^ 54) = 1 := by
  have h := nearest_middle (m := 2 ^ 53 - 1) (k := 53) (by norm_num) (by norm_num) (by norm_num)
  norm_num at h ⊢
  exact h

/-- The binary64 number below one half still comes to a pixel. -/
theorem one_le_pixels {q : ℚ} (h : 1 / 2 - 1 / 2 ^ 54 ≤ q) : 1 ≤ pixels q := by
  unfold pixels
  rw [Int.le_floor, Int.cast_one]
  exact nearest_below_one.symm.le.trans (nearest_mono (by norm_num) (by linarith))

theorem pixels_nonpos {q : ℚ} (h0 : 0 ≤ q) (h : q ≤ 1 / 2 - 1 / 2 ^ 53) : pixels q ≤ 0 := by
  have hb : IsBinary64 (1 - 1 / 2 ^ 53) := by
    simpa using isBinary64_sub (j := 0) (k := 53) (by norm_num) (by norm_num) (by norm_num)
  have hle := nearest_le_of_le (by linarith) (show q + 1 / 2 ≤ 1 - 1 / 2 ^ 53 by linarith) hb
  unfold pixels
  rw [← Int.lt_add_one_iff, Int.floor_lt]
  push_cast
  linarith [show (0 : ℚ) < 1 / 2 ^ 53 by positivity]

/-! ### Lengths with a bound -/

section

variable {v : ℚ} {n : ℤ} (hn0 : 0 < n) (hn : n ≤ 2 ^ 31)
include hn0 hn

/-- **Rounding to the nearest pixel hides the error** of two roundings before it. -/
theorem pixels_nearest_le (hv0 : 0 ≤ v) (hv : v ≤ n * (1 + 1 / 2 ^ 52)) :
    pixels (nearest v) ≤ n := by
  obtain ⟨k, rfl⟩ := Int.eq_ofNat_of_zero_le hn0.le
  have hk0 : (1 : ℚ) ≤ k := by exact_mod_cast hn0
  have hk : (k : ℚ) ≤ 2 ^ 31 := by exact_mod_cast hn
  rw [Int.cast_natCast] at hv
  have hnear : nearest v ≤ k + 1 / 4 := by
    have := nearest_le_mul hv0 hv (by linarith [show (1 : ℚ) / 2 ^ 200 ≤ 1 by norm_num])
    linarith
  -- Three quarters of a pixel more is a binary64 number, so the sum is not rounded beyond it.
  have hthree : IsBinary64 (k + 3 / 4) := by
    have hk53 : 4 * k + 3 < 2 ^ 53 := by omega
    have := isBinary64_div_two_pow (k := 2) hk53 (by norm_num)
    push_cast at this
    rwa [show ((4 : ℚ) * k + 3) / 2 ^ 2 = k + 3 / 4 by ring] at this
  have hsum := nearest_le_of_le (by linarith [nearest_nonneg v])
    (show nearest v + 1 / 2 ≤ k + 3 / 4 by linarith) hthree
  unfold pixels
  rw [← Int.lt_add_one_iff, Int.floor_lt]
  push_cast
  linarith

/-- So does it below a bound that is reached but for two roundings. -/
theorem le_pixels_nearest (hv : n ≤ v * (1 + 1 / 2 ^ 52)) : n ≤ pixels (nearest v) := by
  obtain ⟨k, rfl⟩ := Int.eq_ofNat_of_zero_le hn0.le
  have hk0 : (1 : ℚ) ≤ k := by exact_mod_cast hn0
  have hk : (k : ℚ) ≤ 2 ^ 31 := by exact_mod_cast hn
  rw [Int.cast_natCast] at hv
  have hlow : (1 / 2 ^ 200 : ℚ) ≤ v := by linarith [show (1 / 2 ^ 200 : ℚ) ≤ 1 / 4 by norm_num]
  have hnear := mul_le_mul_nearest hlow
  -- The sum reaches the whole number itself, and is not rounded below it.
  have hwhole : IsBinary64 (k : ℚ) := isBinary64_natCast (by omega)
  unfold pixels
  rw [Int.le_floor, Int.cast_natCast]
  exact le_nearest_of_le (by linarith) (by linarith) hwhole

end

/-! ### Proportions of lengths -/

/-- **A proportion of lengths comes to a pixel exactly if it is at least one half**, however it is
computed from two roundings: below the half it stays below by `1 / d`, which is more than they
add. -/
theorem pixels_pos_iff {n d : ℤ} {c : ℚ} (hd0 : 0 < d) (hd : d ≤ 2 ^ 31) (hc0 : 0 ≤ c)
    (hlow : (1 / 2 : ℚ) ≤ n / d → 2 ^ 52 ≤ c * (2 ^ 53 + 1))
    (hhigh : (n / d : ℚ) < 1 / 2 → c ≤ n / d * (1 + 1 / 2 ^ 53)) :
    1 ≤ pixels (nearest c) ↔ d ≤ 2 * n := by
  have hd0' : (0 : ℚ) < d := by exact_mod_cast hd0
  have hd' : (d : ℚ) ≤ 2 ^ 31 := by exact_mod_cast hd
  constructor
  · intro h
    by_contra hlt
    have hn : (2 * n + 1 : ℚ) ≤ d := by exact_mod_cast not_le.mp hlt
    have hv : (n / d : ℚ) ≤ 1 / 2 - 1 / 2 ^ 32 := by
      rw [div_le_iff₀ hd0']
      linarith
    have hc := hhigh (by linarith [show (0 : ℚ) < 1 / 2 ^ 32 by positivity])
    have hb : IsBinary64 (1 / 2 - 1 / 2 ^ 33) := by
      simpa using isBinary64_sub (j := 1) (k := 33) (by norm_num) (by norm_num) (by norm_num)
    have hle := nearest_le_of_le hc0 (show c ≤ 1 / 2 - 1 / 2 ^ 33 by linarith) hb
    have := pixels_nonpos (nearest_nonneg c) (hle.trans (by norm_num))
    omega
  · intro h
    have hn : (d : ℚ) ≤ 2 * n := by exact_mod_cast h
    have hc := hlow (by rw [le_div_iff₀ hd0']; linarith)
    have hb : IsBinary64 (1 / 2 - 1 / 2 ^ 54) := by
      simpa using isBinary64_sub (j := 1) (k := 54) (by norm_num) (by norm_num) (by norm_num)
    exact one_le_pixels (le_nearest_of_le (by norm_num) (by linarith) hb)

/-- A length times a rounded factor. -/
theorem le_mul_nearest {length q : ℚ} (hl : 0 ≤ length) (hq : 1 / 2 ^ 200 ≤ q)
    (h : 1 / 2 ≤ length * q) : 2 ^ 52 ≤ length * nearest q * (2 ^ 53 + 1) := by
  have := mul_le_mul_of_nonneg_left (mul_le_mul_nearest hq) hl
  linarith

theorem nearest_intCast {a : ℤ} (h0 : 0 ≤ a) (h : a ≤ 2 ^ 53) : nearest a = a := by
  obtain ⟨m, rfl⟩ := Int.eq_ofNat_of_zero_le h0
  rw [Int.cast_natCast, nearest_natCast (by omega)]

/-- A length that is too great to be kept is in any proportion far more than half a pixel. -/
theorem exists_le_nearest {w : ℤ} {q : ℚ} (hw : 0 ≤ w) (hq : 1 / 2 ^ 31 ≤ q) (h : 1 / 2 ≤ w * q) :
    ∃ m : ℚ, 0 ≤ m ∧ m ≤ nearest w ∧ 1 / 2 ≤ m * q := by
  rcases le_total w (2 ^ 53) with hle | hge
  · exact ⟨w, by exact_mod_cast hw, (nearest_intCast hw hle).ge, h⟩
  · have hge' : (2 ^ 53 : ℚ) ≤ w := by exact_mod_cast hge
    refine ⟨2 ^ 53, by positivity, le_nearest_of_le (by positivity) hge' (isBinary64_two_pow 53), ?_⟩
    linarith

/-- **A length in proportion**, where the factor is rounded once. -/
theorem pixels_mul_pos_iff {w b d : ℤ} {f : ℚ} (hw : 0 ≤ w) (hb : 0 < b) (hd0 : 0 < d)
    (hd : d ≤ 2 ^ 31) (hnear : Near f (b / d)) :
    1 ≤ pixels (nearest (nearest w * f)) ↔ d ≤ 2 * (w * b) := by
  obtain ⟨hhigh, hlow⟩ := hnear
  have hd0' : (0 : ℚ) < d := by exact_mod_cast hd0
  have hb' : (0 : ℚ) < b := by exact_mod_cast hb
  have hratio : (0 : ℚ) < b / d := div_pos hb' hd0'
  have hf0 : 0 < f := by linarith
  have hv : ((w * b : ℤ) / d : ℚ) = w * (b / d) := by
    push_cast
    rw [mul_div_assoc]
  refine pixels_pos_iff hd0 hd (mul_nonneg (nearest_nonneg _) hf0.le) ?_ ?_
  · intro hhalf
    rw [hv] at hhalf
    obtain ⟨m, hm0, hmw, hm⟩ := exists_le_nearest hw (le_proportion hb hd0 hd) hhalf
    calc (2 ^ 52 : ℚ) ≤ 2 ^ 53 * (m * (b / d)) := by linarith
      _ ≤ 2 ^ 53 * (m * (f * (1 + 1 / 2 ^ 53))) := by gcongr
      _ = m * (f * (2 ^ 53 + 1)) := by ring
      _ ≤ nearest w * (f * (2 ^ 53 + 1)) := mul_le_mul_of_nonneg_right hmw (by positivity)
      _ = nearest w * f * (2 ^ 53 + 1) := by ring
  · intro hhalf
    have hkept : w ≤ 2 ^ 53 := by
      rw [div_lt_iff₀ hd0'] at hhalf
      have hlt : w * b * 2 < d := by
        have : ((w * b * 2 : ℤ) : ℚ) < d := by push_cast at hhalf ⊢; linarith
        exact_mod_cast this
      have := le_mul_of_one_le_right hw (show 1 ≤ b by omega)
      omega
    rw [hv, nearest_intCast hw hkept, mul_assoc]
    exact mul_le_mul_of_nonneg_left hhigh (by exact_mod_cast hw)

/-! ### Percentages -/

/-- The middle of two neighbours below fifty, which goes to the lower one. -/
theorem nearest_below_fifty : nearest (50 - 3 / 2 ^ 48) = 50 - 1 / 2 ^ 46 := by
  have h := nearest_middle (m := 50 * 2 ^ 47 - 2) (k := 47) (by norm_num) (by norm_num)
    (by norm_num)
  norm_num at h ⊢
  exact h

/-- **A percentage comes to a pixel exactly if it is half a pixel**, up to one and a half last
places of the product. -/
theorem percent_pixels_pos_iff {q : ℚ} (hq : 0 ≤ q) :
    1 ≤ pixels (nearest (nearest q / 100)) ↔ 50 - 3 / 2 ^ 48 < q := by
  constructor
  · intro h
    by_contra hle
    have hprod := nearest_mono hq (not_lt.mp hle)
    rw [nearest_below_fifty] at hprod
    have hb : IsBinary64 (1 / 2 - 1 / 2 ^ 53) := by
      simpa using isBinary64_sub (j := 1) (k := 53) (by norm_num) (by norm_num) (by norm_num)
    have hquot := nearest_le_of_le (div_nonneg (nearest_nonneg q) (by norm_num))
      (show nearest q / 100 ≤ 1 / 2 - 1 / 2 ^ 53 by
        rw [div_le_iff₀ (by norm_num)]; exact hprod.trans (by norm_num)) hb
    have := pixels_nonpos (nearest_nonneg _) hquot
    omega
  · intro h
    have hprod := le_nearest_of_lt (m := 50 * 2 ^ 47 - 2) (k := 47) (by norm_num) (by norm_num)
      (by norm_num) (lt_of_eq_of_lt (by norm_num) h)
    have hquot := le_nearest_of_lt (q := nearest q / 100) (m := 2 ^ 53 - 2) (k := 54)
      (by norm_num) (by norm_num) (by norm_num) (by
        rw [lt_div_iff₀ (by norm_num)]
        exact lt_of_lt_of_le (by norm_num) hprod)
    exact one_le_pixels (le_trans (by norm_num) hquot)

/-! ### What an operation comes to -/

namespace Binary64

variable {x y z : Binary64} {p q : ℚ} {n : ℤ}

/-- A number in range comes to the pixels nearest to it, if its sum with one half is in range. -/
theorem HasValue.eq_pixels (hx : x.HasValue q) (h : Numeric.roundHalfUp x = .ok n) :
    n = pixels q := by
  obtain ⟨num, den, hden, hsum, heq⟩ := hx.exists_add_eq half_hasValue
  unfold Numeric.roundHalfUp at h
  rw [heq] at h
  rcases ofRatio_hasValue_or num hden with hv | hinf
  · rw [hv.floor, ← hsum] at h
    cases h
    rfl
  · rw [hinf] at h
    cases h

/-- A quotient that is out of range comes to no pixels. -/
theorem eq_pixels_of_ofRatio {num den : ℕ} (hden : 0 < den)
    (h : Numeric.roundHalfUp (ofRatio false num den) = .ok n) :
    n = pixels (nearest (num / den)) := by
  rcases ofRatio_hasValue_or num hden with hv | hinf
  · exact hv.eq_pixels h
  · obtain ⟨u, fits, hhalf, -⟩ := half_hasValue
    unfold Numeric.roundHalfUp at h
    rw [hinf, hhalf] at h
    cases h

theorem HasValue.eq_pixels_of_mul (hx : x.HasValue p) (hy : y.HasValue q)
    (h : Numeric.roundHalfUp (x.mul y) = .ok n) : n = pixels (nearest (p * q)) := by
  obtain ⟨num, den, hden, hprod, heq⟩ := hx.exists_mul_eq hy
  rw [heq] at h
  rw [hprod]
  exact eq_pixels_of_ofRatio hden h

theorem HasValue.eq_pixels_of_div (hx : x.HasValue p) (hy : y.HasValue q) (hq : 0 < q)
    (hz : x.div y = .ok z) (h : Numeric.roundHalfUp z = .ok n) :
    n = pixels (nearest (p / q)) := by
  obtain ⟨num, den, hden, hquot, heq⟩ := hx.exists_div_eq hy hq
  rw [heq] at hz
  cases hz
  rw [hquot]
  exact eq_pixels_of_ofRatio hden h

theorem HasValue.unique (hp : x.HasValue p) (hq : x.HasValue q) : p = q := by
  obtain ⟨u, _, rfl, rfl⟩ := hp
  obtain ⟨v, _, hv, rfl⟩ := hq
  cases hv
  rfl

end Binary64

/-- An integer that is in range is rounded once, however large. -/
theorem hasValue_of_floatOfInt {a : ℤ} {x : Binary64} (ha : 0 ≤ a) (h : floatOfInt a = .ok x) :
    x.HasValue (nearest a) := by
  obtain ⟨m, rfl⟩ := Int.eq_ofNat_of_zero_le ha
  have hm : ((m : ℤ) : ℚ) = (m : ℕ) / (1 : ℕ) := by simp
  unfold floatOfInt at h
  rw [Binary64.ofInt_natCast] at h
  rw [hm]
  exact Binary64.ofRatio_hasValue_of_inRange Nat.one_pos h

end IiifRules.Numeric
