import Mathlib
import IiifRules.Proofs.Numeric.Nearest

/-! # Halves that are lost

A length in proportion is rounded to whole pixels, halves up. On the way the computed length is
rounded twice, to binary64 and with one half added to it; that changes no length that is not a half
itself, the distance to the next half being too great. A half, however, goes down if the computed
length falls short of it by more than half a unit in its last place.

* `nearest_le_iff`, `nearest_lt_iff`: when a fraction is not rounded above a number, and when it is
  rounded below an even one.
* `HalfLost`: a half that is lost.
* `Near.abs_sum_sub_le`: the error of a computed length with one half added.
* `pixels_of_half`: what a half comes to.
* `Near.pixels_eq`: what a computed length comes to. -/

namespace IiifRules.Numeric

variable {c q y : ℚ} {m k n : ℕ}

/-! ### Beside a number -/

/-- The number before one in the same binade. -/
theorem IsBinary64.le_pred (hy : IsBinary64 y) (hm : 2 ^ 52 < m) (hk : k ≤ 1074)
    (h : y < m / 2 ^ k) : y ≤ (m - 1 : ℕ) / 2 ^ k := by
  obtain ⟨l, e, hl, rfl⟩ := hy
  have hu := unitsPerOne_eq_mul hk
  have hpow : (0 : ℚ) < 2 ^ k := by positivity
  rw [div_lt_div_iff₀ unitsPerOne_cast_pos hpow] at h
  rw [div_le_div_iff₀ unitsPerOne_cast_pos hpow]
  have hlt : l * 2 ^ e < m * 2 ^ (1074 - k) := by
    have hscaled : l * 2 ^ e * 2 ^ k < m * 2 ^ (1074 - k) * 2 ^ k := by
      rw [Nat.mul_assoc m, ← hu]
      exact_mod_cast h
    exact Nat.lt_of_mul_lt_mul_right hscaled
  have hle : l * 2 ^ e ≤ (m - 1) * 2 ^ (1074 - k) := by
    rcases Nat.lt_or_ge (l * 2 ^ e) (2 ^ (52 + (1074 - k))) with hbelow | habove
    · have hbinade : 2 ^ 52 * 2 ^ (1074 - k) ≤ (m - 1) * 2 ^ (1074 - k) :=
        Nat.mul_le_mul_right _ (by omega)
      rw [Nat.pow_add] at hbelow
      omega
    · obtain ⟨t, ht⟩ := two_pow_dvd_of_binade_le hl habove
      rw [ht, Nat.mul_comm] at hlt ⊢
      have htm : t < m := Nat.lt_of_mul_lt_mul_right hlt
      exact Nat.mul_le_mul_right _ (by omega)
  have hscaled : l * 2 ^ e * 2 ^ k ≤ (m - 1) * unitsPerOne := by
    rw [hu, ← Nat.mul_assoc]
    exact Nat.mul_le_mul_right _ hle
  exact_mod_cast hscaled

/-- A fraction is not rounded above a number up to the middle of it and the next one, and at the
middle if the number is even. -/
theorem nearest_le_iff (hm : 2 ^ 52 ≤ m) (hm' : m < 2 ^ 53) (hk : k ≤ 1074) (hq : 0 ≤ q) :
    nearest q ≤ m / 2 ^ k ↔ q ≤ m / 2 ^ k + 1 / (2 * 2 ^ k) ∧
      (q = m / 2 ^ k + 1 / (2 * 2 ^ k) → Even m) := by
  have hplace : (0 : ℚ) < 1 / (2 * 2 ^ k) := by positivity
  have hmiddle : (m / 2 ^ k + 1 / (2 * 2 ^ k) : ℚ) = (2 * m + 1 : ℕ) / (2 * 2 ^ k) := by
    push_cast
    field_simp
  have hnext : ((m + 1 : ℕ) / 2 ^ k : ℚ) = m / 2 ^ k + 2 * (1 / (2 * 2 ^ k)) := by
    push_cast
    field_simp
  rcases lt_trichotomy q (m / 2 ^ k + 1 / (2 * 2 ^ k)) with hbelow | hat | habove
  · refine iff_of_true ?_ ⟨hbelow.le, fun h => absurd h hbelow.ne⟩
    have hself := isBinary64_div_two_pow hm' hk
    rcases le_total q (m / 2 ^ k) with hle | hge
    · exact nearest_le_of_le hq hle hself
    · -- The number is nearer than the next one, so that the result stays below that.
      have herr := abs_nearest_sub_le_of_value hq hself
      rw [abs_of_nonpos (by linarith : (m / 2 ^ k : ℚ) - q ≤ 0)] at herr
      have habs := le_abs_self (nearest q - q)
      have hlt : nearest q < (m + 1 : ℕ) / 2 ^ k := by linarith
      have hpred := (isBinary64_nearest hq).le_pred (by omega) hk hlt
      rwa [Nat.add_sub_cancel] at hpred
  · have hround := nearest_middle hm hm' hk
    rw [Nat.cast_mul 2 (2 ^ k), Nat.cast_pow, Nat.cast_ofNat, ← hmiddle, ← hat] at hround
    rw [hround, Nat.even_iff]
    split_ifs with heven
    · exact iff_of_true le_rfl ⟨hat.le, fun _ => heven⟩
    · refine iff_of_false ?_ fun h => heven (h.2 hat)
      linarith
  · refine iff_of_false ?_ fun h => absurd h.1 (not_le.mpr habove)
    have hround := le_nearest_of_lt hm hm' hk (hmiddle ▸ habove)
    linarith

theorem nearest_lt_iff (hm : 2 ^ 52 < m) (hm' : m < 2 ^ 53) (heven : m % 2 = 0) (hk : k ≤ 1074)
    (hq : 0 ≤ q) : nearest q < m / 2 ^ k ↔ q < m / 2 ^ k - 1 / (2 * 2 ^ k) := by
  obtain ⟨l, rfl⟩ : ∃ l, m = l + 1 := ⟨m - 1, by omega⟩
  have hplace : (0 : ℚ) < 1 / (2 * 2 ^ k) := by positivity
  have hstep : ((l + 1 : ℕ) / 2 ^ k : ℚ) = l / 2 ^ k + 2 * (1 / (2 * 2 ^ k)) := by
    push_cast
    field_simp
  have hmiddle : ((l + 1 : ℕ) / 2 ^ k - 1 / (2 * 2 ^ k) : ℚ) = l / 2 ^ k + 1 / (2 * 2 ^ k) := by
    rw [hstep]
    ring
  have hiff := nearest_le_iff (show 2 ^ 52 ≤ l by omega) (by omega) hk hq
  rw [hmiddle]
  constructor
  · intro h
    have hpred := (isBinary64_nearest hq).le_pred hm hk h
    rw [Nat.add_sub_cancel] at hpred
    obtain ⟨hle, hat⟩ := hiff.mp hpred
    refine lt_of_le_of_ne hle fun heq => ?_
    have := Nat.even_iff.mp (hat heq)
    omega
  · intro h
    have hle := hiff.mpr ⟨h.le, fun heq => absurd heq h.ne⟩
    linarith

/-! ### Lost halves -/

/-- Half a unit in the last place of a number. -/
def halfPlace (v : ℚ) : ℚ := 2 ^ (Int.log 2 v - 53)

/-- **A half that is lost**: the exact length is a whole number of pixels and a half, more than the
half alone, and the computed one falls short of it by more than half a unit in its last place. -/
structure HalfLost (exact computed : ℚ) : Prop where
  half : ∃ n : ℕ, 0 < n ∧ exact = n + 1 / 2
  short : computed < exact - halfPlace exact

/-- **A half above one** is an even significand over a power of two; the next whole number, too, has
no more than 53 bits above the last place. -/
theorem exists_places (hn0 : 0 < n) (hn : n ≤ 2 ^ 40) : ∃ m k : ℕ, 2 ^ 52 < m ∧ m < 2 ^ 53 ∧
    m % 2 = 0 ∧ k ≤ 52 ∧ (n + 1 / 2 : ℚ) = m / 2 ^ k ∧
    halfPlace (n + 1 / 2) = 1 / (2 * 2 ^ k) ∧ (n + 1) * 2 ^ k ≤ 2 ^ 53 := by
  generalize he : Nat.log 2 n = e
  have hlow : 2 ^ e ≤ n := he ▸ Nat.pow_log_le_self 2 (by omega)
  have hhigh : n < 2 ^ (e + 1) := he ▸ Nat.lt_pow_succ_log_self (by norm_num) n
  have he40 : e ≤ 40 := by
    by_contra hlt
    have := Nat.pow_le_pow_right (n := 2) (by norm_num) (show 41 ≤ e by omega)
    omega
  obtain ⟨k, hk⟩ : ∃ k, k + e = 50 := ⟨50 - e, by omega⟩
  have hprod : 2 ^ k * 2 ^ e = 2 ^ 50 := by rw [← Nat.pow_add, hk]
  have hkpos := Nat.two_pow_pos k
  have hlow' : 2 ^ 50 ≤ 2 ^ k * n := hprod ▸ Nat.mul_le_mul_left _ hlow
  have hhigh' : 2 ^ k * (n + 1) ≤ 2 ^ 51 := by
    calc 2 ^ k * (n + 1) ≤ 2 ^ k * 2 ^ (e + 1) := Nat.mul_le_mul_left _ hhigh
      _ = 2 ^ 51 := by rw [← Nat.pow_add, ← Nat.add_assoc, hk]
  rw [Nat.mul_add, Nat.mul_one] at hhigh'
  have hplaces : 2 ^ k * (2 * n + 1) = 2 * (2 ^ k * n) + 2 ^ k := by ring
  refine ⟨2 * (2 ^ k * (2 * n + 1)), k + 2, by omega, by omega, by omega, by omega, ?_, ?_, ?_⟩
  · push_cast
    field_simp
    ring
  · have hone : (1 : ℚ) ≤ n := by exact_mod_cast hn0
    have hfloor : ⌊(n + 1 / 2 : ℚ)⌋₊ = n := by
      rw [Nat.floor_eq_iff (by linarith)]
      constructor <;> linarith
    have hexp : (e : ℤ) - 53 = -(k + 3 : ℕ) := by omega
    rw [halfPlace, Int.log_of_one_le_right 2 (by linarith), hfloor, he, hexp, zpow_neg,
      zpow_natCast, one_div, ← pow_succ']
  · have hnext : (n + 1) * 2 ^ (k + 2) = 4 * (2 ^ k * n + 2 ^ k) := by ring
    omega

/-! ### Computed lengths -/

section

variable {a d N : ℤ}

/-- **The error of a computed length** with one half added, in parts of the denominator. -/
theorem Near.abs_sum_sub_le (hnear : Near c (a / d)) (hd0 : 0 < d) (hd : d ≤ 2 ^ 20) (ha0 : 0 < a)
    (ha : a ≤ 2 ^ 40) : |d * nearest (nearest c + 1 / 2) - (a + d / 2 : ℚ)| ≤ 1 / 4 := by
  obtain ⟨hup, hlow⟩ := hnear
  have hd0' : (0 : ℚ) < d := by exact_mod_cast hd0
  have hd' : (d : ℚ) ≤ 2 ^ 20 := by exact_mod_cast hd
  have ha0' : (1 : ℚ) ≤ a := by exact_mod_cast ha0
  have ha' : (a : ℚ) ≤ 2 ^ 40 := by exact_mod_cast ha
  have hratio : (1 / 2 ^ 20 : ℚ) ≤ a / d := div_le_div₀ (by linarith) ha0' hd0' hd'
  have hc : (1 / 2 ^ 200 : ℚ) ≤ c := by linarith [show (1 / 2 ^ 200 : ℚ) ≤ 1 / 2 ^ 21 by norm_num]
  have hc0 : 0 ≤ c := le_trans (by positivity) hc
  have hy := nearest_nonneg c
  have hyup := nearest_le_mul hc0 le_rfl hc
  have hylow := mul_le_mul_nearest hc
  have hsum : (1 / 2 ^ 200 : ℚ) ≤ nearest c + 1 / 2 := by
    linarith [show (1 / 2 ^ 200 : ℚ) ≤ 1 / 2 by norm_num]
  have hsup := nearest_le_mul (by linarith) le_rfl hsum
  have hslow := mul_le_mul_nearest hsum
  -- All bounds, multiplied by the denominator, are linear.
  have hself : d * (a / d : ℚ) = a := mul_div_cancel₀ _ hd0'.ne'
  have hup' := mul_le_mul_of_nonneg_left hup hd0'.le
  have hlow' := mul_le_mul_of_nonneg_left hlow hd0'.le
  have hyup' := mul_le_mul_of_nonneg_left hyup hd0'.le
  have hylow' := mul_le_mul_of_nonneg_left hylow hd0'.le
  have hsup' := mul_le_mul_of_nonneg_left hsup hd0'.le
  have hslow' := mul_le_mul_of_nonneg_left hslow hd0'.le
  rw [← mul_assoc, hself] at hup'
  rw [hself] at hlow'
  rw [abs_le]
  constructor <;> linarith

theorem le_pixels_of_abs_le (hd0 : 0 < d)
    (herr : |d * nearest (nearest c + 1 / 2) - (a + d / 2 : ℚ)| ≤ 1 / 4)
    (h : 2 * (d * N) < 2 * a + d) : N ≤ pixels (nearest c) := by
  have hd0' : (0 : ℚ) < d := by exact_mod_cast hd0
  have hstep : (2 * (d * N) + 1 : ℚ) ≤ 2 * a + d := by exact_mod_cast h
  have hlow := (abs_le.mp herr).1
  have hscaled : (d * N : ℚ) ≤ d * nearest (nearest c + 1 / 2) := by linarith
  unfold pixels
  rw [Int.le_floor]
  exact le_of_mul_le_mul_left hscaled hd0'

theorem pixels_lt_of_abs_le (hd0 : 0 < d)
    (herr : |d * nearest (nearest c + 1 / 2) - (a + d / 2 : ℚ)| ≤ 1 / 4)
    (h : 2 * a + d < 2 * (d * N)) : pixels (nearest c) < N := by
  have hd0' : (0 : ℚ) < d := by exact_mod_cast hd0
  have hstep : (2 * a + d + 1 : ℚ) ≤ 2 * (d * N) := by exact_mod_cast h
  have hup := (abs_le.mp herr).2
  have hscaled : (d * nearest (nearest c + 1 / 2) : ℚ) < d * N := by linarith
  unfold pixels
  rw [Int.floor_lt]
  exact lt_of_mul_lt_mul_left hscaled hd0'.le

/-- **What a half comes to**: it goes up unless it is lost. -/
theorem pixels_of_half {n : ℕ} (hn0 : 0 < n) (hn : n ≤ 2 ^ 40) (hc : 0 ≤ c) :
    (HalfLost (n + 1 / 2) c → pixels (nearest c) < n + 1) ∧
      (¬HalfLost (n + 1 / 2) c → n + 1 ≤ pixels (nearest c)) := by
  obtain ⟨m, k, hm, hm', heven, hk, hv, hplace, hnext⟩ := exists_places hn0 hn
  have hpow : (0 : ℚ) < 2 ^ k := by positivity
  have hiff := nearest_lt_iff hm hm' heven (show k ≤ 1074 by omega) hc
  rw [← hv] at hiff
  unfold pixels
  constructor
  · rintro ⟨-, hshort⟩
    rw [hplace, ← hiff, hv] at hshort
    have hpred := (isBinary64_nearest hc).le_pred hm (by omega) hshort
    -- With one half added, what is before the half is a number before the whole one.
    have hb : IsBinary64 (((n + 1) * 2 ^ k - 1 : ℕ) / 2 ^ k) :=
      isBinary64_div_two_pow (by have := Nat.two_pow_pos k; omega) (by omega)
    rw [Nat.cast_sub (Nat.mul_pos n.succ_pos (Nat.two_pow_pos k)), sub_div] at hb
    rw [Nat.cast_sub (by omega), sub_div, ← hv] at hpred
    push_cast at hb hpred
    rw [mul_div_cancel_right₀ _ hpow.ne'] at hb
    have hle := nearest_le_of_le (by linarith [nearest_nonneg c])
      (show nearest c + 1 / 2 ≤ n + 1 - 1 / 2 ^ k by linarith) hb
    rw [Int.floor_lt]
    push_cast
    linarith [show (0 : ℚ) < 1 / 2 ^ k by positivity]
  · intro hkept
    have hge : (n + 1 / 2 : ℚ) ≤ nearest c := by
      by_contra hlt
      rw [not_le, hiff, ← hplace] at hlt
      exact hkept ⟨⟨n, hn0, rfl⟩, hlt⟩
    have hb : IsBinary64 (n + 1 : ℕ) := isBinary64_natCast (by omega)
    push_cast at hb
    rw [Int.le_floor]
    push_cast
    exact le_nearest_of_le (by positivity) (by linarith) hb

theorem floor_add_half_bounds (hd0 : 0 < d) : 2 * (d * ⌊(a / d + 1 / 2 : ℚ)⌋) ≤ 2 * a + d ∧
    2 * a + d < 2 * (d * (⌊(a / d + 1 / 2 : ℚ)⌋ + 1)) := by
  have hd0' : (0 : ℚ) < d := by exact_mod_cast hd0
  have hself : d * (a / d : ℚ) = a := mul_div_cancel₀ _ hd0'.ne'
  have hle := mul_le_mul_of_nonneg_left (Int.floor_le (a / d + 1 / 2 : ℚ)) hd0'.le
  have hlt := mul_lt_mul_of_pos_left (Int.lt_floor_add_one (a / d + 1 / 2 : ℚ)) hd0'
  generalize ⌊(a / d + 1 / 2 : ℚ)⌋ = N at hle hlt
  have hle' : (2 * (d * N) : ℚ) ≤ 2 * a + d := by linarith
  have hlt' : (2 * a + d : ℚ) < 2 * (d * (N + 1)) := by linarith
  exact ⟨by exact_mod_cast hle', by exact_mod_cast hlt'⟩

theorem div_eq_add_half_iff (hd0 : 0 < d) {n : ℕ} :
    (a / d : ℚ) = n + 1 / 2 ↔ 2 * a + d = 2 * (d * (n + 1)) := by
  have hd0' : (0 : ℚ) < d := by exact_mod_cast hd0
  rw [div_eq_iff hd0'.ne']
  constructor
  · intro h
    have : (2 * a + d : ℚ) = 2 * (d * (n + 1)) := by linarith
    exact_mod_cast this
  · intro h
    have : (2 * a + d : ℚ) = 2 * (d * (n + 1)) := by exact_mod_cast h
    linarith

variable (hnear : Near c (a / d)) (hd0 : 0 < d) (hd : d ≤ 2 ^ 20) (ha0 : 0 < a) (ha : a ≤ 2 ^ 40)
include hnear hd0 hd ha0 ha

theorem Near.pixels_eq_of_half {n : ℕ} (hv : (a / d : ℚ) = n + 1 / 2) :
    (HalfLost (a / d) c → pixels (nearest c) = n) ∧
      (¬HalfLost (a / d) c → pixels (nearest c) = n + 1) := by
  have hlow := hnear.lower
  have hc : 0 ≤ c := by
    have : (0 : ℚ) < a / d := div_pos (by exact_mod_cast ha0) (by exact_mod_cast hd0)
    linarith
  have hparts := (div_eq_add_half_iff hd0).mp hv
  have herr := hnear.abs_sum_sub_le hd0 hd ha0 ha
  have hle : pixels (nearest c) < n + 1 + 1 := pixels_lt_of_abs_le hd0 herr (by linarith)
  rcases Nat.eq_zero_or_pos n with rfl | hn0
  · -- The half alone is never lost.
    rw [Nat.cast_zero] at hv
    have hone : 1 ≤ pixels (nearest c) :=
      (pixels_pos_iff hd0 (by omega) hc (fun _ => by linarith) fun _ => hnear.upper).mpr
        (by omega)
    refine ⟨?_, fun _ => by omega⟩
    rintro ⟨⟨n, hn0, hn⟩, -⟩
    have hn0' : (0 : ℚ) < n := by exact_mod_cast hn0
    linarith
  · have hn : n ≤ 2 ^ 40 := by
      have hself : (a / d : ℚ) ≤ a :=
        div_le_self (by exact_mod_cast ha0.le) (by exact_mod_cast hd0)
      have ha' : (a : ℚ) ≤ 2 ^ 40 := by exact_mod_cast ha
      have hn' : (n : ℚ) ≤ 2 ^ 40 := by linarith
      exact_mod_cast hn'
    obtain ⟨hlost, hkept⟩ := pixels_of_half hn0 hn hc
    rw [hv]
    constructor
    · intro h
      have hge : (n : ℤ) ≤ pixels (nearest c) := le_pixels_of_abs_le hd0 herr (by linarith)
      have := hlost h
      omega
    · intro h
      have := hkept h
      omega

/-- **What a computed length comes to**: the whole pixels nearest to the exact length, halves up,
unless the half is lost; then it is one pixel less. -/
theorem Near.pixels_eq :
    (HalfLost (a / d) c → pixels (nearest c) = ⌊(a / d + 1 / 2 : ℚ)⌋ - 1) ∧
      (¬HalfLost (a / d) c → pixels (nearest c) = ⌊(a / d + 1 / 2 : ℚ)⌋) := by
  obtain ⟨hfloor, hfloor'⟩ := @floor_add_half_bounds a d hd0
  generalize ⌊(a / d + 1 / 2 : ℚ)⌋ = N at hfloor hfloor' ⊢
  rcases hfloor.lt_or_eq with hbelow | hhalf
  · have herr := hnear.abs_sum_sub_le hd0 hd ha0 ha
    have hge : N ≤ pixels (nearest c) := le_pixels_of_abs_le hd0 herr hbelow
    have hle : pixels (nearest c) < N + 1 := pixels_lt_of_abs_le hd0 herr hfloor'
    refine ⟨?_, fun _ => by omega⟩
    rintro ⟨⟨n, -, hn⟩, -⟩
    -- A half would be a whole number of parts, strictly between two neighbours.
    rw [div_eq_add_half_iff hd0] at hn
    rw [hn] at hbelow hfloor'
    have hgt : N < n + 1 := lt_of_mul_lt_mul_left (by omega) hd0.le
    have hlt : (n + 1 : ℤ) < N + 1 := lt_of_mul_lt_mul_left (by omega) hd0.le
    omega
  · have hN : 0 < N := by
      have : 0 < d * N := by omega
      exact pos_of_mul_pos_right this hd0.le
    obtain ⟨n, rfl⟩ : ∃ n : ℕ, N = n + 1 := ⟨(N - 1).toNat, by omega⟩
    have hv := (div_eq_add_half_iff hd0).mpr hhalf.symm
    obtain ⟨hlost, hkept⟩ := hnear.pixels_eq_of_half hd0 hd ha0 ha hv
    rw [add_sub_cancel_right]
    exact ⟨hlost, hkept⟩

end

end IiifRules.Numeric
