import Mathlib
import IiifRules.Numeric.Binary64

/-! # Rounding a fraction to binary64

`roundSignificant num den` keeps 53 significant bits of `num / den`. It depends on the fraction
alone, so that there is one function `nearest` on fractions that are not negative: the binary64
value nearest to a fraction, if only its magnitude is not too great.

* `roundSignificant_le`: rounding keeps the order of fractions.
* `roundSignificant_exact`: a number of at most 53 significant bits is kept.
* `roundSignificant_error`: the error is at most the fraction over `2^53 + 1`, unless the fraction
  is so small that whole units limit the precision.
* `nearest_mono`, `nearest_eq_self`, `nearest_error`: the same of `nearest`.
* `Near`: as near as one rounding, which products and quotients keep. -/

namespace IiifRules.Numeric

/-! ### Halves to even -/

theorem roundHalfEven_mul_left {k : ℕ} (hk : 0 < k) (num den : ℕ) :
    roundHalfEven (k * num) (k * den) = roundHalfEven num den := by
  have h1 : 2 * (k * (num % den)) < k * den ↔ 2 * (num % den) < den := by
    rw [Nat.mul_left_comm]; exact Nat.mul_lt_mul_left hk
  have h2 : k * den < 2 * (k * (num % den)) ↔ den < 2 * (num % den) := by
    rw [Nat.mul_left_comm]; exact Nat.mul_lt_mul_left hk
  unfold roundHalfEven
  dsimp only
  rw [Nat.mul_div_mul_left _ _ hk, Nat.mul_mod_mul_left]
  simp only [h1, h2]

theorem roundHalfEven_mono {num num' den : ℕ} (h : num ≤ num') :
    roundHalfEven num den ≤ roundHalfEven num' den := by
  have hq : num / den ≤ num' / den := Nat.div_le_div_right h
  rcases Nat.eq_or_lt_of_le hq with heq | hlt
  · have hr : num % den ≤ num' % den := by
      have h1 := Nat.div_add_mod num den
      have h2 := Nat.div_add_mod num' den
      rw [heq] at h1
      omega
    unfold roundHalfEven
    dsimp only
    rw [heq]
    split_ifs <;> omega
  · exact le_trans (roundHalfEven_le num den) (le_trans hlt (le_roundHalfEven num' den))

/-- Twice the error is at most the denominator. -/
theorem roundHalfEven_error (num : ℕ) {den : ℕ} (hden : 0 < den) :
    2 * (roundHalfEven num den * den) ≤ 2 * num + den ∧
      2 * num ≤ 2 * (roundHalfEven num den * den) + den := by
  have h := Nat.div_add_mod num den
  have hr := Nat.mod_lt num hden
  have hq : num / den * den = den * (num / den) := Nat.mul_comm _ _
  have hq' : (num / den + 1) * den = den * (num / den) + den := by ring
  unfold roundHalfEven
  dsimp only
  split_ifs
  · rw [hq]; omega
  · rw [hq']; omega
  · rw [hq]; omega
  · rw [hq']; omega

theorem roundHalfEven_exact {den : ℕ} (hden : 0 < den) (n : ℕ) :
    roundHalfEven (n * den) den = n := by
  unfold roundHalfEven
  dsimp only
  rw [Nat.mul_mod_left, if_pos (by omega), Nat.mul_div_cancel _ hden]

/-- A whole number less than one half away is the rounded one. -/
theorem roundHalfEven_eq {num den n : ℕ} (hden : 0 < den) (h : |(num / den : ℚ) - n| < 1 / 2) :
    roundHalfEven num den = n := by
  obtain ⟨hup, hdown⟩ := roundHalfEven_error num hden
  have hden' : (0 : ℚ) < den := by exact_mod_cast hden
  have hup' : 2 * (roundHalfEven num den * den : ℚ) ≤ 2 * num + den := by exact_mod_cast hup
  have hdown' : 2 * (num : ℚ) ≤ 2 * (roundHalfEven num den * den) + den := by exact_mod_cast hdown
  rw [abs_lt, lt_sub_iff_add_lt, sub_lt_iff_lt_add, lt_div_iff₀ hden', div_lt_iff₀ hden'] at h
  generalize roundHalfEven num den = r at hup' hdown'
  have h1 : (r : ℚ) < n + 1 := by nlinarith [h.2]
  have h2 : (n : ℚ) < r + 1 := by nlinarith [h.1]
  have h1' : r < n + 1 := by exact_mod_cast h1
  have h2' : n < r + 1 := by exact_mod_cast h2
  omega

/-! ### Significant bits -/

/-- How many bits of the whole part of `num / den` are beyond the 53 significant ones. -/
def dropped (num den : ℕ) : ℕ := (num / den).log2 - 52

theorem roundSignificant_def (num den : ℕ) :
    roundSignificant num den =
      roundHalfEven num (den * 2 ^ dropped num den) * 2 ^ dropped num den := rfl

theorem roundSignificant_mul_left {k : ℕ} (hk : 0 < k) (num den : ℕ) :
    roundSignificant (k * num) (k * den) = roundSignificant num den := by
  have hd : dropped (k * num) (k * den) = dropped num den := by
    unfold dropped; rw [Nat.mul_div_mul_left _ _ hk]
  rw [roundSignificant_def, roundSignificant_def, hd, Nat.mul_assoc, roundHalfEven_mul_left hk]

/-- The rounded fraction lies below the power of two that ends its binade or is that power. -/
theorem roundSignificant_le_binade (num den : ℕ) :
    roundSignificant num den ≤ 2 ^ (53 + dropped num den) := by
  have hq : num / den < 2 ^ (53 + dropped num den) := by
    refine lt_of_lt_of_le Nat.lt_log2_self (Nat.pow_le_pow_right (by decide) ?_)
    unfold dropped
    omega
  rw [roundSignificant_def, Nat.pow_add]
  refine Nat.mul_le_mul_right _ (le_trans (roundHalfEven_le _ _) ?_)
  rw [← Nat.div_div_eq_div_mul]
  refine Nat.div_lt_of_lt_mul ?_
  rwa [← Nat.pow_add, Nat.add_comm]

/-- Above the least binade the rounded fraction is at least the power of two that begins its
binade. -/
theorem binade_le_roundSignificant {num den : ℕ} (h : 0 < dropped num den) :
    2 ^ (52 + dropped num den) ≤ roundSignificant num den := by
  have hlog : (num / den).log2 = 52 + dropped num den := by unfold dropped at h ⊢; omega
  have hne : num / den ≠ 0 := by
    intro h0
    rw [h0, Nat.log2_zero] at hlog
    omega
  have hq : 2 ^ (52 + dropped num den) ≤ num / den := by
    rw [← hlog]; exact Nat.log2_self_le hne
  rw [roundSignificant_def]
  calc 2 ^ (52 + dropped num den) = 2 ^ 52 * 2 ^ dropped num den := Nat.pow_add _ _ _
    _ ≤ roundHalfEven num (den * 2 ^ dropped num den) * 2 ^ dropped num den := by
      refine Nat.mul_le_mul_right _ (le_trans ?_ (le_roundHalfEven _ _))
      rw [← Nat.div_div_eq_div_mul, Nat.le_div_iff_mul_le (Nat.two_pow_pos _), ← Nat.pow_add]
      exact hq

theorem roundSignificant_mono {num num' den : ℕ} (h : num ≤ num') :
    roundSignificant num den ≤ roundSignificant num' den := by
  have hq : num / den ≤ num' / den := Nat.div_le_div_right h
  have hd : dropped num den ≤ dropped num' den := by
    unfold dropped
    rcases Nat.eq_zero_or_pos (num / den) with h0 | h0
    · rw [h0]; simp
    · have : (num / den).log2 ≤ (num' / den).log2 :=
        (Nat.le_log2 (by omega)).mpr (le_trans (Nat.log2_self_le (by omega)) hq)
      omega
  rcases Nat.eq_or_lt_of_le hd with heq | hlt
  · rw [roundSignificant_def, roundSignificant_def, heq]
    exact Nat.mul_le_mul_right _ (roundHalfEven_mono h)
  · -- different binades: the power of two between them separates the results
    calc roundSignificant num den ≤ 2 ^ (53 + dropped num den) := roundSignificant_le_binade _ _
      _ ≤ 2 ^ (52 + dropped num' den) := Nat.pow_le_pow_right (by decide) (by omega)
      _ ≤ roundSignificant num' den := binade_le_roundSignificant (by omega)

/-- **Rounding keeps the order of fractions.** -/
theorem roundSignificant_le {num den num' den' : ℕ} (hden : 0 < den) (hden' : 0 < den')
    (h : num * den' ≤ num' * den) : roundSignificant num den ≤ roundSignificant num' den' := by
  rw [← roundSignificant_mul_left hden' num den, ← roundSignificant_mul_left hden num' den',
    Nat.mul_comm den' den]
  refine roundSignificant_mono ?_
  rwa [Nat.mul_comm den' num, Nat.mul_comm den num']

/-- **Rounding depends on the fraction alone.** -/
theorem roundSignificant_congr {num den num' den' : ℕ} (hden : 0 < den) (hden' : 0 < den')
    (h : num * den' = num' * den) : roundSignificant num den = roundSignificant num' den' :=
  Nat.le_antisymm (roundSignificant_le hden hden' h.le) (roundSignificant_le hden' hden h.ge)

/-- **A number of at most 53 significant bits is kept.** -/
theorem roundSignificant_exact {m den : ℕ} (hm : m < 2 ^ 53) (e : ℕ) (hden : 0 < den) :
    roundSignificant (m * 2 ^ e * den) den = m * 2 ^ e := by
  have hd : dropped (m * 2 ^ e * den) den ≤ e := by
    unfold dropped
    rw [Nat.mul_div_cancel _ hden]
    rcases Nat.eq_zero_or_pos m with h0 | h0
    · subst h0; simp
    · have hlt : m * 2 ^ e < 2 ^ (53 + e) := by
        rw [Nat.pow_add]; exact Nat.mul_lt_mul_of_pos_right hm (Nat.two_pow_pos _)
      have := (Nat.log2_lt (Nat.mul_ne_zero (by omega) (Nat.two_pow_pos e).ne')).mpr hlt
      omega
  rw [roundSignificant_def]
  generalize dropped (m * 2 ^ e * den) den = d at hd
  obtain ⟨f, rfl⟩ := Nat.exists_eq_add_of_le hd
  have hnum : m * 2 ^ (d + f) * den = m * 2 ^ f * (den * 2 ^ d) := by rw [Nat.pow_add]; ring
  rw [hnum, roundHalfEven_exact (Nat.mul_pos hden (Nat.two_pow_pos _)), Nat.pow_add]
  ring

/-- **The relative error.** The bound is sharp where a binade begins: just above it a fraction is
rounded down to the power of two, and not by half a place. -/
theorem roundSignificant_error {num den : ℕ} (hden : 0 < den) (h : 2 ^ 52 * den ≤ num) :
    (2 ^ 53 + 1) * (roundSignificant num den * den) ≤ (2 ^ 53 + 2) * num ∧
      2 ^ 53 * num ≤ (2 ^ 53 + 1) * (roundSignificant num den * den) := by
  have hq : 2 ^ 52 ≤ num / den := (Nat.le_div_iff_mul_le hden).mpr h
  have hne : num / den ≠ 0 := by omega
  have hlog : (num / den).log2 = 52 + dropped num den := by
    have := (Nat.le_log2 hne).mpr hq
    unfold dropped
    omega
  have hlow : 2 ^ 52 * (den * 2 ^ dropped num den) ≤ num := by
    have h1 := Nat.log2_self_le hne
    rw [hlog, Nat.pow_add, Nat.le_div_iff_mul_le hden] at h1
    calc 2 ^ 52 * (den * 2 ^ dropped num den) = 2 ^ 52 * 2 ^ dropped num den * den := by ring
      _ ≤ num := h1
  rw [roundSignificant_def]
  generalize hD : den * 2 ^ dropped num den = D at hlow ⊢
  have hprod : roundHalfEven num D * 2 ^ dropped num den * den = roundHalfEven num D * D := by
    rw [← hD]; ring
  have hDpos : 0 < D := hD ▸ Nat.mul_pos hden (Nat.two_pow_pos _)
  rw [hprod]
  obtain ⟨hup, hdown⟩ := roundHalfEven_error num hDpos
  rcases Nat.lt_or_ge (2 * num) ((2 ^ 53 + 1) * D) with hnear | hfar
  · have hdiv : num / D = 2 ^ 52 := by
      refine Nat.div_eq_of_lt_le hlow ?_
      have : (2 ^ 52 + 1) * D = 2 ^ 52 * D + D := by ring
      omega
    have hmod : num = 2 ^ 52 * D + num % D := by
      have := Nat.div_add_mod num D
      rw [hdiv, Nat.mul_comm] at this
      omega
    have hround : roundHalfEven num D = 2 ^ 52 := by
      unfold roundHalfEven
      dsimp only
      rw [if_pos (by omega), hdiv]
    rw [hround]
    constructor <;> omega
  · constructor <;> omega

/-! ### The nearest value -/

theorem unitsPerOne_eq : unitsPerOne = 2 ^ 1074 := by unfold unitsPerOne; exact Nat.pow_eq

theorem unitsBound_eq : unitsBound = 2 ^ 2098 := by unfold unitsBound; exact Nat.pow_eq

theorem unitsPerOne_cast : (unitsPerOne : ℚ) = 2 ^ 1074 := by
  rw [unitsPerOne_eq, Nat.cast_pow, Nat.cast_ofNat]

theorem two_pow_le_unitsPerOne {k : ℕ} (hk : k ≤ 1074) : 2 ^ k ≤ unitsPerOne := by
  rw [unitsPerOne_eq]
  exact Nat.pow_le_pow_right (by decide) hk

theorem unitsPerOne_pos : 0 < unitsPerOne := two_pow_le_unitsPerOne (Nat.zero_le _)

theorem lt_unitsBound {n k : ℕ} (h : n ≤ 2 ^ k * unitsPerOne) (hk : k ≤ 1023) :
    n < unitsBound := by
  refine lt_of_le_of_lt h ?_
  rw [unitsPerOne_eq, unitsBound_eq, ← Nat.pow_add]
  exact Nat.pow_lt_pow_right (by decide) (by omega)

theorem unitsPerOne_cast_pos : (0 : ℚ) < unitsPerOne := Nat.cast_pos.mpr unitsPerOne_pos

/-- **The binary64 value nearest to a fraction** that is not negative, if there were no greatest
one. -/
def nearest (q : ℚ) : ℚ :=
  (roundSignificant (q.num.toNat * unitsPerOne) q.den : ℚ) / unitsPerOne

theorem nearest_nonneg (q : ℚ) : 0 ≤ nearest q := by unfold nearest; positivity

theorem nearest_natDiv (num : ℕ) {den : ℕ} (hden : 0 < den) :
    nearest (num / den) = (roundSignificant (num * unitsPerOne) den : ℚ) / unitsPerOne := by
  have hnum : (((num / den : ℚ).num.toNat : ℕ) : ℤ) = (num / den : ℚ).num :=
    Int.toNat_of_nonneg (Rat.num_nonneg.mpr (by positivity))
  have hcross : (num / den : ℚ).num.toNat * den = num * (num / den : ℚ).den := by
    have hd : (den : ℚ) ≠ 0 := by exact_mod_cast hden.ne'
    have h1 := Rat.num_div_den (num / den : ℚ)
    rw [div_eq_div_iff (by positivity) hd] at h1
    have h2 : (num / den : ℚ).num * (den : ℤ) = num * (num / den : ℚ).den := by exact_mod_cast h1
    rw [← hnum] at h2
    exact_mod_cast h2
  unfold nearest
  rw [roundSignificant_congr (Rat.den_pos _) hden]
  rw [Nat.mul_right_comm, hcross]
  ring

/-- A fraction that is not negative, as one of natural numbers. -/
theorem exists_natDiv {q : ℚ} (hq : 0 ≤ q) : ∃ num den : ℕ, 0 < den ∧ q = num / den := by
  refine ⟨q.num.toNat, q.den, Rat.den_pos q, ?_⟩
  have h : ((q.num.toNat : ℕ) : ℤ) = q.num := Int.toNat_of_nonneg (Rat.num_nonneg.mpr hq)
  have h' : ((q.num.toNat : ℕ) : ℚ) = q.num := by exact_mod_cast h
  rw [h', Rat.num_div_den]

theorem nearest_mono {p q : ℚ} (hp : 0 ≤ p) (h : p ≤ q) : nearest p ≤ nearest q := by
  obtain ⟨a, b, hb, rfl⟩ := exists_natDiv hp
  obtain ⟨c, d, hd, rfl⟩ := exists_natDiv (le_trans hp h)
  rw [nearest_natDiv a hb, nearest_natDiv c hd]
  have hb' : (0 : ℚ) < b := by exact_mod_cast hb
  have hd' : (0 : ℚ) < d := by exact_mod_cast hd
  rw [div_le_div_iff₀ hb' hd'] at h
  have h' : a * d ≤ c * b := by exact_mod_cast h
  have hle : roundSignificant (a * unitsPerOne) b ≤ roundSignificant (c * unitsPerOne) d := by
    refine roundSignificant_le hb hd ?_
    rw [Nat.mul_right_comm, Nat.mul_right_comm c]
    exact Nat.mul_le_mul_right _ h'
  exact div_le_div_of_nonneg_right (by exact_mod_cast hle) unitsPerOne_cast_pos.le

/-- The fractions that binary64 holds, but for its greatest magnitude. -/
def IsBinary64 (q : ℚ) : Prop := ∃ m e : ℕ, m < 2 ^ 53 ∧ q = (m * 2 ^ e : ℕ) / unitsPerOne

theorem nearest_eq_self {q : ℚ} (h : IsBinary64 q) : nearest q = q := by
  obtain ⟨m, e, hm, rfl⟩ := h
  rw [nearest_natDiv _ unitsPerOne_pos, roundSignificant_exact hm e unitsPerOne_pos]

theorem isBinary64_div_two_pow {n k : ℕ} (hn : n < 2 ^ 53) (hk : k ≤ 1074) :
    IsBinary64 (n / 2 ^ k) := by
  refine ⟨n, 1074 - k, hn, ?_⟩
  have hu : (unitsPerOne : ℚ) = 2 ^ (1074 - k) * 2 ^ k := by
    rw [← pow_add, Nat.sub_add_cancel hk, unitsPerOne_cast]
  rw [hu]
  push_cast
  field_simp

theorem IsBinary64.two_pow_mul {q : ℚ} (h : IsBinary64 q) (k : ℕ) : IsBinary64 (2 ^ k * q) := by
  obtain ⟨m, e, hm, rfl⟩ := h
  refine ⟨m, e + k, hm, ?_⟩
  rw [← mul_div_assoc, Nat.pow_add]
  push_cast
  ring

theorem isBinary64_two_pow (k : ℕ) : IsBinary64 (2 ^ k) := by
  have h := isBinary64_div_two_pow (n := 1) (k := 0) (by norm_num) (by omega)
  simpa using h.two_pow_mul k

theorem isBinary64_natCast {n : ℕ} (hn : n ≤ 2 ^ 53) : IsBinary64 n := by
  rcases Nat.lt_or_eq_of_le hn with h | rfl
  · simpa using isBinary64_div_two_pow (k := 0) h (by omega)
  · rw [Nat.cast_pow]
    exact isBinary64_two_pow 53

theorem nearest_natCast {n : ℕ} (hn : n ≤ 2 ^ 53) : nearest n = n :=
  nearest_eq_self (isBinary64_natCast hn)

/-- A value of binary64 is no less than what is rounded from below it. -/
theorem nearest_le_of_le {p q : ℚ} (hp : 0 ≤ p) (h : p ≤ q) (hq : IsBinary64 q) : nearest p ≤ q :=
  le_of_le_of_eq (nearest_mono hp h) (nearest_eq_self hq)

/-- **The relative error of the nearest value**, far above the least positive one. -/
theorem nearest_error {q : ℚ} (h : 1 / 2 ^ 200 ≤ q) : (2 ^ 53 + 1) * |nearest q - q| ≤ q := by
  have hq : 0 ≤ q := le_trans (by positivity) h
  obtain ⟨a, b, hb, rfl⟩ := exists_natDiv hq
  have hb' : (0 : ℚ) < b := by exact_mod_cast hb
  have hnorm : 2 ^ 52 * b ≤ a * unitsPerOne := by
    have h1 : b ≤ a * 2 ^ 200 := by
      rw [div_le_div_iff₀ (by positivity) hb', one_mul] at h
      exact_mod_cast h
    calc 2 ^ 52 * b ≤ 2 ^ 52 * (a * 2 ^ 200) := Nat.mul_le_mul_left _ h1
      _ = a * 2 ^ 252 := by rw [Nat.mul_left_comm, ← Nat.pow_add]
      _ ≤ a * unitsPerOne := Nat.mul_le_mul_left _ (two_pow_le_unitsPerOne (by omega))
  obtain ⟨hup, hdown⟩ := roundSignificant_error hb hnorm
  rw [nearest_natDiv a hb]
  generalize roundSignificant (a * unitsPerOne) b = r at hup hdown
  have hu := unitsPerOne_cast_pos
  generalize unitsPerOne = u at hup hdown hu
  have hup' : (2 ^ 53 + 1) * (r * b : ℚ) ≤ (2 ^ 53 + 2) * (a * u) := by exact_mod_cast hup
  have hdown' : 2 ^ 53 * (a * u : ℚ) ≤ (2 ^ 53 + 1) * (r * b) := by exact_mod_cast hdown
  have hdiff : (r / u - a / b : ℚ) = (r * b - a * u) / (u * b) := by
    field_simp
  have hself : (a / b : ℚ) = a * u / (u * b) := by field_simp
  rw [hdiff, hself, abs_div, abs_of_pos (mul_pos hu hb'), ← mul_div_assoc]
  refine div_le_div_of_nonneg_right ?_ (mul_pos hu hb').le
  rcases abs_cases (r * b - a * u : ℚ) with ⟨h1, -⟩ | ⟨h1, -⟩ <;> rw [h1] <;> linarith

theorem mul_le_mul_nearest {q : ℚ} (h : 1 / 2 ^ 200 ≤ q) :
    2 ^ 53 * q ≤ (2 ^ 53 + 1) * nearest q := by
  have herr := nearest_error h
  have habs := neg_abs_le (nearest q - q)
  linarith

theorem nearest_le_mul {p q : ℚ} (hp : 0 ≤ p) (h : p ≤ q) (hq : 1 / 2 ^ 200 ≤ q) :
    nearest p ≤ q * (1 + 1 / 2 ^ 53) := by
  have hmono := nearest_mono hp h
  have herr := nearest_error hq
  have habs := le_abs_self (nearest q - q)
  linarith

/-! ### Numbers that are as near as one rounding -/

/-- **As near as one rounding**: either is greater than the other by a relative error of `2^-53` at
most. -/
structure Near (computed exact : ℚ) : Prop where
  upper : computed ≤ exact * (1 + 1 / 2 ^ 53)
  lower : exact ≤ computed * (1 + 1 / 2 ^ 53)

variable {c q y : ℚ}

theorem near_nearest (h : 1 / 2 ^ 200 ≤ q) : Near (nearest q) q where
  upper := nearest_le_mul (le_trans (by positivity) h) le_rfl h
  lower := by
    have := mul_le_mul_nearest h
    linarith

theorem Near.mul_left (h : Near c q) (hy : 0 ≤ y) : Near (y * c) (y * q) where
  upper := by
    rw [mul_assoc]
    exact mul_le_mul_of_nonneg_left h.upper hy
  lower := by
    rw [mul_assoc]
    exact mul_le_mul_of_nonneg_left h.lower hy

theorem Near.div_left (h : Near c q) (hc : 0 < c) (hq : 0 < q) (hy : 0 ≤ y) :
    Near (y / c) (y / q) where
  upper := by
    rw [div_mul_eq_mul_div, div_le_div_iff₀ hc hq, mul_assoc, mul_comm _ c]
    exact mul_le_mul_of_nonneg_left h.lower hy
  lower := by
    rw [div_mul_eq_mul_div, div_le_div_iff₀ hq hc, mul_assoc, mul_comm _ q]
    exact mul_le_mul_of_nonneg_left h.upper hy

end IiifRules.Numeric
