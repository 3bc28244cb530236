import Mathlib
import IiifRules.Proofs.Numeric.Value

/-! # How large a number can become

`x.AtMost k` says that `x` is a finite number of at most `2 ^ k`, without a minus sign. Powers of two
are not rounded, so a bound passes through every operation: exponents are added where numbers are
multiplied or divided, and the operation comes to a value as long as the sum is in range.

* `floatOfInt_atMost`, `floatQuotient_atMost`, `exists_proportion`: numbers from integers.
* `AtMost.mul`, `AtMost.div`, `AtMost.min`: arithmetic.
* `AtMost.roundHalfUp`: the nearest integer. -/

namespace IiifRules.Numeric

variable {x y : Binary64} {q : ℚ} {a b : ℤ} {j k : ℕ}

/-- **The number is at most** `2 ^ k` and carries no minus sign. -/
def Binary64.AtMost (x : Binary64) (k : ℕ) : Prop := ∃ q, x.HasValue q ∧ q ≤ 2 ^ k

namespace Binary64

theorem one_atMost : one.AtMost k := ⟨1, one_hasValue, one_le_pow₀ (by norm_num)⟩

theorem AtMost.min (hx : x.AtMost k) (hy : y.AtMost j) : (x.min y).AtMost k := by
  obtain ⟨p, hp, hle⟩ := hx
  obtain ⟨q, hq, -⟩ := hy
  exact ⟨p ⊓ q, hp.min hq, inf_le_left.trans hle⟩

theorem AtMost.mul (hx : x.AtMost j) (hy : y.AtMost k) (hjk : j + k ≤ 1023) :
    (x.mul y).AtMost (j + k) := by
  obtain ⟨p, hp, hple⟩ := hx
  obtain ⟨q, hq, hqle⟩ := hy
  have hle : p * q ≤ 2 ^ (j + k) := by
    rw [pow_add]
    exact mul_le_mul hple hqle hq.nonneg (by positivity)
  exact ⟨_, hp.mul hq hle hjk,
    nearest_le_of_le (mul_nonneg hp.nonneg hq.nonneg) hle (isBinary64_two_pow _)⟩

/-- A quotient by a number that is not too small. -/
theorem AtMost.div (hx : x.AtMost j) (hy : y.HasValue q) (hq : 1 / 2 ^ k ≤ q)
    (hjk : j + k ≤ 1023) : ∃ z, x.div y = .ok z ∧ z.AtMost (j + k) := by
  obtain ⟨p, hp, hple⟩ := hx
  have hq0 : 0 < q := lt_of_lt_of_le (by positivity) hq
  have hle : p / q ≤ 2 ^ (j + k) := by
    rw [div_le_iff₀ hq0]
    calc p ≤ 2 ^ j := hple
      _ = 2 ^ (j + k) * (1 / 2 ^ k) := by rw [pow_add]; field_simp
      _ ≤ 2 ^ (j + k) * q := by gcongr
  obtain ⟨z, hz, hzv⟩ := hp.div hy hq0 hle hjk
  exact ⟨z, hz, _, hzv, nearest_le_of_le (div_nonneg hp.nonneg hq0.le) hle (isBinary64_two_pow _)⟩

/-- **The nearest integer** to a number in range. -/
theorem AtMost.roundHalfUp (hx : x.AtMost k) (hk : k ≤ 1022) :
    ∃ n, roundHalfUp x = .ok n ∧ 0 ≤ n ∧ n ≤ 2 ^ (k + 1) := by
  obtain ⟨q, hq, hle⟩ := hx
  have hsum : q + 1 / 2 ≤ 2 ^ (k + 1) := by
    have : (1 : ℚ) ≤ 2 ^ k := one_le_pow₀ (by norm_num)
    rw [pow_succ]
    linarith
  have hnear := nearest_le_of_le (by linarith [hq.nonneg]) hsum (isBinary64_two_pow _)
  refine ⟨_, hq.roundHalfUp hle hk, Int.floor_nonneg.mpr (nearest_nonneg _), ?_⟩
  exact_mod_cast (Int.floor_le _).trans hnear

end Binary64

/-! ### Numbers from integers -/

theorem floatOfInt_atMost (h0 : 0 ≤ a) (ha : a ≤ 2 ^ k) (hk : k ≤ 1023) :
    ∃ z, floatOfInt a = .ok z ∧ z.AtMost k := by
  have ha' : (a : ℚ) ≤ 2 ^ k := by exact_mod_cast ha
  have hv := Binary64.ofInt_hasValue h0 ha' hk
  exact ⟨_, hv.inRange _, _, hv,
    nearest_le_of_le (by exact_mod_cast h0) ha' (isBinary64_two_pow k)⟩

theorem exists_floatQuotient (h0 : 0 ≤ a) (ha : a ≤ 2 ^ k) (hb : 0 < b) (hk : k ≤ 1023) :
    ∃ z, floatQuotient a b = .ok z ∧ z.HasValue (nearest (a / b)) ∧
      nearest (a / b) ≤ (2 ^ k : ℚ) := by
  have h0' : (0 : ℚ) ≤ a := by exact_mod_cast h0
  have hb' : (1 : ℚ) ≤ b := by exact_mod_cast hb
  have ha' : (a : ℚ) ≤ 2 ^ k := by exact_mod_cast ha
  have hle : (a / b : ℚ) ≤ 2 ^ k := (div_le_self h0' hb').trans ha'
  obtain ⟨z, hz, hv⟩ := floatQuotient_hasValue h0 hb hle hk
  exact ⟨z, hz, hv, nearest_le_of_le (by positivity) hle (isBinary64_two_pow k)⟩

theorem floatQuotient_atMost (h0 : 0 ≤ a) (ha : a ≤ 2 ^ k) (hb : 0 < b) (hk : k ≤ 1023) :
    ∃ z, floatQuotient a b = .ok z ∧ z.AtMost k := by
  obtain ⟨z, hz, hv, hle⟩ := exists_floatQuotient h0 ha hb hk
  exact ⟨z, hz, _, hv, hle⟩

/-- **The proportion of two lengths** is neither too great nor too small. -/
theorem exists_proportion (ha : 0 < a) (ha' : a ≤ 2 ^ k) (hb : 0 < b) (hb' : b ≤ 2 ^ k)
    (hk : k ≤ 1023) :
    ∃ z q, floatQuotient a b = .ok z ∧ z.HasValue q ∧ 1 / 2 ^ k ≤ q ∧ q ≤ 2 ^ k := by
  obtain ⟨z, hz, hv, hle⟩ := exists_floatQuotient ha.le ha' hb hk
  refine ⟨z, _, hz, hv, ?_, hle⟩
  have hone : IsBinary64 (1 / 2 ^ k) := by
    have := isBinary64_div_two_pow (n := 1) (k := k) (by norm_num) (by omega)
    rwa [Nat.cast_one] at this
  calc (1 / 2 ^ k : ℚ) = nearest (1 / 2 ^ k) := (nearest_eq_self hone).symm
    _ ≤ nearest (a / b) := nearest_mono (by positivity) (le_proportion ha hb hb')

end IiifRules.Numeric
