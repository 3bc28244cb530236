import IiifRules.Proofs.Numeric.Pixel
import IiifRules.Proofs.Numeric.Search

/-! # No value is nearer

`nearest` is computed by keeping 53 significant bits. What it comes to is the value of binary64 that
lies closest to the fraction; and no other value lies as close to a decimal of few digits, since the
middle of two values has more binary places than a decimal that is no value itself.

* `abs_nearest_sub_le_of_value`: no value is nearer to a fraction.
* `abs_nearest_sub_lt`: no other value is as near to a decimal.
* `Binary64.IsNearest`: the number that is nearer than all others; `IsNearest.inj` says that there
  is only one, `isNearest_ofDecimal` that a decimal is read to it.
* `IsNearest.le`, `IsNearest.ge`: the nearest number is on the same side of every number as the
  fraction. -/

namespace IiifRules.Numeric

/-! ### Keeping significant bits -/

/-- No whole number is nearer than the rounded one. -/
theorem abs_roundHalfEven_sub_le {num den : ℕ} (hden : 0 < den) (k : ℕ) :
    |(roundHalfEven num den - num / den : ℚ)| ≤ |(k - num / den : ℚ)| := by
  obtain ⟨hup, hdown⟩ := roundHalfEven_error num hden
  have hden' : (0 : ℚ) < den := by exact_mod_cast hden
  generalize roundHalfEven num den = r at hup hdown
  have herr : |(r - num / den : ℚ)| ≤ 1 / 2 := by
    have hup' : 2 * (r * den : ℚ) ≤ 2 * num + den := by exact_mod_cast hup
    have hdown' : 2 * (num : ℚ) ≤ 2 * (r * den) + den := by exact_mod_cast hdown
    rw [abs_le, neg_le_sub_iff_le_add, tsub_le_iff_left, div_le_iff₀ hden', ← sub_le_iff_le_add,
      le_div_iff₀ hden']
    constructor <;> linarith
  rcases eq_or_ne k r with rfl | hne
  · exact le_rfl
  · -- Another whole number is at least one away from it.
    have hone : (1 : ℚ) ≤ |(k - r : ℚ)| := by
      have hz : (k : ℤ) - r ≠ 0 := by omega
      exact_mod_cast Int.one_le_abs hz
    have htri := abs_sub_le (k : ℚ) (num / den) r
    rw [abs_sub_comm (num / den : ℚ)] at htri
    linarith

/-- A number of 53 significant bits is a multiple of the step of its binade and of those below. -/
theorem two_pow_dvd_of_binade_le {m e d : ℕ} (hm : m < 2 ^ 53) (h : 2 ^ (52 + d) ≤ m * 2 ^ e) :
    2 ^ d ∣ m * 2 ^ e := by
  have hde : d ≤ e := by
    by_contra hlt
    have hbelow : m * 2 ^ e < 2 ^ (53 + e) := by
      rw [Nat.pow_add]
      exact Nat.mul_lt_mul_of_pos_right hm (Nat.two_pow_pos e)
    have hpow : 2 ^ (53 + e) ≤ 2 ^ (52 + d) := Nat.pow_le_pow_right (by decide) (by omega)
    omega
  exact (pow_dvd_pow 2 hde).mul_left m

theorem binade_mul_le {num den : ℕ} (hden : 0 < den) (h : 0 < dropped num den) :
    2 ^ (52 + dropped num den) * den ≤ num := by
  have hlog : (num / den).log2 = 52 + dropped num den := by
    unfold dropped at h ⊢
    omega
  have hne : num / den ≠ 0 := by
    intro h0
    rw [h0, Nat.log2_zero] at hlog
    omega
  have hself := Nat.log2_self_le hne
  rwa [hlog, Nat.le_div_iff_mul_le hden] at hself

/-- **No number of 53 significant bits is nearer** than the rounded one. -/
theorem abs_roundSignificant_sub_le {num den m : ℕ} (hden : 0 < den) (hm : m < 2 ^ 53) (e : ℕ) :
    |(roundSignificant num den - num / den : ℚ)| ≤ |((m * 2 ^ e : ℕ) - num / den : ℚ)| := by
  generalize hd : dropped num den = d
  have hpow : (0 : ℚ) < 2 ^ d := by positivity
  have hdist : ∀ k : ℕ, |((k * 2 ^ d : ℕ) - num / den : ℚ)| =
      |(k - num / (den * 2 ^ d : ℕ) : ℚ)| * 2 ^ d := by
    intro k
    have hdiff : ((k * 2 ^ d : ℕ) - num / den : ℚ) = (k - num / (den * 2 ^ d : ℕ)) * 2 ^ d := by
      push_cast
      field_simp
    rw [hdiff, abs_mul, abs_of_pos hpow]
  have hmultiple : ∀ k : ℕ, |(roundSignificant num den - num / den : ℚ)| ≤
      |((k * 2 ^ d : ℕ) - num / den : ℚ)| := by
    intro k
    have hround := @abs_roundHalfEven_sub_le num _
      (Nat.mul_pos hden (Nat.two_pow_pos d)) k
    rw [roundSignificant_def, hd, hdist, hdist]
    exact mul_le_mul_of_nonneg_right hround hpow.le
  rcases le_or_gt (2 ^ (52 + d)) (m * 2 ^ e) with hge | hlt
  · obtain ⟨k, hk⟩ := two_pow_dvd_of_binade_le hm hge
    rw [hk, Nat.mul_comm]
    exact hmultiple k
  · rcases Nat.eq_zero_or_pos d with rfl | hpos
    · simpa using hmultiple (m * 2 ^ e)
    · -- The number lies below the binade, the power of two at its beginning between them.
      have hbinade := binade_mul_le hden (hd ▸ hpos)
      rw [hd] at hbinade
      have hden' : (0 : ℚ) < den := by exact_mod_cast hden
      have hle : ((2 ^ 52 * 2 ^ d : ℕ) : ℚ) ≤ num / den := by
        rw [le_div_iff₀ hden', ← Nat.pow_add]
        exact_mod_cast hbinade
      have hbelow : ((m * 2 ^ e : ℕ) : ℚ) ≤ (2 ^ 52 * 2 ^ d : ℕ) := by
        rw [← Nat.pow_add]
        exact_mod_cast hlt.le
      refine (hmultiple (2 ^ 52)).trans ?_
      rw [abs_of_nonpos (sub_nonpos.mpr hle), abs_of_nonpos (sub_nonpos.mpr (hbelow.trans hle))]
      exact neg_le_neg (sub_le_sub_right hbelow _)

/-! ### Values of binary64 -/

/-- **No value is nearer** to a fraction than the one it is rounded to. -/
theorem abs_nearest_sub_le_of_value {q w : ℚ} (hq : 0 ≤ q) (hw : IsBinary64 w) :
    |nearest q - q| ≤ |w - q| := by
  obtain ⟨num, den, hden, rfl⟩ := exists_natDiv hq
  obtain ⟨m, e, hm, rfl⟩ := hw
  have hu := unitsPerOne_cast_pos
  have hscale : ∀ v : ℚ, |v / unitsPerOne - num / den| =
      |v - (num * unitsPerOne : ℕ) / den| / unitsPerOne := by
    intro v
    have hdiff : v / unitsPerOne - num / den =
        (v - (num * unitsPerOne : ℕ) / den) / unitsPerOne := by
      push_cast
      field_simp
    rw [hdiff, abs_div, abs_of_pos hu]
  rw [nearest_natDiv num hden, hscale, hscale]
  exact div_le_div_of_nonneg_right (abs_roundSignificant_sub_le hden hm e) hu.le

/-- The middle of two values is a binary fraction. -/
theorem IsBinary64.exists_middle {v w : ℚ} (hv : IsBinary64 v) (hw : IsBinary64 w) :
    ∃ n k : ℕ, (v + w) / 2 = n / 2 ^ k := by
  obtain ⟨m, e, -, rfl⟩ := hv
  obtain ⟨m', e', -, rfl⟩ := hw
  obtain ⟨k, hk⟩ : ∃ k : ℕ, (unitsPerOne : ℚ) = 2 ^ k := ⟨_, unitsPerOne_cast⟩
  refine ⟨m * 2 ^ e + m' * 2 ^ e', k + 1, ?_⟩
  rw [hk, pow_succ]
  push_cast
  ring

/-- **A decimal that is a binary fraction** is a value, if it has few digits: its places cancel but
for the powers of two. -/
theorem isBinary64_of_eq_div {digits places n k : ℕ} (hdigits : digits < 2 ^ 53)
    (hplaces : places ≤ 1074) (h : (digits / 10 ^ places : ℚ) = n / 2 ^ k) :
    IsBinary64 (digits / 10 ^ places) := by
  rw [div_eq_div_iff (by positivity) (by positivity)] at h
  have hcross : digits * 2 ^ k = n * 10 ^ places := by exact_mod_cast h
  have hdvd : 5 ^ places ∣ digits := by
    have hfive : 5 ^ places ∣ digits * 2 ^ k := by
      rw [hcross]
      exact (pow_dvd_pow_of_dvd (by norm_num) places).mul_left n
    exact (Nat.Coprime.pow places k (by norm_num)).dvd_of_dvd_mul_right hfive
  obtain ⟨t, rfl⟩ := hdvd
  have ht : t < 2 ^ 53 := lt_of_le_of_lt (Nat.le_mul_of_pos_left t (by positivity)) hdigits
  have hten : ((5 ^ places * t : ℕ) / 10 ^ places : ℚ) = t / 2 ^ places := by
    rw [show (10 : ℚ) = 5 * 2 by norm_num, mul_pow]
    push_cast
    field_simp
  rw [hten]
  exact isBinary64_div_two_pow ht hplaces

theorem isBinary64_nearest {q : ℚ} (hq : 0 ≤ q) : IsBinary64 (nearest q) := by
  obtain ⟨num, den, hden, rfl⟩ := exists_natDiv hq
  obtain ⟨m, e, hm, hround⟩ := roundSignificant_eq (num * unitsPerOne) den
  refine ⟨m, e, hm, ?_⟩
  rw [nearest_natDiv num hden, hround]
  rfl

/-- **No other value is as near** to a decimal of few digits. -/
theorem abs_nearest_sub_lt {digits places : ℕ} {w : ℚ} (hdigits : digits < 2 ^ 53)
    (hplaces : places ≤ 1074) (hw : IsBinary64 w) (hne : w ≠ nearest (digits / 10 ^ places)) :
    |nearest (digits / 10 ^ places) - digits / 10 ^ places| <
      |w - (digits / 10 ^ places : ℚ)| := by
  have hq : (0 : ℚ) ≤ digits / 10 ^ places := by positivity
  refine lt_of_le_of_ne (abs_nearest_sub_le_of_value hq hw) fun htie => ?_
  -- Two values at one distance have the decimal as their middle, so that it is a value.
  have hself : nearest (digits / 10 ^ places) = digits / 10 ^ places := by
    rcases abs_eq_abs.mp htie with heq | heq
    · exact absurd (sub_left_inj.mp heq).symm hne
    · obtain ⟨n, k, hn⟩ := (isBinary64_nearest hq).exists_middle hw
      have hmiddle : (nearest (digits / 10 ^ places) + w) / 2 = digits / 10 ^ places := by
        linarith
      exact nearest_eq_self (isBinary64_of_eq_div hdigits hplaces (hmiddle.symm.trans hn))
  rw [hself, sub_self, abs_zero] at htie
  rw [hself] at hne
  exact hne (sub_eq_zero.mp (abs_eq_zero.mp htie.symm))

/-! ### The nearest number -/

namespace Binary64

variable {x y : Binary64} {q v w : ℚ}

theorem HasValue.isBinary64 (h : x.HasValue w) : IsBinary64 w := by
  obtain ⟨units, ⟨-, m, e, hm, rfl⟩, -, rfl⟩ := h
  exact ⟨m, e, hm, rfl⟩

/-- **The number nearest to a fraction** that is not negative: every number of another value is
farther from it. Numbers below zero are left out, being farther than zero. -/
def IsNearest (x : Binary64) (q : ℚ) : Prop :=
  ∃ v, x.HasValue v ∧ ∀ y w, HasValue y w → w ≠ v → |v - q| < |w - q|

/-- There is no more than one nearest number. -/
theorem IsNearest.inj (hx : x.IsNearest q) (hy : y.IsNearest q) : x = y := by
  obtain ⟨v, hv, hxfar⟩ := hx
  obtain ⟨w, hw, hyfar⟩ := hy
  have hvw : v = w := by
    by_contra hne
    exact absurd (hxfar y w hw (Ne.symm hne)) (not_lt.mpr (hyfar x v hv hne).le)
  subst hvw
  exact hv.inj hw

/-- **A number that is not below the fraction** is not below the nearest one. -/
theorem IsNearest.le (hx : x.IsNearest q) (hv : x.HasValue v) (hw : y.HasValue w) (h : q ≤ w) :
    v ≤ w := by
  obtain ⟨v', hv', hfar⟩ := hx
  obtain rfl := hv.unique hv'
  by_contra hlt
  rw [not_le] at hlt
  have hcloser := hfar y w hw hlt.ne
  rw [abs_of_nonneg (by linarith), abs_of_nonneg (by linarith)] at hcloser
  linarith

/-- **A number that is not above the fraction** is not above the nearest one. -/
theorem IsNearest.ge (hx : x.IsNearest q) (hv : x.HasValue v) (hw : y.HasValue w) (h : w ≤ q) :
    w ≤ v := by
  obtain ⟨v', hv', hfar⟩ := hx
  obtain rfl := hv.unique hv'
  by_contra hlt
  rw [not_le] at hlt
  have hcloser := hfar y w hw hlt.ne'
  rw [abs_of_nonpos (by linarith), abs_of_nonpos (by linarith)] at hcloser
  linarith

theorem HasValue.le (hx : x.HasValue v) (hy : y.HasValue w) : x.le y = decide (v ≤ w) := by
  have hlt := hy.lt hx
  obtain ⟨_, _, rfl, -⟩ := hx
  obtain ⟨_, _, rfl, -⟩ := hy
  rw [show decide (v ≤ w) = !decide (w < v) by rw [← decide_not, decide_eq_decide, not_lt], ← hlt]
  rfl

theorem zero_hasValue : zero.HasValue 0 := by
  have := ofInt_exact (n := 0) (by norm_num) (by norm_num)
  rwa [Int.cast_zero] at this

theorem IsNearest.zero_le (hx : x.IsNearest q) : Binary64.le .zero x = true := by
  obtain ⟨v, hv, -⟩ := hx
  rw [zero_hasValue.le hv, decide_eq_true_eq]
  exact hv.nonneg

/-- A fraction of few digits whose denominator is a power of two is a number. -/
theorem ofRatio_two_pow_hasValue {m k : ℕ} (hm : m < 2 ^ 53) (hk : k ≤ 1074) :
    (ofRatio false m (2 ^ k)).HasValue (m / 2 ^ k) := by
  have hle : (m / (2 ^ k : ℕ) : ℚ) ≤ 2 ^ 53 := by
    rw [div_le_iff₀ (by positivity)]
    have hone : (1 : ℚ) ≤ (2 ^ k : ℕ) := by exact_mod_cast Nat.one_le_two_pow
    have hm' : (m : ℚ) ≤ 2 ^ 53 := by exact_mod_cast hm.le
    calc (m : ℚ) ≤ 2 ^ 53 * 1 := by rwa [mul_one]
      _ ≤ 2 ^ 53 * (2 ^ k : ℕ) := by gcongr
  have hvalue := ofRatio_hasValue (Nat.two_pow_pos k) hle (by norm_num)
  push_cast at hvalue
  rwa [nearest_eq_self (isBinary64_div_two_pow hm hk)] at hvalue

/-- **A decimal of few digits is read to the nearest number.** -/
theorem isNearest_ofDecimal {digits places : ℕ} (hplaces : places ≤ 30)
    (hfew : digits < 10 ^ 15) :
    (ofDecimal false digits (-places)).IsNearest (digits / 10 ^ places) := by
  obtain ⟨units, fits, hx, hv⟩ := Decimal.ofDecimal_eq_finite hplaces hfew
  have hq : (digits * 10 ^ (-places : ℤ) : ℚ) = digits / 10 ^ places := by
    rw [zpow_neg, zpow_natCast, div_eq_mul_inv]
  rw [hq] at hv
  refine ⟨_, ⟨units, fits, hx, hv.symm⟩, fun y w hw hne => ?_⟩
  exact abs_nearest_sub_lt (lt_trans hfew (by norm_num)) (by omega) hw.isBinary64 hne

end Binary64

end IiifRules.Numeric
