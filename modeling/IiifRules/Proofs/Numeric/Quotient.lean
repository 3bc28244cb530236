import Mathlib
import IiifRules.Proofs.Numeric.Half
import IiifRules.Proofs.Outcome

/-! # Quotients of any magnitude, rounded up

A quotient of integers is rounded to binary64 before it is rounded up to a whole number. If it is
too great, that is a failure; if it lies above a whole number by so little that it is rounded to
that number, one is lacking in the result.

* `rangeEnd`: where the fractions in range end.
* `ceilQuotient_eq_ok`, `ceilQuotient_eq_error`: a quotient rounded up, and one out of range.
* `nearest_le_natCast_iff`: when a fraction is not rounded above a whole number.
* `ExcessLost`: an excess over a whole number that is lost; `ceil_nearest` says what a fraction
  comes to. -/

namespace IiifRules.Numeric

variable {q v : ℚ} {a b : ℤ} {m n k : ℕ}

/-! ### The range -/

/-- The middle between the number before a power of two and that power. -/
theorem nearest_before_two_pow (j : ℕ) : nearest ((2 ^ 54 - 1) * 2 ^ j) = 2 ^ 54 * 2 ^ j := by
  have hround := roundSignificant_middle (m := 2 ^ 53 - 1) (by norm_num) (by norm_num) (j + 1075)
  have hunits : 2 ^ (j + 1075) = 2 * 2 ^ j * unitsPerOne := by
    rw [unitsPerOne_eq, ← pow_succ', ← Nat.pow_add]
  rw [hunits, if_neg (by norm_num), ← Nat.mul_assoc] at hround
  have hq : ((2 ^ 54 - 1) * 2 ^ j : ℚ) = ((2 * (2 ^ 53 - 1) + 1) * (2 * 2 ^ j) : ℕ) / (2 : ℕ) := by
    push_cast
    ring
  rw [hq, nearest_natDiv _ (by norm_num), hround, div_eq_iff unitsPerOne_cast_pos.ne']
  push_cast
  ring

theorem nearest_lt_two_pow_iff (hq : 0 ≤ q) (j : ℕ) :
    nearest q < 2 ^ 54 * 2 ^ j ↔ q < (2 ^ 54 - 1) * 2 ^ j := by
  have hpos : (0 : ℚ) < 2 ^ j := by positivity
  have hlast : IsBinary64 (2 ^ j * (2 ^ 54 - 2)) := by
    refine IsBinary64.two_pow_mul ?_ j
    have h := (isBinary64_natCast (n := 2 ^ 53 - 1) (by norm_num)).two_pow_mul 1
    norm_num at h ⊢
    exact h
  constructor
  · intro h
    by_contra hge
    have hmono := nearest_mono (by linarith) (not_lt.mp hge)
    rw [nearest_before_two_pow] at hmono
    exact absurd h (not_lt.mpr hmono)
  · intro h
    rcases le_total q (2 ^ j * (2 ^ 54 - 2)) with hle | hge
    · have := nearest_le_of_le hq hle hlast
      linarith
    · -- The number before the power of two is nearer than that power.
      have herr := abs_nearest_sub_le_of_value hq hlast
      rw [abs_of_nonpos (by linarith : 2 ^ j * (2 ^ 54 - 2) - q ≤ 0)] at herr
      have hself := le_abs_self (nearest q - q)
      linarith

/-- **Where the fractions in range end**: the middle between the greatest number and the power of
two beyond it. -/
def rangeEnd : ℚ := (2 ^ 54 - 1) * 2 ^ 970

theorem roundSignificant_lt_unitsBound_iff (num : ℕ) {den : ℕ} (hden : 0 < den) :
    roundSignificant (num * unitsPerOne) den < unitsBound ↔ (num / den : ℚ) < rangeEnd := by
  have hbound : (unitsBound : ℚ) = 2 ^ 54 * 2 ^ 970 * unitsPerOne := by
    rw [unitsPerOne_cast, unitsBound_eq, Nat.cast_pow, Nat.cast_ofNat, ← pow_add, ← pow_add]
  unfold rangeEnd
  rw [← nearest_lt_two_pow_iff (by positivity), nearest_natDiv num hden,
    div_lt_iff₀ unitsPerOne_cast_pos, ← hbound, Nat.cast_lt]

theorem ceilQuotient_eq_ok (ha : 0 ≤ a) (hb : 0 < b) (h : (a / b : ℚ) < rangeEnd) :
    ceilQuotient a b = .ok ⌈nearest (a / b)⌉ := by
  obtain ⟨m, rfl⟩ := Int.eq_ofNat_of_zero_le ha
  obtain ⟨n, rfl⟩ := Int.eq_ofNat_of_zero_le hb.le
  have hn : 0 < n := by omega
  rw [Int.cast_natCast, Int.cast_natCast] at h ⊢
  have hlt := (roundSignificant_lt_unitsBound_iff m hn).mpr h
  have hv : (Binary64.ofRatio false m n).HasValue (nearest (m / n)) := by
    refine ⟨_, ⟨hlt, roundSignificant_eq _ _⟩, ?_, nearest_natDiv m hn⟩
    unfold Binary64.ofRatio
    exact dif_pos hlt
  unfold ceilQuotient
  rw [floatQuotient_natCast m hn, hv.inRange, Outcome.ok_bind, hv.ceil]

theorem ceilQuotient_eq_error (ha : 0 ≤ a) (hb : 0 < b) (h : rangeEnd ≤ (a / b : ℚ)) :
    ceilQuotient a b = .error .quotientTooLargeForFloat := by
  obtain ⟨m, rfl⟩ := Int.eq_ofNat_of_zero_le ha
  obtain ⟨n, rfl⟩ := Int.eq_ofNat_of_zero_le hb.le
  have hn : 0 < n := by omega
  rw [Int.cast_natCast, Int.cast_natCast] at h
  have hge := (roundSignificant_lt_unitsBound_iff m hn).not.mpr (not_lt.mpr h)
  have hinf : Binary64.ofRatio false m n = .infinite false := by
    unfold Binary64.ofRatio
    exact dif_neg hge
  unfold ceilQuotient
  rw [floatQuotient_natCast m hn, hinf]
  rfl

/-! ### Lost excess -/

/-- A fraction is rounded to zero up to half of the least positive number. -/
theorem nearest_nonpos_iff (hq : 0 ≤ q) : nearest q ≤ 0 ↔ q ≤ 1 / (2 * unitsPerOne) := by
  have hu := unitsPerOne_cast_pos
  have hleast : IsBinary64 (1 / unitsPerOne) := ⟨1, 0, by norm_num, by norm_num⟩
  have hhalf : (1 / unitsPerOne : ℚ) = 2 * (1 / (2 * unitsPerOne)) := by field_simp
  constructor
  · intro h
    have herr := abs_nearest_sub_le_of_value hq hleast
    rw [le_antisymm h (nearest_nonneg q), zero_sub, abs_neg, abs_of_nonneg hq] at herr
    rcases le_total q (1 / unitsPerOne) with hle | hge
    · rw [abs_of_nonneg (sub_nonneg.mpr hle)] at herr
      linarith
    · rw [abs_of_nonpos (sub_nonpos.mpr hge)] at herr
      linarith [show (0 : ℚ) < 1 / unitsPerOne by positivity]
  · intro h
    have hzero : nearest ((1 : ℕ) / (2 * unitsPerOne : ℕ)) = 0 := by
      have hround : roundSignificant 1 2 = 0 := by decide
      rw [nearest_natDiv 1 (Nat.mul_pos two_pos unitsPerOne_pos), Nat.mul_comm 1, Nat.mul_comm 2,
        roundSignificant_mul_left unitsPerOne_pos, hround, Nat.cast_zero, zero_div]
    rw [Nat.cast_one, Nat.cast_mul, Nat.cast_ofNat] at hzero
    exact (nearest_mono hq h).trans hzero.le

/-- Half the distance from a whole number to the next value above it. -/
def halfGap (n : ℕ) : ℚ := if n = 0 then 1 / (2 * unitsPerOne) else halfPlace n

/-- **An excess that is lost**: the fraction is above a whole number by no more than half the
distance to the next value, and if it is in the middle of two whole numbers, the lower one is
even. -/
def ExcessLost (q : ℚ) : Prop :=
  ∃ n : ℕ, n < q ∧ q ≤ n + halfGap n ∧ (q = n + 1 / 2 → Even n)

/-- A whole number as a significand over a power of two. -/
theorem exists_significand (hn0 : 0 < n) (hn : n < 2 ^ 53) : ∃ k ≤ 52, 2 ^ 52 ≤ n * 2 ^ k ∧
    n * 2 ^ k < 2 ^ 53 ∧ halfPlace n = 1 / (2 * 2 ^ k) := by
  generalize he : Nat.log 2 n = e
  have hlow : 2 ^ e ≤ n := he ▸ Nat.pow_log_le_self 2 (by omega)
  have hhigh : n < 2 ^ (e + 1) := he ▸ Nat.lt_pow_succ_log_self (by norm_num) n
  have he52 : e ≤ 52 := by
    by_contra hlt
    have := Nat.pow_le_pow_right (n := 2) (by norm_num) (show 53 ≤ e by omega)
    omega
  obtain ⟨k, hk⟩ : ∃ k, e + k = 52 := ⟨52 - e, by omega⟩
  refine ⟨k, by omega, ?_, ?_, ?_⟩
  · calc 2 ^ 52 = 2 ^ e * 2 ^ k := by rw [← Nat.pow_add, hk]
      _ ≤ n * 2 ^ k := Nat.mul_le_mul_right _ hlow
  · calc n * 2 ^ k < 2 ^ (e + 1) * 2 ^ k := Nat.mul_lt_mul_of_pos_right hhigh (Nat.two_pow_pos k)
      _ = 2 ^ 53 := by rw [← Nat.pow_add, Nat.add_right_comm, hk]
  · have hexp : (e : ℤ) - 53 = -(k + 1 : ℕ) := by omega
    rw [halfPlace, Int.log_natCast, he, hexp, zpow_neg, zpow_natCast, one_div, ← pow_succ']

theorem halfGap_le (hn : n < 2 ^ 53) : halfGap n ≤ 1 / 2 := by
  unfold halfGap
  split_ifs with hn0
  · have hu : (1 : ℚ) ≤ unitsPerOne := by exact_mod_cast unitsPerOne_pos
    exact one_div_le_one_div_of_le two_pos (by linarith)
  · obtain ⟨k, -, -, -, hplace⟩ := exists_significand (Nat.pos_of_ne_zero hn0) hn
    have hpow : (1 : ℚ) ≤ 2 ^ k := one_le_pow₀ (by norm_num)
    rw [hplace]
    exact one_div_le_one_div_of_le two_pos (by linarith)

/-- **A fraction is not rounded above a whole number** up to half the distance from it to the next
value. -/
theorem nearest_le_natCast_iff (hn : n < 2 ^ 53) (hq : 0 ≤ q) :
    nearest q ≤ n ↔ q ≤ n + halfGap n ∧ (q = n + 1 / 2 → Even n) := by
  unfold halfGap
  rcases Nat.eq_zero_or_pos n with rfl | hn0
  · simp [nearest_nonpos_iff hq]
  · obtain ⟨k, hk, hlow, hhigh, hplace⟩ := exists_significand hn0 hn
    have hpow : (2 ^ k : ℚ) ≠ 0 := by positivity
    have hself : (n : ℚ) = (n * 2 ^ k : ℕ) / 2 ^ k := by
      push_cast
      exact (mul_div_cancel_right₀ _ hpow).symm
    have hiff := nearest_le_iff hlow hhigh (show k ≤ 1074 by omega) hq
    rw [← hself] at hiff
    rw [if_neg hn0.ne', hplace, hiff]
    refine and_congr_right fun hle => ?_
    rcases Nat.eq_zero_or_pos k with rfl | hk0
    · simp
    · -- The distance is less than one, so that the middle of two whole numbers is beyond it.
      have htwo : (2 : ℚ) ≤ 2 ^ k := by
        simpa using pow_le_pow_right₀ (a := (2 : ℚ)) (by norm_num) hk0
      have hsmall : 1 / (2 * 2 ^ k) < (1 / 2 : ℚ) :=
        one_div_lt_one_div_of_lt two_pos (by linarith)
      have heven : Even (n * 2 ^ k) := ((even_two.pow_of_ne_zero hk0.ne').mul_left n)
      exact iff_of_true (fun _ => heven) fun h => absurd h (by linarith)

theorem excessLost_iff (hn : n < 2 ^ 53) (hlow : n < q) (hhigh : q ≤ n + 1) :
    ExcessLost q ↔ nearest q ≤ n := by
  rw [nearest_le_natCast_iff hn (le_trans (Nat.cast_nonneg n) hlow.le)]
  constructor
  · rintro ⟨l, hl, hle, heven⟩
    have hln : l < n + 1 := by exact_mod_cast hl.trans_le hhigh
    have hgap := halfGap_le (show l < 2 ^ 53 by omega)
    have hnl : n < l + 1 := by
      have : (n : ℚ) < l + 1 := by linarith
      exact_mod_cast this
    obtain rfl : l = n := by omega
    exact ⟨hle, heven⟩
  · rintro ⟨hle, heven⟩
    exact ⟨n, hlow, hle, heven⟩

/-- **What a fraction comes to** when it is rounded and then rounded up: one is lacking if its
excess is lost. -/
theorem ceil_nearest (hq : 0 < q) (hle : q ≤ 2 ^ 53) :
    (ExcessLost q → ⌈nearest q⌉ = ⌈q⌉ - 1) ∧ (¬ExcessLost q → ⌈nearest q⌉ = ⌈q⌉) := by
  obtain ⟨n, hn⟩ : ∃ n : ℕ, ⌈q⌉ = n + 1 :=
    ⟨(⌈q⌉ - 1).toNat, by have := Int.ceil_pos.mpr hq; omega⟩
  obtain ⟨hlow, hhigh⟩ := Int.ceil_eq_iff.mp hn
  push_cast at hlow hhigh
  rw [add_sub_cancel_right] at hlow
  have hn53 : n + 1 ≤ 2 ^ 53 := by
    have : ⌈q⌉ ≤ 2 ^ 53 := Int.ceil_le.mpr (by exact_mod_cast hle)
    omega
  have hge : (n : ℚ) ≤ nearest q :=
    le_nearest_of_le (Nat.cast_nonneg n) hlow.le (isBinary64_natCast (by omega))
  have hup : nearest q ≤ (n + 1 : ℕ) :=
    nearest_le_of_le hq.le (by exact_mod_cast hhigh) (isBinary64_natCast hn53)
  push_cast at hup
  rw [excessLost_iff (by omega) hlow hhigh, hn, add_sub_cancel_right]
  constructor
  · intro h
    rw [le_antisymm h hge, Int.ceil_natCast]
  · intro h
    rw [Int.ceil_eq_iff]
    push_cast
    rw [add_sub_cancel_right]
    exact ⟨not_le.mp h, hup⟩

theorem not_excessLost_natCast (hn : n ≤ 2 ^ 53) : ¬ExcessLost n := by
  rintro ⟨l, hlt, hle, -⟩
  have hlt' : l < n := by exact_mod_cast hlt
  have hgap := halfGap_le (show l < 2 ^ 53 by omega)
  have hnext : (l : ℚ) + 1 ≤ n := by exact_mod_cast hlt'
  linarith

/-- **The excess of a quotient** of a length of at most `2 ^ 53` is not lost, unless the quotient is
rounded to zero. -/
theorem excessLost_div_iff (ha : 0 < a) (hA : a ≤ 2 ^ 53) (hb : 0 < b) :
    ExcessLost (a / b) ↔ 2 * unitsPerOne * a ≤ b := by
  have ha' : (0 : ℚ) < a := by exact_mod_cast ha
  have hb' : (0 : ℚ) < b := by exact_mod_cast hb
  have hu := unitsPerOne_cast_pos
  have hzero : (a / b : ℚ) ≤ (0 : ℕ) + halfGap 0 ↔ 2 * unitsPerOne * a ≤ b := by
    rw [halfGap, if_pos rfl, Nat.cast_zero, zero_add, div_le_div_iff₀ hb' (by positivity), one_mul,
      mul_comm]
    exact_mod_cast Iff.rfl
  constructor
  · rintro ⟨n, hlt, hle, heven⟩
    rcases Nat.eq_zero_or_pos n with rfl | hn0
    · exact hzero.mp hle
    · exfalso
      rw [lt_div_iff₀ hb'] at hlt
      have hmul : (n : ℤ) * b < a := by exact_mod_cast hlt
      have hbelow : (n : ℤ) < a := (le_mul_of_one_le_right (by omega) (by omega)).trans_lt hmul
      have hstep : b < a := (le_mul_of_one_le_left hb.le (by omega)).trans_lt hmul
      have hgt := lt_nearest_div ha hA hb (by omega) hmul
      rw [Int.cast_natCast] at hgt
      exact hgt.not_ge ((nearest_le_natCast_iff (by omega) (by positivity)).mpr ⟨hle, heven⟩)
  · intro h
    refine ⟨0, ?_, hzero.mpr h, fun _ => Even.zero⟩
    rw [Nat.cast_zero]
    exact div_pos ha' hb'

/-! ### Great numbers -/

/-- A value from `2 ^ 53` on is a whole number. -/
theorem IsBinary64.ceil_eq (hv : IsBinary64 v) (h : 2 ^ 53 ≤ v) : (⌈v⌉ : ℚ) = v := by
  obtain ⟨m, e, hm, rfl⟩ := hv
  rw [le_div_iff₀ unitsPerOne_cast_pos] at h
  have hle : 2 ^ 53 * unitsPerOne ≤ m * 2 ^ e := by exact_mod_cast h
  have he : 1074 ≤ e := by
    by_contra hlt
    have hpow := two_pow_le_unitsPerOne (show e ≤ 1074 by omega)
    have hbelow : m * 2 ^ e < 2 ^ 53 * 2 ^ e := Nat.mul_lt_mul_of_pos_right hm (Nat.two_pow_pos e)
    have habove : 2 ^ 53 * 2 ^ e ≤ 2 ^ 53 * unitsPerOne := Nat.mul_le_mul_left _ hpow
    omega
  have hwhole : ((m * 2 ^ e : ℕ) / unitsPerOne : ℚ) = (m * 2 ^ (e - 1074) : ℕ) := by
    rw [div_eq_iff unitsPerOne_cast_pos.ne', unitsPerOne_cast]
    push_cast
    rw [mul_assoc, ← pow_add, Nat.sub_add_cancel he]
  rw [hwhole, Int.ceil_natCast, Int.cast_natCast]

theorem two_pow_lt_rangeEnd : 2 ^ 53 < rangeEnd := by
  calc (2 ^ 53 : ℚ) < (2 ^ 54 - 1) * 1 := by norm_num
    _ ≤ (2 ^ 54 - 1) * 2 ^ 970 :=
      mul_le_mul_of_nonneg_left (one_le_pow₀ (by norm_num)) (by norm_num)

/-- What is in range is still so when it is rounded up. -/
theorem ceil_nearest_lt_rangeEnd (hq : 0 ≤ q) (h : q < rangeEnd) :
    (⌈nearest q⌉ : ℚ) < rangeEnd := by
  have hrange := two_pow_lt_rangeEnd
  rcases le_total (nearest q) (2 ^ 53) with hle | hge
  · have hceil : ⌈nearest q⌉ ≤ 2 ^ 53 := Int.ceil_le.mpr (by exact_mod_cast hle)
    have hceil' : (⌈nearest q⌉ : ℚ) ≤ 2 ^ 53 := by exact_mod_cast hceil
    linarith
  · have hself := isBinary64_nearest hq
    unfold rangeEnd at h ⊢
    rw [hself.ceil_eq hge, ← nearest_lt_two_pow_iff (nearest_nonneg q), nearest_eq_self hself,
      nearest_lt_two_pow_iff hq]
    exact h

end IiifRules.Numeric
