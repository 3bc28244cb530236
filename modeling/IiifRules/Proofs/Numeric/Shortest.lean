import IiifRules.Numeric.Places
import IiifRules.Proofs.Numeric.Numeral
import IiifRules.Proofs.Numeric.Value

/-! # Decimals that survive binary64

A decimal of at most fifteen digits is the only one on its grid that is read to its binary64 number
(`toRat_eq_of_nearest_eq`): two of them are further apart than the relative error of rounding. The
search for the shortest decimal therefore comes back to it.

* `leadingPower_spec`: the power of ten at which the search begins.
* `onGrid?_eq_some`, `onGrid?_isSome`: what the search finds on one grid.
* `ReadFrom.shortest_eq`: the shortest decimal of the number read from `digits * 10^-places` is
  that decimal, if `digits` has at most fifteen digits and does not end in zero.
* `plain_ofDecimal`, `fixed_one_ofDecimal`: how the number is written. -/

namespace IiifRules.Numeric

/-! ### Two decimals with one nearest value -/

/-- **Rounding is injective on a grid of fifteen digits.** -/
theorem toRat_eq_of_nearest_eq {A B g : ℚ} {a b : ℕ} (hA : A = a * g) (hB : B = b * g)
    (hg : 0 < g) (hlowA : 1 / 2 ^ 200 ≤ A) (hlowB : 1 / 2 ^ 200 ≤ B) (hfew : A ≤ 10 ^ 15 * g)
    (h : nearest A = nearest B) : A = B := by
  have hApos : 0 < A := lt_of_lt_of_le (by positivity) hlowA
  have hBpos : 0 < B := lt_of_lt_of_le (by positivity) hlowB
  have herrA := nearest_error hlowA
  have herrB := nearest_error hlowB
  rw [← h] at herrB
  have htri : |A - B| ≤ |nearest A - A| + |nearest A - B| := by
    rw [abs_sub_comm (nearest A) A]
    exact abs_sub_le A (nearest A) B
  have hsum : B ≤ A + |A - B| := by
    have := neg_abs_le (A - B)
    linarith
  have hclose : |A - B| < g := by
    have : (2 ^ 53 + 1) * |A - B| ≤ A + B := by linarith
    have : 2 ^ 53 * |A - B| ≤ 2 * (10 ^ 15 * g) := by linarith
    norm_num at this
    linarith
  have hab : |(a : ℤ) - b| < 1 := by
    rw [hA, hB, ← sub_mul, abs_mul, abs_of_pos hg] at hclose
    have : |(a : ℚ) - b| < 1 := by
      by_contra hge
      push Not at hge
      nlinarith
    exact_mod_cast this
  have heq : (a : ℤ) = b := by rw [Int.abs_lt_one_iff] at hab; omega
  rw [hA, hB, show a = b by exact_mod_cast heq]

namespace Decimal

/-- The number that a decimal is. -/
def toRat (d : Decimal) : ℚ := d.digits * 10 ^ d.exponent

theorem readsAs_iff {d : Decimal} {units : ℕ} (he : -400 ≤ d.exponent) (h : d.toRat ≤ 2 ^ 200) :
    d.readsAs units = true ↔ nearest d.toRat = units / unitsPerOne := by
  obtain ⟨u, _, hu, hv⟩ := Binary64.ofDecimal_hasValue he h
  have hne := unitsPerOne_cast_pos.ne'
  unfold toRat readsAs
  rw [hu, hv, div_left_inj' hne, Nat.cast_inj]
  exact decide_eq_true_iff

/-! ### Where the search begins -/

theorem leadingPower_spec {units : ℕ} (h : unitsPerOne ≤ units * 10 ^ 400) :
    (10 : ℚ) ^ leadingPower units ≤ units / unitsPerOne ∧
      (units / unitsPerOne : ℚ) < 10 ^ (leadingPower units + 1) := by
  have hU := unitsPerOne_cast_pos
  have hU' := unitsPerOne_pos
  unfold leadingPower
  rw [Nat.pow_eq]
  generalize hN : units * 10 ^ 400 / unitsPerOne = N
  have hN1 : 1 ≤ N := by rw [← hN]; exact (Nat.le_div_iff_mul_le hU').mpr (by rwa [Nat.one_mul])
  have hlow : N * unitsPerOne ≤ units * 10 ^ 400 := by rw [← hN]; exact Nat.div_mul_le_self _ _
  have hhigh : units * 10 ^ 400 < (N + 1) * unitsPerOne := by
    rw [← hN, Nat.add_mul, Nat.one_mul]
    exact Nat.lt_div_mul_add hU'
  have hlen := Numeral.length_digits_pos N
  have hlt : N < 10 ^ (Numeral.digits N).length := (Numeral.length_digits_le_iff hlen).mp le_rfl
  have hge : 10 ^ ((Numeral.digits N).length - 1) ≤ N := by
    rcases Nat.eq_zero_or_pos ((Numeral.digits N).length - 1) with h0 | h0
    · rw [h0]; exact hN1
    · by_contra hcon
      have := (Numeral.length_digits_le_iff h0).mpr (not_le.mp hcon)
      omega
  obtain ⟨l, hl⟩ : ∃ l, (Numeral.digits N).length = l + 1 := ⟨_, (Nat.sub_add_cancel hlen).symm⟩
  rw [hl] at hlt hge ⊢
  rw [Nat.add_sub_cancel] at hge
  have hpow : ∀ i : ℤ, (10 : ℚ) ^ (i - 400) = 10 ^ i / 10 ^ 400 := by
    intro i
    rw [zpow_sub₀ (by norm_num)]
    rfl
  have hexp : ((l + 1 : ℕ) : ℤ) - 401 = (l : ℤ) - 400 := by push_cast; ring
  have hexp' : (l : ℤ) - 400 + 1 = ((l + 1 : ℕ) : ℤ) - 400 := by push_cast; ring
  have hten : (0 : ℚ) < 10 ^ 400 := by positivity
  rw [hexp, hexp', hpow, hpow, zpow_natCast, zpow_natCast, div_le_div_iff₀ hten hU,
    div_lt_div_iff₀ hU hten]
  constructor
  · exact_mod_cast le_trans (Nat.mul_le_mul_right _ hge) hlow
  · exact_mod_cast lt_of_lt_of_le hhigh (Nat.mul_le_mul_right _ hlt)

/-! ### One grid -/

theorem gridRatio_spec (units : ℕ) (power : ℤ) :
    0 < (gridRatio units power).2 ∧
      ((gridRatio units power).1 / (gridRatio units power).2 : ℚ) =
        units / unitsPerOne / 10 ^ power := by
  have hU := unitsPerOne_pos
  unfold gridRatio
  split_ifs with h
  · obtain ⟨k, rfl⟩ := Int.eq_ofNat_of_zero_le h
    refine ⟨Nat.mul_pos hU (Nat.pow_pos (by norm_num)), ?_⟩
    rw [Int.toNat_natCast, zpow_natCast, Nat.pow_eq, div_div]
    push_cast
    rfl
  · obtain ⟨k, hk⟩ := Int.eq_ofNat_of_zero_le (show 0 ≤ -power by omega)
    refine ⟨hU, ?_⟩
    rw [hk, Int.toNat_natCast, Nat.pow_eq, show power = -(k : ℤ) by omega, zpow_neg, zpow_natCast,
      div_inv_eq_mul, div_mul_eq_mul_div]
    push_cast
    rfl

/-- What is found on a grid lies on it, is read back, and is at most one step greater. -/
theorem onGrid?_eq_some {units : ℕ} {power : ℤ} {d : Decimal} (h : onGrid? units power = some d) :
    d.exponent = power ∧ d.readsAs units = true ∧
      d.toRat ≤ units / unitsPerOne + 10 ^ power := by
  have hpos : (0 : ℚ) < 10 ^ power := by positivity
  have hquot : ((gridRatio units power).1 / (gridRatio units power).2 : ℕ) * (10 : ℚ) ^ power ≤
      units / unitsPerOne := by
    rw [← le_div_iff₀ hpos, ← (gridRatio_spec units power).2]
    exact Nat.cast_div_le
  have hnext : (((gridRatio units power).1 / (gridRatio units power).2 + 1 : ℕ) : ℚ) *
      10 ^ power ≤ units / unitsPerOne + 10 ^ power := by
    push_cast
    rw [add_mul, one_mul]
    exact add_le_add_left hquot _
  unfold onGrid? at h
  have hle := le_roundHalfEven (gridRatio units power).1 (gridRatio units power).2
  have hge := roundHalfEven_le (gridRatio units power).1 (gridRatio units power).2
  dsimp only at h
  split at h
  · next hb ha =>
    injection h with h
    subst h
    refine ⟨rfl, ?_⟩
    rcases Nat.eq_or_lt_of_le hle with heq | hlt
    · rw [← heq]; exact ⟨hb, le_trans hquot (le_add_of_nonneg_right hpos.le)⟩
    · rw [Nat.le_antisymm hge hlt]; exact ⟨ha, hnext⟩
  · next hb _ =>
    injection h with h
    subst h
    exact ⟨rfl, hb, le_trans hquot (le_add_of_nonneg_right hpos.le)⟩
  · next _ ha =>
    injection h with h
    subst h
    exact ⟨rfl, ha, hnext⟩
  · contradiction

/-- Something is found if a decimal of the grid less than one step away is read back. -/
theorem onGrid?_isSome {units n : ℕ} {power : ℤ} (hr : readsAs ⟨n, power⟩ units = true)
    (hn : |units / unitsPerOne / 10 ^ power - (n : ℚ)| < 1) : (onGrid? units power).isSome := by
  obtain ⟨hden, hratio⟩ := gridRatio_spec units power
  rw [← hratio, abs_lt] at hn
  have hden' : (0 : ℚ) < (gridRatio units power).2 := by exact_mod_cast hden
  have hfloor := Nat.div_mul_le_self (gridRatio units power).1 (gridRatio units power).2
  have hfloor' := Nat.lt_div_mul_add (a := (gridRatio units power).1) hden
  have hlow : ((gridRatio units power).1 / (gridRatio units power).2 : ℕ) ≤
      ((gridRatio units power).1 / (gridRatio units power).2 : ℚ) := Nat.cast_div_le
  have hhigh : ((gridRatio units power).1 / (gridRatio units power).2 : ℚ) <
      ((gridRatio units power).1 / (gridRatio units power).2 : ℕ) + 1 := by
    rw [div_lt_iff₀ hden', add_mul, one_mul]
    exact_mod_cast hfloor'
  have hcase : n = (gridRatio units power).1 / (gridRatio units power).2 ∨
      n = (gridRatio units power).1 / (gridRatio units power).2 + 1 := by
    generalize (gridRatio units power).1 / (gridRatio units power).2 = k at hlow hhigh
    have h1 : (k : ℚ) < n + 1 := by linarith [hn.2]
    have h2 : (n : ℚ) < k + 2 := by linarith [hn.1]
    have h1' : k < n + 1 := by exact_mod_cast h1
    have h2' : n < k + 2 := by exact_mod_cast h2
    omega
  unfold onGrid?
  dsimp only
  rcases hcase with rfl | rfl
  · rw [hr]; split <;> simp_all
  · rw [hr]; split <;> simp_all

/-! ### The search -/

/-- The first hit of a search over a range comes no later than any hit. -/
theorem findSome?_range {α : Type} {f : ℕ → Option α} {n j : ℕ} (hj : j < n)
    (h : (f j).isSome) : ∃ i ≤ j, ∃ b, f i = some b ∧ (List.range n).findSome? f = some b := by
  cases hb : (List.range n).findSome? f with
  | none =>
    have := List.findSome?_eq_none_iff.mp hb j (List.mem_range.mpr hj)
    rw [this] at h
    contradiction
  | some b =>
    obtain ⟨before, i, after, hsplit, hi, hnone⟩ := List.findSome?_eq_some_iff.mp hb
    refine ⟨i, ?_, b, hi, rfl⟩
    have hsorted := List.pairwise_lt_range (n := n)
    rw [hsplit, List.pairwise_append, List.pairwise_cons] at hsorted
    have hmem : j ∈ before ++ i :: after := by rw [← hsplit]; exact List.mem_range.mpr hj
    rcases List.mem_append.mp hmem with hmem | hmem
    · rw [hnone j hmem] at h; contradiction
    · rcases List.mem_cons.mp hmem with rfl | hmem
      · exact le_rfl
      · exact (hsorted.2.1.1 j hmem).le

theorem trimZeros_mul_pow {digits : ℕ} (h : digits % 10 ≠ 0) (e : ℤ) :
    ∀ fuel i : ℕ, i ≤ fuel → trimZeros fuel ⟨digits * 10 ^ i, e⟩ = ⟨digits, e + i⟩
  | 0, i, hi => by
    obtain rfl : i = 0 := by omega
    simp [trimZeros]
  | fuel + 1, 0, _ => by
    unfold trimZeros
    rw [if_neg (by simp [h])]
    simp
  | fuel + 1, i + 1, hi => by
    have hpos : digits * 10 ^ i * 10 ≠ 0 := by
      have : digits ≠ 0 := by rintro rfl; exact h rfl
      positivity
    unfold trimZeros
    dsimp only
    rw [pow_succ, ← mul_assoc, if_pos ⟨hpos, Nat.mul_mod_left _ _⟩,
      Nat.mul_div_cancel _ (by norm_num), trimZeros_mul_pow h _ fuel i (by omega)]
    congr 1
    push_cast
    ring

/-- A decimal whose digits do not end in zero is trimmed to from any spelling of its number. -/
theorem trimZeros_of_toRat_eq {d e : Decimal} {fuel : ℕ} (hd : d.digits % 10 ≠ 0)
    (hfuel : d.exponent - e.exponent ≤ fuel) (h : e.toRat = d.toRat) : e.trimZeros fuel = d := by
  obtain ⟨n, p⟩ := e
  obtain ⟨m, q⟩ := d
  unfold toRat at h
  dsimp only at hd hfuel h
  rcases le_or_gt p q with hpq | hpq
  · obtain ⟨i, hi⟩ := Int.eq_ofNat_of_zero_le (show 0 ≤ q - p by omega)
    have hn : n = m * 10 ^ i := by
      have hq : q = i + p := by omega
      rw [hq, zpow_add₀ (by norm_num), ← mul_assoc, zpow_natCast,
        mul_left_inj' (by positivity)] at h
      exact_mod_cast h
    rw [hn, trimZeros_mul_pow hd p fuel i (by omega)]
    congr 1
    omega
  · -- a coarser grid would make the digits end in zero
    exfalso
    obtain ⟨i, hi⟩ := Int.eq_ofNat_of_zero_le (show 0 ≤ p - q - 1 by omega)
    have hp : p = (i + 1 : ℕ) + q := by push_cast; omega
    rw [hp, zpow_add₀ (by norm_num), ← mul_assoc, zpow_natCast, mul_left_inj' (by positivity)] at h
    have hm : m = n * 10 ^ i * 10 := by rw [Nat.mul_assoc, ← pow_succ]; exact_mod_cast h.symm
    rw [hm, Nat.mul_mod_left] at hd
    exact hd rfl

/-- The number read from a decimal is close to it. -/
theorem abs_nearest_sub_le {q : ℚ} (h : 1 / 2 ^ 200 ≤ q) : |nearest q - q| ≤ q / 2 ^ 53 := by
  have herr := nearest_error h
  have hnn := abs_nonneg (nearest q - q)
  rw [le_div_iff₀ (by positivity)]
  linarith

/-- The number of `units` is the one that `digits * 10^-places` is read to, a decimal of at most
fifteen digits that does not end in zero. -/
structure ReadFrom (digits places units : ℕ) : Prop where
  places_le : places ≤ 30
  few : digits < 10 ^ 15
  last : digits % 10 ≠ 0
  units_eq : (units / unitsPerOne : ℚ) = nearest (digits * 10 ^ (-places : ℤ))

namespace ReadFrom

variable {digits places units : ℕ} (h : ReadFrom digits places units)
include h

theorem step_le : (10 : ℚ) ^ (-places : ℤ) ≤ digits * 10 ^ (-places : ℤ) := by
  have hdigits : 1 ≤ digits := by
    by_contra h0
    have := h.last
    rw [show digits = 0 by omega] at this
    exact this rfl
  exact le_mul_of_one_le_left (by positivity) (by exact_mod_cast hdigits)

theorem lt_step : (digits * 10 ^ (-places : ℤ) : ℚ) < 10 ^ 15 * 10 ^ (-places : ℤ) :=
  mul_lt_mul_of_pos_right (by exact_mod_cast h.few) (by positivity)

theorem le_toRat : (1 : ℚ) / 10 ^ 30 ≤ digits * 10 ^ (-places : ℤ) := by
  refine le_trans ?_ h.step_le
  rw [zpow_neg, zpow_natCast, ← one_div]
  exact one_div_le_one_div_of_le (by positivity) (pow_le_pow_right₀ (by norm_num) h.places_le)

/-- The decimal is far above the least positive number of binary64. -/
theorem tiny_le_toRat : (1 : ℚ) / 2 ^ 200 ≤ digits * 10 ^ (-places : ℤ) :=
  le_trans (by norm_num) h.le_toRat

theorem toRat_le : (digits * 10 ^ (-places : ℤ) : ℚ) ≤ 10 ^ 15 := by
  have hone : (10 : ℚ) ^ (-places : ℤ) ≤ 1 := zpow_le_one_of_nonpos₀ (by norm_num) (by omega)
  linarith [h.lt_step]

theorem abs_sub_le : |(units / unitsPerOne : ℚ) - digits * 10 ^ (-places : ℤ)| ≤
    digits * 10 ^ (-places : ℤ) / 2 ^ 53 := by
  rw [h.units_eq]
  exact abs_nearest_sub_le h.tiny_le_toRat

/-- The number and the decimal are less than a factor of two apart. -/
theorem le_two_mul : (units / unitsPerOne : ℚ) ≤ 2 * (digits * 10 ^ (-places : ℤ)) ∧
    (digits * 10 ^ (-places : ℤ) : ℚ) ≤ 2 * (units / unitsPerOne) := by
  have herr := h.abs_sub_le
  have hpos := lt_of_lt_of_le (by positivity) h.le_toRat
  rw [abs_le] at herr
  constructor <;> linarith [herr.1, herr.2]

theorem units_pos : (0 : ℚ) < units / unitsPerOne := by
  have hpos := lt_of_lt_of_le (by positivity) h.le_toRat
  linarith [h.le_two_mul.2]

theorem leadingPower_bounds : (10 : ℚ) ^ leadingPower units ≤ units / unitsPerOne ∧
    (units / unitsPerOne : ℚ) < 10 ^ (leadingPower units + 1) := by
  apply leadingPower_spec
  have hlow : (1 : ℚ) / 10 ^ 31 ≤ units / unitsPerOne := by
    have : (1 : ℚ) / 10 ^ 31 * 2 ≤ 1 / 10 ^ 30 := by norm_num
    linarith [h.le_two_mul.2, h.le_toRat]
  rw [div_le_div_iff₀ (by positivity) unitsPerOne_cast_pos, one_mul] at hlow
  have hnat : unitsPerOne ≤ units * 10 ^ 31 := by exact_mod_cast hlow
  exact le_trans hnat (Nat.mul_le_mul_left _ (Nat.pow_le_pow_right (by norm_num) (by norm_num)))

theorem leadingPower_le : leadingPower units ≤ 15 - places := by
  by_contra hcon
  have hpow : (10 : ℚ) ^ (16 + -places : ℤ) ≤ 10 ^ leadingPower units :=
    zpow_le_zpow_right₀ (by norm_num) (by omega)
  rw [zpow_add₀ (by norm_num)] at hpow
  have hten : (10 : ℚ) ^ (16 : ℤ) = 10 ^ 16 := by norm_num
  have hpos : (0 : ℚ) < 10 ^ (-places : ℤ) := by positivity
  rw [hten] at hpow
  linarith [h.leadingPower_bounds.1, h.le_two_mul.1, h.lt_step]

theorem le_leadingPower : -(places : ℤ) + -1 ≤ leadingPower units := by
  by_contra hcon
  have hpow : (10 : ℚ) ^ (leadingPower units + 1) ≤ 10 ^ (-(places : ℤ) + -1) :=
    zpow_le_zpow_right₀ (by norm_num) (by omega)
  have hpos : (0 : ℚ) < 10 ^ (-(places : ℤ)) := by positivity
  rw [zpow_add₀ (a := (10 : ℚ)) (by norm_num) (-(places : ℤ)), zpow_neg_one] at hpow
  linarith [h.leadingPower_bounds.2, h.le_two_mul.2, h.step_le]

/-- The search reaches a grid on which the decimal lies, not too fine for fifteen digits. A power
of ten may be read to a number below itself: then its own grid is passed over, and it lies on the
next one, the first of the search. -/
theorem exists_grid : ∃ (m : ℤ) (j n : ℕ), leadingPower units - j = m ∧ m ≤ -places ∧
    -(places : ℤ) ≤ m + 1 ∧ j < 17 ∧ (digits * 10 ^ (-places : ℤ) : ℚ) = n * 10 ^ m ∧
      (digits * 10 ^ (-places : ℤ) : ℚ) ≤ 10 ^ 15 * 10 ^ m := by
  have hmax := h.leadingPower_le
  have hmin := h.le_leadingPower
  rcases le_or_gt (-(places : ℤ)) (leadingPower units) with hle | hlt
  · obtain ⟨j, hj⟩ := Int.eq_ofNat_of_zero_le (show 0 ≤ leadingPower units + places by omega)
    exact ⟨-places, j, digits, by omega, le_rfl, by omega, by omega, rfl, h.lt_step.le⟩
  · have hpow : leadingPower units = -(places : ℤ) + -1 := by omega
    have hstep : (10 : ℚ) ^ (-(places : ℤ)) = 10 * 10 ^ leadingPower units := by
      rw [hpow, zpow_add₀ (by norm_num), zpow_neg_one]
      ring
    have hbound := h.leadingPower_bounds.2
    rw [zpow_add₀ (by norm_num), zpow_one] at hbound
    have hpos : (0 : ℚ) < 10 ^ leadingPower units := by positivity
    refine ⟨leadingPower units, 0, digits * 10, by omega, by omega, by omega, by omega, ?_, ?_⟩
    · rw [hstep]
      push_cast
      ring
    · linarith [h.le_two_mul.2]

/-- What the search finds on that grid or on a coarser one is the decimal. -/
theorem toRat_eq_of_onGrid {e : Decimal} {i j n : ℕ} {m : ℤ}
    (he : onGrid? units (leadingPower units - i) = some e) (hmlow : -31 ≤ m)
    (hm : leadingPower units - j = m) (hi : i ≤ j)
    (hn : (digits * 10 ^ (-places : ℤ) : ℚ) = n * 10 ^ m)
    (hgrid : (digits * 10 ^ (-places : ℤ) : ℚ) ≤ 10 ^ 15 * 10 ^ m) :
    e.toRat = toRat ⟨digits, -places⟩ := by
  obtain ⟨hexp, hreads, hhigh⟩ := onGrid?_eq_some he
  have hpos : (0 : ℚ) < 10 ^ m := by positivity
  have hmpow : (1 : ℚ) / 10 ^ 31 ≤ 10 ^ m := by
    calc (1 : ℚ) / 10 ^ 31 = 10 ^ (-31 : ℤ) := by norm_num
      _ ≤ 10 ^ m := zpow_le_zpow_right₀ (by norm_num) hmlow
  have hb : e.toRat = (e.digits * 10 ^ (j - i) : ℕ) * 10 ^ m := by
    unfold toRat
    rw [show e.exponent = ((j - i : ℕ) : ℤ) + m by omega, zpow_add₀ (by norm_num), zpow_natCast]
    push_cast
    ring
  have hebound : e.toRat ≤ 2 ^ 200 := by
    have hstep : (10 : ℚ) ^ (leadingPower units - i) ≤ 10 ^ leadingPower units :=
      zpow_le_zpow_right₀ (by norm_num) (by omega)
    have : (4 : ℚ) * 10 ^ 15 ≤ 2 ^ 200 := by norm_num
    linarith [h.leadingPower_bounds.1, h.le_two_mul.1, h.toRat_le]
  rw [readsAs_iff (by omega) hebound, h.units_eq] at hreads
  have helow : 1 / 2 ^ 200 ≤ e.toRat := by
    have hne : e.digits * 10 ^ (j - i) ≠ 0 := by
      intro h0
      have hzero : nearest e.toRat = 0 := by
        rw [hb, h0, Nat.cast_zero, zero_mul]
        exact_mod_cast nearest_natCast (n := 0) (by norm_num)
      have hpos := h.units_pos
      rw [h.units_eq, ← hreads, hzero] at hpos
      exact lt_irrefl _ hpos
    have hone : (1 : ℚ) ≤ (e.digits * 10 ^ (j - i) : ℕ) := by
      exact_mod_cast Nat.one_le_iff_ne_zero.mpr hne
    calc (1 : ℚ) / 2 ^ 200 ≤ 1 / 10 ^ 31 := by norm_num
      _ ≤ 10 ^ m := hmpow
      _ ≤ e.toRat := by rw [hb]; exact le_mul_of_one_le_left hpos.le hone
  exact (toRat_eq_of_nearest_eq hn hb hpos h.tiny_le_toRat helow hgrid hreads.symm).symm

/-- Something is found on that grid: the decimal itself is read back. -/
theorem isSome_of_grid {n : ℕ} {m : ℤ} (hm : -400 ≤ m)
    (hn : (digits * 10 ^ (-places : ℤ) : ℚ) = n * 10 ^ m)
    (hgrid : (digits * 10 ^ (-places : ℤ) : ℚ) ≤ 10 ^ 15 * 10 ^ m) :
    (onGrid? units m).isSome := by
  have hpos : (0 : ℚ) < 10 ^ m := by positivity
  have hrat : toRat ⟨n, m⟩ = digits * 10 ^ (-places : ℤ) := hn.symm
  refine onGrid?_isSome (n := n) ?_ ?_
  · have hhigh : toRat ⟨n, m⟩ ≤ 2 ^ 200 := by
      rw [hrat]
      exact le_trans h.toRat_le (by norm_num)
    rw [readsAs_iff hm hhigh, hrat, h.units_eq]
  · have hdiv : (units / unitsPerOne / 10 ^ m - n : ℚ) =
        (units / unitsPerOne - digits * 10 ^ (-places : ℤ)) / 10 ^ m := by
      rw [hn, sub_div, mul_div_assoc, div_self hpos.ne', mul_one]
    rw [hdiv, abs_div, abs_of_pos hpos, div_lt_one hpos]
    have hfew : (10 : ℚ) ^ 15 / 2 ^ 53 < 1 := by norm_num
    calc _ ≤ (digits * 10 ^ (-places : ℤ) / 2 ^ 53 : ℚ) := h.abs_sub_le
      _ ≤ 10 ^ 15 * 10 ^ m / 2 ^ 53 := by gcongr
      _ = 10 ^ 15 / 2 ^ 53 * 10 ^ m := by ring
      _ < 10 ^ m := mul_lt_of_lt_one_left hpos hfew

/-- **The shortest decimal** of a number read from a decimal of at most fifteen digits is that
decimal. -/
theorem shortest_eq : shortest units = ⟨digits, -places⟩ := by
  obtain ⟨m, j, n, hm, hmle, hmge, hj, hn, hgrid⟩ := h.exists_grid
  have hplaces := h.places_le
  have hfound : (onGrid? units (leadingPower units - j)).isSome := by
    rw [hm]
    exact h.isSome_of_grid (by omega) hn hgrid
  obtain ⟨i, hi, e, he, hsearch⟩ :=
    findSome?_range (f := fun k : ℕ => onGrid? units (leadingPower units - k)) hj hfound
  have hexp := (onGrid?_eq_some he).1
  have hsame := h.toRat_eq_of_onGrid he (by omega) hm hi hn hgrid
  have hne : units ≠ 0 := by
    rintro rfl
    have hpos := h.units_pos
    rw [Nat.cast_zero, zero_div] at hpos
    exact lt_irrefl _ hpos
  unfold shortest
  rw [if_neg hne]
  dsimp only
  rw [hsearch]
  exact trimZeros_of_toRat_eq h.last (by dsimp only; omega) hsame

/-- A number read from a decimal with a fraction is not whole. -/
theorem ne_natCast (hpos : 0 < places) (n : ℕ) : (units / unitsPerOne : ℚ) ≠ n := by
  intro hv
  have hn : (1 : ℚ) ≤ n := by
    have hpos := h.units_pos
    rw [hv] at hpos
    exact_mod_cast hpos
  have hsmall : n ≤ 2 ^ 53 := by
    have h1 : (n : ℚ) ≤ 2 * 10 ^ 15 := by
      rw [← hv]
      linarith [h.le_two_mul.1, h.toRat_le]
    have h2 : n ≤ 2 * 10 ^ 15 := by exact_mod_cast h1
    omega
  have hgrid : (n : ℚ) = (n * 10 ^ places : ℕ) * 10 ^ (-places : ℤ) := by
    rw [zpow_neg, zpow_natCast]
    push_cast
    rw [mul_assoc, mul_inv_cancel₀ (by positivity), mul_one]
  have heq := toRat_eq_of_nearest_eq rfl hgrid (by positivity) h.tiny_le_toRat
    (le_trans (by norm_num) hn) h.lt_step.le (by rw [← h.units_eq, hv, nearest_natCast hsmall])
  rw [hgrid, mul_left_inj' (by positivity)] at heq
  have hdigits : digits = n * 10 ^ places := by exact_mod_cast heq
  obtain ⟨k, rfl⟩ : ∃ k, places = k + 1 := ⟨places - 1, by omega⟩
  have hlast := h.last
  rw [hdigits, pow_succ, ← mul_assoc, Nat.mul_mod_left] at hlast
  exact hlast rfl

end ReadFrom

/-- What a decimal of at most fifteen digits is read to. -/
theorem ofDecimal_eq_finite {digits places : ℕ} (hplaces : places ≤ 30) (hfew : digits < 10 ^ 15) :
    ∃ units fits, Binary64.ofDecimal false digits (-places) = .finite false units fits ∧
      (units / unitsPerOne : ℚ) = nearest (digits * 10 ^ (-places : ℤ)) := by
  have hle : (digits * 10 ^ (-places : ℤ) : ℚ) ≤ 2 ^ 200 := by
    have h1 : (10 : ℚ) ^ (-places : ℤ) ≤ 1 := zpow_le_one_of_nonpos₀ (by norm_num) (by omega)
    have h2 : (digits : ℚ) ≤ 10 ^ 15 := by exact_mod_cast hfew.le
    calc (digits * 10 ^ (-places : ℤ) : ℚ) ≤ 10 ^ 15 * 1 := by gcongr
      _ ≤ 2 ^ 200 := by norm_num
  obtain ⟨units, fits, hx, hv⟩ := Binary64.ofDecimal_hasValue (by omega) hle
  exact ⟨units, fits, hx, hv.symm⟩

/-! ### Written again -/

theorem toInt?_ofDecimal_natCast {n : ℕ} (hfew : n < 10 ^ 15) :
    (Binary64.ofDecimal false n 0).toInt? = some (n : ℤ) := by
  obtain ⟨units, fits, hx, hv⟩ := ofDecimal_eq_finite (show 0 ≤ 30 by omega) hfew
  rw [Nat.cast_zero, neg_zero, zpow_zero, mul_one, nearest_natCast (by omega)] at hv
  rw [Nat.cast_zero, neg_zero] at hx
  rw [hx]
  exact Binary64.HasValue.toInt?_natCast ⟨units, fits, rfl, hv.symm⟩

theorem plain_ofDecimal_natCast {n : ℕ} (hfew : n < 10 ^ 15) :
    (Binary64.ofDecimal false n 0).plain = Numeral.digits n := by
  have hint := toInt?_ofDecimal_natCast hfew
  obtain ⟨units, fits, hx, -⟩ := ofDecimal_eq_finite (show 0 ≤ 30 by omega) hfew
  rw [Nat.cast_zero, neg_zero] at hx
  rw [hx] at hint ⊢
  unfold Binary64.plain
  dsimp only
  rw [hint]
  dsimp only
  exact Numeral.chars_natCast n

/-- **A decimal of at most fifteen digits is written again.** -/
theorem plain_ofDecimal {digits places : ℕ} (hpos : 0 < places) (hplaces : places ≤ 30)
    (hfew : digits < 10 ^ 15) (hlast : digits % 10 ≠ 0) :
    (Binary64.ofDecimal false digits (-places)).plain = positional ⟨digits, -places⟩ := by
  obtain ⟨units, fits, hx, hv⟩ := ofDecimal_eq_finite hplaces hfew
  have hread : ReadFrom digits places units := ⟨hplaces, hfew, hlast, hv⟩
  have hint : (Binary64.finite false units fits).toInt? = none :=
    Binary64.HasValue.toInt?_eq_none ⟨units, fits, rfl, rfl⟩ (hread.ne_natCast hpos)
  rw [hx]
  unfold Binary64.plain
  dsimp only
  rw [hint]
  dsimp only
  rw [hread.shortest_eq]
  rfl

theorem pointed_eq_positional {places digits : ℕ} (hpos : 0 < places) :
    Binary64.pointed false places (Numeral.digits digits) = positional ⟨digits, -places⟩ := by
  have hlen := Numeral.length_digits_pos digits
  unfold Binary64.pointed positional
  dsimp only
  rw [if_neg (show ¬places = 0 by omega), if_neg (show ¬(0 : ℤ) ≤ -places by omega), neg_neg,
    Int.toNat_natCast]
  generalize Numeral.digits digits = ds at hlen ⊢
  split_ifs with hlt
  · rw [show places + 1 - ds.length = 0 by omega]
    rfl
  · obtain ⟨k, hk⟩ : ∃ k, places + 1 - ds.length = k + 1 := ⟨places - ds.length, by omega⟩
    have hk' : places - ds.length = k := by omega
    have hone : (List.replicate (k + 1) '0' ++ ds).length - places = 1 := by
      rw [List.length_append, List.length_replicate]
      omega
    rw [hk, hone, hk']
    rfl

/-- A decimal with one place is also written again at one fixed place. -/
theorem fixed_one_ofDecimal {digits : ℕ} (hfew : digits < 10 ^ 15) (hlast : digits % 10 ≠ 0) :
    (Binary64.ofDecimal false digits (-1)).toInt? = none ∧
      (Binary64.ofDecimal false digits (-1)).fixed 1 = positional ⟨digits, -1⟩ := by
  obtain ⟨units, fits, hx, hv⟩ := ofDecimal_eq_finite (show 1 ≤ 30 by omega) hfew
  have hread : ReadFrom digits 1 units := ⟨by omega, hfew, hlast, hv⟩
  have hround : roundHalfEven (units * Nat.pow 10 1) unitsPerOne = digits := by
    have hd : (digits : ℚ) < 10 ^ 15 := by exact_mod_cast hfew
    have herr := hread.abs_sub_le
    refine roundHalfEven_eq unitsPerOne_pos ?_
    have hscale : ((units * Nat.pow 10 1 : ℕ) / unitsPerOne - digits : ℚ) =
        10 * (units / unitsPerOne - digits * 10 ^ (-(1 : ℕ) : ℤ)) := by
      rw [Nat.pow_eq]
      push_cast
      norm_num
      ring
    rw [hscale, abs_mul, abs_of_pos (by norm_num)]
    norm_num at herr ⊢
    linarith
  rw [Nat.cast_one] at hx
  rw [hx]
  refine ⟨Binary64.HasValue.toInt?_eq_none ⟨units, fits, rfl, rfl⟩ (hread.ne_natCast one_pos), ?_⟩
  change Binary64.signChars false ++ Binary64.pointed false 1
    (Numeral.digits (roundHalfEven (units * Nat.pow 10 1) unitsPerOne)) = _
  rw [hround, pointed_eq_positional one_pos]
  rfl

end Decimal

end IiifRules.Numeric
