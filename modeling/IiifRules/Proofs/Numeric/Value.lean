import IiifRules.Proofs.Numeric.Rounding

/-! # The values of binary64 numbers

`x.HasValue q` says that `x` is the finite number `q` and carries no minus sign. An operation on
numbers with a value gives a number with a value, namely the exact result rounded once, as long as
the exact result is at most a power of two that is in range.

* `ofRatio_hasValue`, `ofDecimal_hasValue`: numbers that are read.
* `HasValue.add`, `HasValue.mul`, `HasValue.div`, `HasValue.min`: arithmetic.
* `HasValue.floor`, `HasValue.ceil`, `HasValue.lt`: what is read off a number. -/

namespace IiifRules.Numeric

namespace Binary64

/-- **The number is `q`**, without a minus sign. -/
def HasValue (x : Binary64) (q : ℚ) : Prop :=
  ∃ units fits, x = .finite false units fits ∧ q = units / unitsPerOne

variable {x y : Binary64} {p q : ℚ} {k : ℕ}

theorem HasValue.nonneg (h : x.HasValue q) : 0 ≤ q := by
  obtain ⟨units, -, -, rfl⟩ := h
  positivity

theorem HasValue.inRange (h : x.HasValue q) (failure : Failure) : x.inRange failure = .ok x := by
  obtain ⟨u, _, rfl, -⟩ := h
  rfl

/-! ### Numbers that are read -/

theorem ofRatio_hasValue {num den : ℕ} (hden : 0 < den) (h : (num / den : ℚ) ≤ 2 ^ k)
    (hk : k ≤ 1023) : (ofRatio false num den).HasValue (nearest (num / den)) := by
  have hle := nearest_le_of_le (by positivity) h (isBinary64_two_pow k)
  rw [nearest_natDiv num hden] at hle ⊢
  rw [div_le_iff₀ unitsPerOne_cast_pos] at hle
  have hlt : roundSignificant (num * unitsPerOne) den < unitsBound :=
    lt_unitsBound (by exact_mod_cast hle) hk
  refine ⟨_, ⟨hlt, roundSignificant_eq _ _⟩, ?_, rfl⟩
  unfold ofRatio
  exact dif_pos hlt

theorem ofInt_natCast (m : ℕ) : ofInt m = ofRatio false m 1 := by
  have hs : decide ((m : ℤ) < 0) = false := by simp
  unfold ofInt
  rw [hs, Int.natAbs_natCast]

theorem ofInt_hasValue {n : ℤ} (h0 : 0 ≤ n) (h : (n : ℚ) ≤ 2 ^ k) (hk : k ≤ 1023) :
    (ofInt n).HasValue (nearest n) := by
  obtain ⟨m, rfl⟩ := Int.eq_ofNat_of_zero_le h0
  have hm : ((m : ℕ) / (1 : ℕ) : ℚ) = ((m : ℤ) : ℚ) := by simp
  rw [ofInt_natCast, ← hm]
  exact ofRatio_hasValue Nat.one_pos (by rw [hm]; exact h) hk

theorem ofInt_exact {n : ℤ} (h0 : 0 ≤ n) (h : n ≤ 2 ^ 53) : (ofInt n).HasValue n := by
  obtain ⟨m, rfl⟩ := Int.eq_ofNat_of_zero_le h0
  have hm : m ≤ 2 ^ 53 := by omega
  have hle : ((m : ℤ) : ℚ) ≤ 2 ^ 53 := by exact_mod_cast hm
  have := ofInt_hasValue h0 hle (by norm_num)
  rwa [Int.cast_natCast, nearest_natCast hm] at this

theorem one_hasValue : one.HasValue 1 := by
  have := ofInt_exact (n := 1) (by norm_num) (by norm_num)
  rwa [Int.cast_one] at this

theorem half_hasValue : half.HasValue (1 / 2) := by
  have hb := isBinary64_div_two_pow (n := 1) (k := 1) (by norm_num) (by norm_num)
  have h : half.HasValue (nearest ((1 : ℕ) / (2 : ℕ))) :=
    ofRatio_hasValue (k := 0) (by norm_num) (by norm_num) (by norm_num)
  norm_num at hb h ⊢
  rwa [nearest_eq_self hb] at h

/-- A decimal is read to the value nearest to it. -/
theorem ofDecimal_hasValue {digits : ℕ} {e : ℤ} (he : -400 ≤ e)
    (h : (digits * 10 ^ e : ℚ) ≤ 2 ^ 200) :
    (ofDecimal false digits e).HasValue (nearest (digits * 10 ^ e)) := by
  unfold ofDecimal
  split_ifs with h0 h1 h2 h2
  · have : (ofRatio false 0 1).HasValue (nearest ((0 : ℕ) / (1 : ℕ))) :=
      ofRatio_hasValue (k := 0) Nat.one_pos (by norm_num) (by norm_num)
    rw [h0]
    simpa using this
  · -- beyond `10^400` the decimal is far too great
    exfalso
    have h3 : (1 : ℚ) ≤ digits := by exact_mod_cast Nat.one_le_iff_ne_zero.mpr h0
    have h4 : (10 : ℚ) ^ (61 : ℤ) ≤ 10 ^ e := zpow_le_zpow_right₀ (by norm_num) (by omega)
    have h5 : (2 : ℚ) ^ 200 < 10 ^ (61 : ℤ) := by norm_num
    nlinarith
  · obtain ⟨k, rfl⟩ := Int.eq_ofNat_of_zero_le h1
    have hk : (digits * 10 ^ (k : ℤ) : ℚ) = (digits * 10 ^ k : ℕ) / (1 : ℕ) := by
      push_cast; simp
    rw [hk] at h ⊢
    exact ofRatio_hasValue Nat.one_pos h (by norm_num)
  · omega
  · obtain ⟨k, hk⟩ := Int.eq_ofNat_of_zero_le (show 0 ≤ -e by omega)
    have hd : (digits * 10 ^ e : ℚ) = digits / (10 ^ k : ℕ) := by
      rw [show e = -(k : ℤ) by omega, zpow_neg, zpow_natCast, div_eq_mul_inv]
      push_cast
      rfl
    rw [hk]
    rw [hd] at h ⊢
    exact ofRatio_hasValue (Nat.pow_pos (by norm_num)) h (by norm_num)

/-! ### Arithmetic -/

/-- A quotient is rounded to the value nearest to it unless that is out of range. -/
theorem ofRatio_hasValue_or (num : ℕ) {den : ℕ} (hden : 0 < den) :
    (ofRatio false num den).HasValue (nearest (num / den)) ∨
      ofRatio false num den = .infinite false := by
  unfold ofRatio
  dsimp only
  split_ifs with h
  · left
    exact ⟨_, ⟨h, roundSignificant_eq _ _⟩, rfl, nearest_natDiv num hden⟩
  · right
    rfl

theorem ofRatio_hasValue_of_inRange {num den : ℕ} {failure : Failure} (hden : 0 < den)
    (h : (ofRatio false num den).inRange failure = .ok x) : x.HasValue (nearest (num / den)) := by
  rcases ofRatio_hasValue_or num hden with hv | hinf
  · rw [hv.inRange] at h
    cases h
    exact hv
  · rw [hinf] at h
    cases h

/-- A sum is the number nearest to one quotient. -/
theorem HasValue.exists_add_eq (hx : x.HasValue p) (hy : y.HasValue q) :
    ∃ num den : ℕ, 0 < den ∧ p + q = num / den ∧ x.add y = ofRatio false num den := by
  obtain ⟨u, _, rfl, rfl⟩ := hx
  obtain ⟨v, _, rfl, rfl⟩ := hy
  have hs : ∀ n : ℕ, (if (n : ℤ) = 0 then false && false else decide ((n : ℤ) < 0)) = false := by
    intro n; simp
  have hunits : signed false u + signed false v = ((u + v : ℕ) : ℤ) := by simp [signed]
  refine ⟨u + v, unitsPerOne, unitsPerOne_pos, by push_cast; ring, ?_⟩
  unfold Binary64.add ofSigned
  dsimp only
  rw [hunits, hs, Int.natAbs_natCast]

theorem HasValue.exists_mul_eq (hx : x.HasValue p) (hy : y.HasValue q) :
    ∃ num den : ℕ, 0 < den ∧ p * q = num / den ∧ x.mul y = ofRatio false num den := by
  obtain ⟨u, _, rfl, rfl⟩ := hx
  obtain ⟨v, _, rfl, rfl⟩ := hy
  refine ⟨u * v, unitsPerOne * unitsPerOne, Nat.mul_pos unitsPerOne_pos unitsPerOne_pos, ?_, rfl⟩
  push_cast
  rw [div_mul_div_comm]

theorem HasValue.exists_div_eq (hx : x.HasValue p) (hy : y.HasValue q) (hq : 0 < q) :
    ∃ num den : ℕ, 0 < den ∧ p / q = num / den ∧ x.div y = .ok (ofRatio false num den) := by
  obtain ⟨u, _, rfl, rfl⟩ := hx
  obtain ⟨v, _, rfl, rfl⟩ := hy
  have hu := unitsPerOne_cast_pos
  have hv : 0 < v := by
    rw [div_pos_iff_of_pos_right hu] at hq
    exact_mod_cast hq
  refine ⟨u, v, hv, div_div_div_cancel_right₀ hu.ne' _ _, ?_⟩
  unfold Binary64.div
  split
  · next h0 => injection h0 with _ h0; omega
  · next h1 h2 => injection h1; injection h2; subst_vars; rfl
  all_goals contradiction

/-- **A sum is rounded once.** -/
theorem HasValue.add (hx : x.HasValue p) (hy : y.HasValue q) (h : p + q ≤ 2 ^ k)
    (hk : k ≤ 1023) : (x.add y).HasValue (nearest (p + q)) := by
  obtain ⟨num, den, hden, hsum, heq⟩ := hx.exists_add_eq hy
  rw [hsum] at h
  rw [hsum, heq]
  exact ofRatio_hasValue hden h hk

/-- **A product is rounded once.** -/
theorem HasValue.mul (hx : x.HasValue p) (hy : y.HasValue q) (h : p * q ≤ 2 ^ k)
    (hk : k ≤ 1023) : (x.mul y).HasValue (nearest (p * q)) := by
  obtain ⟨num, den, hden, hprod, heq⟩ := hx.exists_mul_eq hy
  rw [hprod] at h
  rw [hprod, heq]
  exact ofRatio_hasValue hden h hk

/-- **A quotient is rounded once.** -/
theorem HasValue.div (hx : x.HasValue p) (hy : y.HasValue q) (hq : 0 < q) (h : p / q ≤ 2 ^ k)
    (hk : k ≤ 1023) : ∃ z, x.div y = .ok z ∧ z.HasValue (nearest (p / q)) := by
  obtain ⟨num, den, hden, hquot, heq⟩ := hx.exists_div_eq hy hq
  rw [hquot] at h ⊢
  exact ⟨_, heq, ofRatio_hasValue hden h hk⟩

theorem HasValue.lt (hx : x.HasValue p) (hy : y.HasValue q) : x.lt y = decide (p < q) := by
  obtain ⟨u, _, rfl, rfl⟩ := hx
  obtain ⟨v, _, rfl, rfl⟩ := hy
  have h : (u : ℚ) / unitsPerOne < v / unitsPerOne ↔ (u : ℤ) < v := by
    rw [div_lt_div_iff_of_pos_right unitsPerOne_cast_pos, Nat.cast_lt, Nat.cast_lt]
  rw [decide_eq_decide.mpr h]
  rfl

theorem HasValue.min (hx : x.HasValue p) (hy : y.HasValue q) : (x.min y).HasValue (p ⊓ q) := by
  unfold Binary64.min
  rw [hy.lt hx]
  by_cases h : q < p
  · rw [if_pos (by simpa using h), min_eq_right h.le]; exact hy
  · rw [if_neg (by simpa using h), min_eq_left (not_lt.mp h)]; exact hx

/-! ### Whole numbers -/

theorem HasValue.floor (h : x.HasValue q) : x.floor = .ok ⌊q⌋ := by
  obtain ⟨u, _, rfl, rfl⟩ := h
  have := Rat.floor_intCast_div_natCast u unitsPerOne
  rw [Int.cast_natCast] at this
  rw [this, ← Int.fdiv_eq_ediv_of_nonneg _ (Int.natCast_nonneg _)]
  rfl

theorem HasValue.ceil (h : x.HasValue q) : x.ceil = .ok ⌈q⌉ := by
  obtain ⟨u, _, rfl, rfl⟩ := h
  have := Rat.ceil_intCast_div_natCast u unitsPerOne
  rw [Int.cast_natCast] at this
  rw [this, ← Int.fdiv_eq_ediv_of_nonneg _ (Int.natCast_nonneg _)]
  rfl

theorem HasValue.toInt?_natCast {n : ℕ} (h : x.HasValue n) : x.toInt? = some (n : ℤ) := by
  obtain ⟨u, _, rfl, hu⟩ := h
  rw [eq_div_iff unitsPerOne_cast_pos.ne'] at hu
  have hu' : u = n * unitsPerOne := by exact_mod_cast hu.symm
  unfold toInt?
  dsimp only
  rw [hu', if_pos (Nat.mul_mod_left _ _), Nat.mul_div_cancel _ unitsPerOne_pos]
  rfl

theorem HasValue.toInt?_eq_none (h : x.HasValue q) (hq : ∀ n : ℕ, q ≠ n) : x.toInt? = none := by
  obtain ⟨u, _, rfl, rfl⟩ := h
  have hne : u % unitsPerOne ≠ 0 := by
    intro h0
    refine hq (u / unitsPerOne) ?_
    rw [div_eq_iff unitsPerOne_cast_pos.ne']
    exact_mod_cast (Nat.div_mul_cancel (Nat.dvd_of_mod_eq_zero h0)).symm
  unfold toInt?
  dsimp only
  rw [if_neg hne]

end Binary64

open Binary64

/-! ### Lengths and proportions -/

variable {x : Binary64} {q : ℚ} {a b : ℤ} {k : ℕ}

theorem floatOfInt_exact (h0 : 0 ≤ a) (h : a ≤ 2 ^ 53) :
    ∃ z, floatOfInt a = .ok z ∧ z.HasValue a := by
  have hv := ofInt_exact h0 h
  exact ⟨ofInt a, hv.inRange _, hv⟩

theorem floatQuotient_natCast (m : ℕ) {n : ℕ} (hn : 0 < n) :
    floatQuotient m n = (ofRatio false m n).inRange .quotientTooLargeForFloat := by
  have hs : ∀ k : ℕ, decide ((k : ℤ) < 0) = false := fun k => by simp
  unfold floatQuotient
  rw [if_neg (by omega), hs, hs, Int.natAbs_natCast, Int.natAbs_natCast]
  rfl

theorem floatQuotient_hasValue (ha : 0 ≤ a) (hb : 0 < b) (h : (a / b : ℚ) ≤ 2 ^ k)
    (hk : k ≤ 1023) :
    ∃ z, floatQuotient a b = .ok z ∧ z.HasValue (nearest (a / b)) := by
  obtain ⟨m, rfl⟩ := Int.eq_ofNat_of_zero_le ha
  obtain ⟨n, rfl⟩ := Int.eq_ofNat_of_zero_le hb.le
  have hn : 0 < n := by omega
  rw [Int.cast_natCast, Int.cast_natCast] at h ⊢
  have hv := ofRatio_hasValue hn h hk
  exact ⟨_, (floatQuotient_natCast m hn).trans (hv.inRange _), hv⟩

/-- **A quotient that is in range is rounded once**, however large. -/
theorem hasValue_of_floatQuotient (ha : 0 ≤ a) (hb : 0 < b) (h : floatQuotient a b = .ok x) :
    x.HasValue (nearest (a / b)) := by
  obtain ⟨m, rfl⟩ := Int.eq_ofNat_of_zero_le ha
  obtain ⟨n, rfl⟩ := Int.eq_ofNat_of_zero_le hb.le
  have hn : 0 < n := by omega
  rw [floatQuotient_natCast m hn] at h
  rw [Int.cast_natCast, Int.cast_natCast]
  exact ofRatio_hasValue_of_inRange hn h

theorem Binary64.HasValue.roundHalfUp (h : x.HasValue q) (hq : q ≤ 2 ^ k)
    (hk : k ≤ 1022) : roundHalfUp x = .ok ⌊nearest (q + 1 / 2)⌋ := by
  have hle : q + 1 / 2 ≤ 2 ^ (k + 1) := by
    have : (1 : ℚ) ≤ 2 ^ k := one_le_pow₀ (by norm_num)
    rw [pow_succ]
    linarith
  exact (h.add half_hasValue hle (by omega)).floor

theorem le_proportion (ha : 0 < a) (hb : 0 < b) (hB : b ≤ 2 ^ k) : (1 / 2 ^ k : ℚ) ≤ a / b := by
  have ha' : (1 : ℚ) ≤ a := by exact_mod_cast ha
  have hb' : (0 : ℚ) < b := by exact_mod_cast hb
  have hB' : (b : ℚ) ≤ 2 ^ k := by exact_mod_cast hB
  exact div_le_div₀ (by linarith) ha' hb' hB'

/-- A proportion of lengths is far above the least positive number. -/
theorem le_proportion_of_lengths (ha : 0 < a) (hb : 0 < b) (hB : b ≤ 2 ^ 53) :
    (1 / 2 ^ 200 : ℚ) ≤ a / b :=
  le_trans (by norm_num) (le_proportion ha hb hB)

/-! ### Quotients rounded up -/

/-- A quotient above a whole number is not rounded down to it: it is above by a share of the whole
number that is larger than the relative error. -/
theorem lt_nearest_div {k : ℤ} (ha : 0 < a) (hA : a ≤ 2 ^ 53) (hb : 0 < b) (hB : b ≤ 2 ^ 53)
    (hk : k * b < a) : (k : ℚ) < nearest (a / b) := by
  have hb' : (0 : ℚ) < b := by exact_mod_cast hb
  have ha' : (1 : ℚ) ≤ a := by exact_mod_cast ha
  have hA' : (a : ℚ) ≤ 2 ^ 53 := by exact_mod_cast hA
  have hB' : (b : ℚ) ≤ 2 ^ 53 := by exact_mod_cast hB
  have hk' : (k : ℚ) * b + 1 ≤ a := by exact_mod_cast hk
  have hlow := le_proportion_of_lengths ha hb hB
  have hround : 2 ^ 53 * (a : ℚ) ≤ (2 ^ 53 + 1) * (nearest (a / b) * b) := by
    calc 2 ^ 53 * (a : ℚ) = 2 ^ 53 * (a / b) * b := by rw [mul_assoc, div_mul_cancel₀ _ hb'.ne']
      _ ≤ (2 ^ 53 + 1) * nearest (a / b) * b := by gcongr ?_ * _; exact mul_le_mul_nearest hlow
      _ = (2 ^ 53 + 1) * (nearest (a / b) * b) := by ring
  by_contra hle
  have hkb : nearest (a / b) * b ≤ k * b := mul_le_mul_of_nonneg_right (not_lt.mp hle) hb'.le
  linarith

/-- **The number of parts of length `b` that cover the length `a`**: the quotient is rounded to a
number between the same whole numbers. -/
theorem exists_ceilQuotient (ha : 0 < a) (hA : a ≤ 2 ^ 53) (hb : 0 < b) (hB : b ≤ 2 ^ 53) :
    ∃ n, ceilQuotient a b = .ok n ∧ 0 < n ∧ (n - 1) * b < a ∧ a ≤ n * b := by
  have hb' : (0 : ℚ) < b := by exact_mod_cast hb
  have ha' : (0 : ℚ) < a := by exact_mod_cast ha
  have hle : (a / b : ℚ) ≤ a := div_le_self ha'.le (by exact_mod_cast hb)
  have hA' : (a : ℚ) ≤ 2 ^ 53 := by exact_mod_cast hA
  obtain ⟨z, hz, hv⟩ := floatQuotient_hasValue ha.le hb (hle.trans hA') (by norm_num)
  have hpos : 0 < ⌈(a / b : ℚ)⌉ := Int.ceil_pos.mpr (div_pos ha' hb')
  have hlow : (⌈(a / b : ℚ)⌉ - 1) * b < a := by
    have := Int.ceil_lt_add_one (a / b : ℚ)
    rw [← sub_lt_iff_lt_add, lt_div_iff₀ hb'] at this
    exact_mod_cast this
  have hhigh : a ≤ ⌈(a / b : ℚ)⌉ * b := by
    have := Int.le_ceil (a / b : ℚ)
    rw [div_le_iff₀ hb'] at this
    exact_mod_cast this
  refine ⟨⌈(a / b : ℚ)⌉, ?_, hpos, hlow, hhigh⟩
  have hceil : ⌈nearest (a / b : ℚ)⌉ = ⌈(a / b : ℚ)⌉ := by
    rw [Int.ceil_eq_iff]
    constructor
    · have := lt_nearest_div ha hA hb hB hlow
      push_cast at this
      exact this
    · obtain ⟨n, hn⟩ := Int.eq_ofNat_of_zero_le hpos.le
      have hn53 : n ≤ 2 ^ 53 := by
        have : ⌈(a / b : ℚ)⌉ ≤ a := Int.ceil_le.mpr hle
        omega
      rw [hn, Int.cast_natCast]
      refine nearest_le_of_le (by positivity) ?_ (isBinary64_natCast hn53)
      have := Int.le_ceil (a / b : ℚ)
      rwa [hn, Int.cast_natCast] at this
  unfold ceilQuotient
  rw [hz]
  exact hv.ceil.trans (congrArg Except.ok hceil)

end IiifRules.Numeric
