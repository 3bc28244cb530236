import IiifRules.Proofs.Numeric.Shortest

/-! # What the search for the shortest decimal finds

Of a number read from few digits the search finds these digits again. Of any other number it finds
a decimal that is read to the number, or nothing, and then the number stands as all its units.

* `exists_nearest_natCast`: a whole number is rounded to a whole number.
* `Decimal.trimZeros_spec`: trimming keeps the number and leaves no zero at the end.
* `Decimal.shortest_cases`: the shortest decimal of a number that is not whole. -/

namespace IiifRules.Numeric

/-! ### Whole numbers -/

theorem two_pow_dvd_unitsPerOne {k : ℕ} (hk : k ≤ 1074) : 2 ^ k ∣ unitsPerOne := by
  rw [unitsPerOne_eq]
  exact pow_dvd_pow 2 hk

theorem unitsPerOne_dvd_two_pow {k : ℕ} (hk : 1074 ≤ k) : unitsPerOne ∣ 2 ^ k := by
  rw [unitsPerOne_eq]
  exact pow_dvd_pow 2 hk

/-- **A whole number is rounded to a whole number**: only bits above the units are dropped, or
none. -/
theorem exists_nearest_natCast (n : ℕ) : ∃ m : ℕ, nearest n = m := by
  have hdvd : unitsPerOne ∣ roundSignificant (n * unitsPerOne) 1 := by
    rw [roundSignificant_def, Nat.one_mul]
    rcases le_or_gt (dropped (n * unitsPerOne) 1) 1074 with hle | hgt
    · obtain ⟨k, hk⟩ : 2 ^ dropped (n * unitsPerOne) 1 ∣ n * unitsPerOne :=
        Dvd.dvd.mul_left (two_pow_dvd_unitsPerOne hle) n
      have hexact := roundHalfEven_exact (Nat.two_pow_pos (dropped (n * unitsPerOne) 1)) k
      rw [Nat.mul_comm k, ← hk] at hexact
      rw [hexact, Nat.mul_comm k, ← hk]
      exact Dvd.intro_left n rfl
    · exact Dvd.dvd.mul_left (unitsPerOne_dvd_two_pow hgt.le) _
  obtain ⟨m, hm⟩ := hdvd
  refine ⟨m, ?_⟩
  have hround := nearest_natDiv n Nat.one_pos
  rw [Nat.cast_one, div_one] at hround
  rw [hround, hm, Nat.cast_mul, mul_div_cancel_left₀ _ unitsPerOne_cast_pos.ne']

/-- A number that is not whole is not large: else its bits would all stand for whole numbers. -/
theorem lt_two_pow_of_not_dvd {units : ℕ} (fits : Representable units)
    (h : ¬unitsPerOne ∣ units) : (units / unitsPerOne : ℚ) < 2 ^ 53 := by
  obtain ⟨-, m, e, hm, rfl⟩ := fits
  rw [Nat.pow_eq] at h hm ⊢
  have he : e < 1074 := by
    by_contra hge
    exact h (Dvd.dvd.mul_left (unitsPerOne_dvd_two_pow (not_lt.mp hge)) m)
  have hlt : m * 2 ^ e < 2 ^ 53 * unitsPerOne := by
    calc m * 2 ^ e < 2 ^ 53 * 2 ^ e := Nat.mul_lt_mul_of_pos_right hm (by positivity)
      _ ≤ 2 ^ 53 * unitsPerOne := Nat.mul_le_mul_left _ (two_pow_le_unitsPerOne he.le)
  rw [div_lt_iff₀ unitsPerOne_cast_pos]
  exact_mod_cast hlt

namespace Binary64

theorem toInt?_finite_eq_none {neg : Bool} {units : ℕ} {fits : Representable units} :
    (finite neg units fits).toInt? = none ↔ ¬unitsPerOne ∣ units := by
  unfold toInt?
  dsimp only
  rw [Nat.dvd_iff_mod_eq_zero]
  split_ifs with h <;> simp [h]

/-- A number is determined by its value. -/
theorem HasValue.inj {x y : Binary64} {q : ℚ} (hx : x.HasValue q) (hy : y.HasValue q) :
    x = y := by
  obtain ⟨u, hu, rfl, rfl⟩ := hx
  obtain ⟨v, hv, rfl, huv⟩ := hy
  rw [div_left_inj' unitsPerOne_cast_pos.ne', Nat.cast_inj] at huv
  subst huv
  rfl

end Binary64

namespace Decimal

/-! ### Trimming -/

/-- **Trimming keeps the number**, raises the exponent by no more than its fuel, and leaves no zero
at the end if the fuel covers all digits. -/
theorem trimZeros_spec (fuel : ℕ) (d : Decimal) : (d.trimZeros fuel).toRat = d.toRat ∧
    d.exponent ≤ (d.trimZeros fuel).exponent ∧
    (d.digits ≠ 0 → d.digits < 10 ^ fuel → (d.trimZeros fuel).digits % 10 ≠ 0) := by
  induction fuel generalizing d with
  | zero =>
    refine ⟨rfl, le_rfl, fun h0 hlt => ?_⟩
    rw [pow_zero] at hlt
    omega
  | succ fuel ih =>
    unfold trimZeros
    split_ifs with h
    · obtain ⟨hrat, hexp, hlast⟩ := ih ⟨d.digits / 10, d.exponent + 1⟩
      obtain ⟨k, hk⟩ := Nat.dvd_of_mod_eq_zero h.2
      dsimp only at hexp hlast
      refine ⟨?_, by omega, fun h0 hlt => hlast (by omega) ?_⟩
      · rw [hrat]
        unfold toRat
        dsimp only
        rw [hk, Nat.mul_div_cancel_left _ (by norm_num), zpow_add₀ (by norm_num), zpow_one]
        push_cast
        ring
      · rw [pow_succ] at hlt
        omega
    · refine ⟨rfl, le_rfl, fun h0 _ hmod => h ⟨h0, hmod⟩⟩

/-! ### The search -/

theorem unitsPerOne_le_ten_pow : unitsPerOne ≤ 10 ^ 324 := by
  rw [unitsPerOne_eq]
  calc 2 ^ 1074 = (2 ^ 179) ^ 6 := by rw [← pow_mul]
    _ ≤ (10 ^ 54) ^ 6 := Nat.pow_le_pow_left (by norm_num) 6
    _ = 10 ^ 324 := by rw [← pow_mul]

/-- The number is at least the least positive one, and the search begins at its leading digit. -/
theorem leadingPower_bounds {units : ℕ} (h : 0 < units) : -324 ≤ leadingPower units ∧
    (10 : ℚ) ^ leadingPower units ≤ units / unitsPerOne ∧
    (units / unitsPerOne : ℚ) < 10 ^ (leadingPower units + 1) := by
  have hten := unitsPerOne_le_ten_pow
  have hpowers : 10 ^ 324 ≤ 10 ^ 400 := pow_le_pow_right₀ (by norm_num) (by norm_num)
  obtain ⟨hlow, hhigh⟩ :=
    leadingPower_spec ((hten.trans hpowers).trans (Nat.le_mul_of_pos_left _ h))
  refine ⟨?_, hlow, hhigh⟩
  by_contra hcon
  have hpow : (10 : ℚ) ^ (leadingPower units + 1) ≤ 10 ^ (-324 : ℤ) :=
    zpow_le_zpow_right₀ (by norm_num) (by omega)
  have hleast : (10 : ℚ) ^ (-324 : ℤ) ≤ units / unitsPerOne := by
    have hone : (1 : ℚ) ≤ units := by exact_mod_cast h
    have hten' : (unitsPerOne : ℚ) ≤ 10 ^ 324 := by exact_mod_cast hten
    calc (10 : ℚ) ^ (-324 : ℤ) = 1 / 10 ^ 324 := by rw [zpow_neg, one_div]; rfl
      _ ≤ 1 / unitsPerOne := one_div_le_one_div_of_le unitsPerOne_cast_pos hten'
      _ ≤ units / unitsPerOne := div_le_div_of_nonneg_right hone unitsPerOne_cast_pos.le
  exact absurd (hleast.trans_lt (hhigh.trans_le hpow)) (lt_irrefl _)

/-- **The decimal is read to the number of** `units`, and it does not end in zero. -/
structure ReadsBack (d : Decimal) (units : ℕ) : Prop where
  last : d.digits % 10 ≠ 0
  low : -400 ≤ d.exponent
  high : d.toRat ≤ 2 ^ 200
  value : nearest d.toRat = units / unitsPerOne

/-- What is found on one of the grids that are tried is read back once its zeros are trimmed. -/
theorem readsBack_of_onGrid {units k : ℕ} {e : Decimal} (h : 0 < units)
    (hsmall : (units / unitsPerOne : ℚ) < 2 ^ 53) (hk : k < 17)
    (he : onGrid? units (leadingPower units - k) = some e) : ReadsBack (e.trimZeros 20) units := by
  obtain ⟨hmin, hlow, hhigh⟩ := leadingPower_bounds h
  obtain ⟨hexp, hreads, hle⟩ := onGrid?_eq_some he
  obtain ⟨hrat, hexp', hlast⟩ := trimZeros_spec 20 e
  have hgrid : (0 : ℚ) < 10 ^ (leadingPower units - k) := by positivity
  have hstep : (10 : ℚ) ^ (leadingPower units - k) ≤ 10 ^ leadingPower units :=
    zpow_le_zpow_right₀ (by norm_num) (by omega)
  have hbound : e.toRat ≤ 2 ^ 200 := by
    have : (2 : ℚ) * 2 ^ 53 ≤ 2 ^ 200 := by norm_num
    linarith
  have hvalue := (readsAs_iff (by omega) hbound).mp hreads
  refine ⟨hlast ?_ ?_, by omega, hrat.trans_le hbound, by rw [hrat]; exact hvalue⟩
  · -- Zero is read to zero.
    intro h0
    have hzero : nearest e.toRat = 0 := by
      unfold toRat
      rw [h0, Nat.cast_zero, zero_mul]
      exact_mod_cast nearest_natCast (n := 0) (by norm_num)
    have hpos : (0 : ℚ) < units / unitsPerOne :=
      div_pos (by exact_mod_cast h) unitsPerOne_cast_pos
    rw [hvalue] at hzero
    exact hpos.ne' hzero
  · -- The number has at most `k + 1` digits before the grid, and what is found is one step above.
    have hsplit : (10 : ℚ) ^ (leadingPower units + 1) =
        10 ^ (k + 1) * 10 ^ (leadingPower units - k) := by
      rw [← zpow_natCast, ← zpow_add₀ (by norm_num)]
      congr 1
      push_cast
      ring
    have hdigits : (e.digits : ℚ) * 10 ^ (leadingPower units - k) <
        (10 ^ (k + 1) + 1) * 10 ^ (leadingPower units - k) := by
      unfold toRat at hle
      rw [hexp] at hle
      rw [add_mul, one_mul, ← hsplit]
      linarith
    have hcast := lt_of_mul_lt_mul_right hdigits hgrid.le
    have hlt : e.digits < 10 ^ (k + 1) + 1 := by exact_mod_cast hcast
    have hpow : 10 ^ (k + 1) ≤ 10 ^ 17 := Nat.pow_le_pow_right (by norm_num) (by omega)
    omega

/-- **The shortest decimal** of a number that is not whole has digits after the point; it is read to
the number, or it is the number with all its units. -/
theorem shortest_cases {units : ℕ} (fits : Representable units) (h : ¬unitsPerOne ∣ units) :
    shortest units = ⟨units, -1074⟩ ∨
      (shortest units).exponent < 0 ∧ ReadsBack (shortest units) units := by
  have hpos : 0 < units := Nat.pos_of_ne_zero (by rintro rfl; exact h (dvd_zero _))
  have hsmall := lt_two_pow_of_not_dvd fits h
  unfold shortest
  rw [if_neg hpos.ne']
  dsimp only
  split
  · rename_i e hsearch
    right
    obtain ⟨k, hk, he⟩ := List.exists_of_findSome?_eq_some hsearch
    have hback := readsBack_of_onGrid hpos hsmall (List.mem_range.mp hk) he
    refine ⟨?_, hback⟩
    -- A decimal without a fraction would be read to a whole number.
    by_contra hwhole
    obtain ⟨i, hi⟩ := Int.eq_ofNat_of_zero_le (not_lt.mp hwhole)
    have hnat : (e.trimZeros 20).toRat = ((e.trimZeros 20).digits * 10 ^ i : ℕ) := by
      unfold toRat
      rw [hi, zpow_natCast]
      push_cast
      rfl
    obtain ⟨m, hm⟩ := exists_nearest_natCast ((e.trimZeros 20).digits * 10 ^ i)
    have hvalue := hback.value
    rw [hnat, hm, eq_div_iff unitsPerOne_cast_pos.ne'] at hvalue
    have hmul : m * unitsPerOne = units := by exact_mod_cast hvalue
    exact h ⟨m, by rw [← hmul, Nat.mul_comm]⟩
  · left
    rfl

/-- A decimal that is read back has few enough digits to be written as a numeral. -/
theorem ReadsBack.length_digits_le {d : Decimal} {units : ℕ} (h : ReadsBack d units) :
    (Numeral.digits d.digits).length ≤ Numeral.digitLimit := by
  have hlow : (1 : ℚ) / 10 ^ 400 ≤ 10 ^ d.exponent := by
    calc (1 : ℚ) / 10 ^ 400 = 10 ^ (-400 : ℤ) := by rw [zpow_neg, one_div]; rfl
      _ ≤ 10 ^ d.exponent := zpow_le_zpow_right₀ (by norm_num) h.low
  have hdigits : (d.digits : ℚ) * (1 / 10 ^ 400) ≤ 10 ^ 100 := by
    calc (d.digits : ℚ) * (1 / 10 ^ 400) ≤ d.digits * 10 ^ d.exponent :=
          mul_le_mul_of_nonneg_left hlow (Nat.cast_nonneg _)
      _ ≤ 2 ^ 200 := h.high
      _ ≤ 10 ^ 100 := by norm_num
  rw [mul_one_div, div_le_iff₀ (by positivity), ← pow_add] at hdigits
  have hle : d.digits ≤ 10 ^ (100 + 400) := by exact_mod_cast hdigits
  rw [Numeral.length_digits_le_iff (by decide)]
  exact lt_of_le_of_lt hle (pow_lt_pow_right₀ (by norm_num) (by decide))

/-- A decimal that is read back gives the number itself. -/
theorem ReadsBack.ofDecimal_eq {d : Decimal} {units : ℕ} (h : ReadsBack d units)
    (fits : Representable units) :
    Binary64.ofDecimal false d.digits d.exponent = .finite false units fits := by
  have hread := Binary64.ofDecimal_hasValue h.low h.high
  have hvalue : nearest (d.digits * 10 ^ d.exponent) = units / unitsPerOne := h.value
  rw [hvalue] at hread
  exact hread.inj ⟨units, fits, rfl, rfl⟩

end Decimal

end IiifRules.Numeric
