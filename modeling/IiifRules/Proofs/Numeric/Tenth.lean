import Mathlib
import IiifRules.Proofs.Numeric.Shortest

/-! # Numbers with one decimal place

A number that is written with one decimal place is written as the nearest count of tenths. No number
of binary64 lies in the middle between a whole number and the tenth beside it, so that the tenths
are whole exactly if the number is less than a twentieth away from a whole number.

* `Binary64.Denotes`: the value of a finite number of either sign.
* `Binary64.pointed_one`: a count of tenths with its point.
* `Binary64.Denotes.exists_tenths`: which tenths are written. -/

namespace IiifRules.Numeric

/-! ### Digits of tenths -/

theorem Binary64.pointed_one (n : ℕ) : pointed false 1 (Numeral.digits n) =
    Numeral.digits (n / 10) ++ ['.', Numeral.digitChar (n % 10)] := by
  unfold pointed
  dsimp only
  rcases lt_or_ge n 10 with hlt | hge
  · rw [Numeral.digits_of_lt_ten hlt, Nat.div_eq_of_lt hlt, Nat.mod_eq_of_lt hlt]
    rfl
  · have hlen := Numeral.length_digits_pos (n / 10)
    rw [Numeral.digits_of_ten_le hge]
    generalize Numeral.digits (n / 10) = ds at hlen
    have hfill : 1 + 1 - (ds ++ [Numeral.digitChar (n % 10)]).length = 0 := by
      rw [List.length_append, List.length_singleton]
      omega
    have hcut : (ds ++ [Numeral.digitChar (n % 10)]).length - 1 = ds.length := by
      rw [List.length_append, List.length_singleton]
      omega
    rw [hfill, List.replicate_zero, List.nil_append, hcut, List.take_left, List.drop_left]
    rfl

/-! ### Tenths of a number -/

/-- No number is in the middle between a whole number and the next tenth: a twentieth is no binary
fraction. -/
theorem abs_units_sub_ne (units m : ℕ) : |(units / unitsPerOne : ℚ) - m| ≠ 1 / 20 := by
  have hpos := unitsPerOne_cast_pos
  have hodd : ¬5 ∣ unitsPerOne := by
    rw [unitsPerOne_eq]
    intro h
    exact absurd (Nat.prime_five.dvd_of_dvd_pow h) (by norm_num)
  intro h
  rcases eq_or_eq_neg_of_abs_eq h with h | h
  · rw [sub_eq_iff_eq_add, div_eq_iff hpos.ne'] at h
    have hcross : 20 * units = 20 * (m * unitsPerOne) + unitsPerOne := by
      have : (20 * units : ℚ) = 20 * (m * unitsPerOne) + unitsPerOne := by rw [h]; ring
      exact_mod_cast this
    omega
  · rw [sub_eq_iff_eq_add, div_eq_iff hpos.ne'] at h
    have hcross : 20 * units + unitsPerOne = 20 * (m * unitsPerOne) := by
      have : (20 * units + unitsPerOne : ℚ) = 20 * (m * unitsPerOne) := by rw [h]; ring
      exact_mod_cast this
    omega

namespace Binary64

/-- **The number is `q`**; a zero may carry a sign. -/
def Denotes (x : Binary64) (q : ℚ) : Prop :=
  ∃ neg units fits, x = .finite neg units fits ∧ q = signed neg units / unitsPerOne

variable {x : Binary64} {q : ℚ}

theorem HasValue.denotes (h : x.HasValue q) : x.Denotes q := by
  obtain ⟨units, fits, hx, hq⟩ := h
  exact ⟨false, units, fits, hx, hq⟩

/-- A number that is not negative has no sign, or it is zero. -/
theorem Denotes.exists_magnitude (h : x.Denotes q) (h0 : 0 ≤ q) :
    ∃ neg units fits, x = .finite neg units fits ∧ q = units / unitsPerOne ∧
      (neg = true → units = 0) := by
  obtain ⟨neg, units, fits, hx, hq⟩ := h
  cases neg with
  | false => exact ⟨false, units, fits, hx, hq, nofun⟩
  | true =>
    have hunits : units = 0 := by
      by_contra hne
      have hneg : (signed true units : ℚ) < 0 := by
        simpa [signed] using Nat.pos_of_ne_zero hne
      have hlt := div_neg_of_neg_of_pos hneg unitsPerOne_cast_pos
      linarith
    subst hunits
    exact ⟨true, 0, fits, hx, by rw [hq]; simp [signed], fun _ => rfl⟩

theorem Denotes.toInt?_natCast {m : ℕ} (h : x.Denotes m) : x.toInt? = some (m : ℤ) := by
  obtain ⟨neg, units, fits, rfl, hq, hneg⟩ := h.exists_magnitude (Nat.cast_nonneg m)
  have hint : (finite false units fits).toInt? = some (m : ℤ) :=
    HasValue.toInt?_natCast ⟨units, fits, rfl, hq⟩
  cases neg with
  | false => exact hint
  | true =>
    obtain rfl := hneg rfl
    simpa [toInt?, signed] using hint

/-- **The tenths of a number** that is not whole: they are at most a twentieth away from it, and
they are a whole number if that is less than a twentieth away. -/
theorem Denotes.exists_tenths (h : x.Denotes q) (h0 : 0 ≤ q) (hq : ∀ m : ℕ, q ≠ m) :
    x.toInt? = none ∧ ∃ t : ℕ,
      x.fixed 1 = Numeral.digits (t / 10) ++ ['.', Numeral.digitChar (t % 10)] ∧
      |(t / 10 : ℚ) - q| ≤ 1 / 20 ∧ ∀ m : ℕ, t = 10 * m ↔ |q - m| < 1 / 20 := by
  obtain ⟨neg, units, fits, rfl, rfl, hneg⟩ := h.exists_magnitude h0
  obtain rfl : neg = false := by
    by_contra hsign
    exact hq 0 (by simp [hneg (Bool.eq_true_of_not_eq_false hsign)])
  have hpos := unitsPerOne_cast_pos
  have hround : |(roundHalfEven (units * Nat.pow 10 1) unitsPerOne / 10 : ℚ) - units / unitsPerOne|
      ≤ 1 / 20 := by
    obtain ⟨hup, hdown⟩ := roundHalfEven_error (units * Nat.pow 10 1) unitsPerOne_pos
    rw [Nat.pow_eq, pow_one] at hup hdown ⊢
    generalize roundHalfEven (units * 10) unitsPerOne = t at hup hdown
    have hup' : 2 * (t * unitsPerOne : ℚ) ≤ 2 * (units * 10) + unitsPerOne := by exact_mod_cast hup
    have hdown' : 2 * (units * 10 : ℚ) ≤ 2 * (t * unitsPerOne) + unitsPerOne := by
      exact_mod_cast hdown
    rw [div_sub_div _ _ (by norm_num) hpos.ne', abs_le, le_div_iff₀ (by positivity),
      div_le_iff₀ (by positivity)]
    constructor <;> linarith
  refine ⟨HasValue.toInt?_eq_none ⟨units, fits, rfl, rfl⟩ hq,
    roundHalfEven (units * Nat.pow 10 1) unitsPerOne, pointed_one _, hround, fun m => ⟨?_, ?_⟩⟩
  · intro ht
    rw [ht] at hround
    refine lt_of_le_of_ne ?_ (abs_units_sub_ne units m)
    rw [abs_sub_comm]
    rwa [Nat.cast_mul, Nat.cast_ofNat, mul_div_cancel_left₀ _ (by norm_num)] at hround
  · intro hnear
    refine roundHalfEven_eq unitsPerOne_pos ?_
    have hscale : ((units * Nat.pow 10 1 : ℕ) / unitsPerOne - (10 * m : ℕ) : ℚ) =
        10 * (units / unitsPerOne - m) := by
      rw [Nat.pow_eq]
      push_cast
      ring
    rw [hscale, abs_mul, abs_of_pos (by norm_num)]
    linarith

end Binary64

end IiifRules.Numeric
