import Mathlib
import IiifRules.Proofs.Numeric.Search
import IiifRules.Proofs.Segment.Token

/-! # The plain text of a number, read as a token

A number that is written plainly is always well formed as a token: digits, or digits around a point
that do not end in zero. Whether the token is accepted depends on its length alone.

* `digitCount`: the digits of a token that count towards the limit.
* `readDecimal_of_count`: what a well-formed token is read as.
* `exists_positional`: the two parts of a decimal around its point.
* `plain_of_dvd`, `plain_of_not_dvd`: how a whole number and any other are written.
* `readDecimal_plain`: the plain text of a number is read as the number if it has at most fifteen
  digits, and refused without a failure otherwise. -/

namespace IiifRules.Segment.Token

open Numeric Text

variable {cs whole fraction : List Char}

/-- **The digits of a token** that count towards the limit: all but zeros before the first other
digit of the whole part. -/
def digitCount (cs : List Char) : ℕ :=
  ((cut '.' cs).1.dropWhile (· = '0')).length + ((cut '.' cs).2.getD []).length

theorem point_notMem_of_isNatural (h : isNatural cs = true) : '.' ∉ cs :=
  fun hc => absurd (isDigit_of_isDigits (isDigits_of_isNatural h) '.' hc) (by decide)

theorem digitCount_of_isNatural (h : isNatural cs = true) :
    digitCount cs = (cs.dropWhile (· = '0')).length := by
  unfold digitCount
  rw [cut_of_notMem (point_notMem_of_isNatural h)]
  rfl

theorem digitCount_append (h : isNatural whole = true) (fraction : List Char) :
    digitCount (whole ++ '.' :: fraction) =
      (whole.dropWhile (· = '0')).length + fraction.length := by
  unfold digitCount
  rw [cut_append (point_notMem_of_isNatural h)]
  rfl

/-! ### Well-formed tokens -/

/-- A natural number as a decimal. -/
theorem readDecimal_of_natural (h : isNatural cs = true)
    (hlen : cs.length ≤ Numeral.digitLimit) :
    readDecimal none cs = .ok (if decimalDigits < digitCount cs then none
      else some (.ofDecimal false (Numeral.value cs) 0)) := by
  have hread := readNatural_eq_some.mpr ⟨h, hlen, rfl⟩
  rw [digitCount_of_isNatural h]
  unfold readDecimal
  rw [cut_of_notMem (point_notMem_of_isNatural h)]
  dsimp only
  rw [hread, Outcome.ok_bind]
  simp only [Option.getD_none, List.length_nil, Nat.add_zero, List.append_nil]
  split_ifs with hlong hpoint hplaces
  · rfl
  · cases hpoint
  · cases hplaces
  · rfl

/-- **A natural number with a fraction**: the number of digits is looked at before the fraction. -/
theorem readDecimal_of_count (h : isNatural whole = true)
    (hlen : whole.length ≤ Numeral.digitLimit)
    (hfraction : digitCount (whole ++ '.' :: fraction) ≤ decimalDigits →
      isFraction fraction = true) :
    readDecimal none (whole ++ '.' :: fraction) =
      .ok (if decimalDigits < digitCount (whole ++ '.' :: fraction) then none
        else some (.ofDecimal false (Numeral.value (whole ++ fraction)) (-fraction.length))) := by
  have hread := readNatural_eq_some.mpr ⟨h, hlen, rfl⟩
  rw [digitCount_append h] at hfraction ⊢
  unfold readDecimal
  rw [cut_append (point_notMem_of_isNatural h)]
  dsimp only
  rw [hread, Outcome.ok_bind]
  simp only [Option.getD_some]
  split_ifs with hlong hpoint hplaces
  · rfl
  · rw [hfraction (by omega)] at hpoint
    simp at hpoint
  · simp at hplaces
  · rfl

/-! ### Decimals with a fraction -/

/-- Digits that do not begin with zero are a natural number, and so are the first few of them. -/
theorem isNatural_take {ds : List Char} {n : ℕ} (hdigit : ∀ c ∈ ds, c.isDigit = true)
    (hfirst : ds.dropWhile (· = '0') = ds) (hne : ds ≠ []) (hn : 0 < n) :
    isNatural (ds.take n) = true := by
  obtain ⟨c, rest, rfl⟩ := List.exists_cons_of_ne_nil hne
  obtain ⟨n, rfl⟩ := Nat.exists_eq_succ_of_ne_zero hn.ne'
  have hc : c ≠ '0' := by
    rintro rfl
    rw [List.dropWhile_cons_of_pos (by simp)] at hfirst
    have hlen := (List.dropWhile_suffix (fun c : Char => decide (c = '0')) (l := rest)).length_le
    rw [hfirst, List.length_cons] at hlen
    omega
  have hall : ∀ x ∈ c :: rest.take n, x.isDigit = true := by
    rw [← List.take_succ_cons]
    exact fun x hx => hdigit x (List.mem_of_mem_take hx)
  rw [List.take_succ_cons]
  simp only [isNatural, isDigits, Bool.and_eq_true, Bool.or_eq_true, List.all_eq_true]
  exact ⟨⟨rfl, hall⟩, .inr (by simpa using hc)⟩

theorem value_replicate_append (k : ℕ) (ds : List Char) :
    Numeral.value (List.replicate k '0' ++ ds) = Numeral.value ds := by
  induction k with
  | zero => rfl
  | succ k ih => rw [List.replicate_succ, List.cons_append, Numeral.value_zero_cons, ih]

/-- **A decimal with a fraction** is a natural number, a point and as many digits as it has
places. -/
theorem exists_positional {digits places : ℕ} (hpos : 0 < places) (hne : digits ≠ 0) :
    ∃ whole fraction, Decimal.positional ⟨digits, -places⟩ = whole ++ '.' :: fraction ∧
      isNatural whole = true ∧ whole.length ≤ (Numeral.digits digits).length ∧
      fraction.length = places ∧ (∀ c ∈ fraction, c.isDigit = true) ∧
      Numeral.value (whole ++ fraction) = digits := by
  have hlen := Numeral.length_digits_pos digits
  have hdigit : ∀ c ∈ Numeral.digits digits, c.isDigit = true :=
    fun c hc => Numeral.isDigit_of_mem_digits hc
  have hvalue := Numeral.value_digits digits
  have hfirst : (Numeral.digits digits).dropWhile (· = '0') = Numeral.digits digits := by
    rw [← Numeral.digits_value_dropWhile hdigit (by rwa [hvalue]), hvalue]
  unfold Decimal.positional
  dsimp only
  rw [if_neg (show ¬(0 : ℤ) ≤ -places by omega), neg_neg, Int.toNat_natCast]
  generalize Numeral.digits digits = ds at hlen hdigit hvalue hfirst
  split_ifs with hlt
  · -- The point stands among the digits, of which the first is not zero.
    refine ⟨_, _, rfl, isNatural_take hdigit hfirst (List.ne_nil_of_length_pos hlen) (by omega),
      by rw [List.length_take]; omega, by rw [List.length_drop]; omega,
      fun x hx => hdigit x (List.mem_of_mem_drop hx), by rw [List.take_append_drop]; exact hvalue⟩
  · -- Zeros fill the places that the digits leave free.
    refine ⟨['0'], List.replicate (places - ds.length) '0' ++ ds, rfl, rfl, hlen, ?_, ?_, ?_⟩
    · rw [List.length_append, List.length_replicate]
      omega
    · intro c hc
      rcases List.mem_append.mp hc with hc | hc
      · rw [List.eq_of_mem_replicate hc]
        rfl
      · exact hdigit c hc
    · rw [List.singleton_append, Numeral.value_zero_cons, value_replicate_append, hvalue]

/-- A fraction ends in the last digit of the number. -/
theorem isFraction_of_value (hd : ∀ c ∈ fraction, c.isDigit = true) (hne : fraction ≠ [])
    (hlast : Numeral.value (whole ++ fraction) % 10 ≠ 0) : isFraction fraction = true := by
  rcases List.eq_nil_or_concat fraction with rfl | ⟨ds, c, rfl⟩
  · exact absurd rfl hne
  · rw [List.concat_eq_append] at *
    have hc : c ≠ '0' := by
      rintro rfl
      rw [← List.append_assoc, value_mod_ten rfl] at hlast
      exact hlast rfl
    simp only [isFraction, isDigits, Bool.and_eq_true, List.all_eq_true]
    exact ⟨⟨by simp, hd⟩, by simpa using hc⟩

/-! ### Numbers written plainly -/

section Plain

variable {units : ℕ} (fits : Representable units)
include fits

/-- **A whole number is written** in its digits. -/
theorem plain_of_dvd (h : unitsPerOne ∣ units) : ∃ m : ℕ,
    (Binary64.finite false units fits).plain = Numeral.digits m ∧ Numeral.writable m = true ∧
      (Binary64.finite false units fits).HasValue m := by
  obtain ⟨m, rfl⟩ := h
  have hvalue : (Binary64.finite false (unitsPerOne * m) fits).HasValue m := by
    refine ⟨_, fits, rfl, ?_⟩
    rw [Nat.cast_mul, mul_div_cancel_left₀ _ unitsPerOne_cast_pos.ne']
  refine ⟨m, ?_, ?_, hvalue⟩
  · unfold Binary64.plain
    dsimp only
    rw [hvalue.toInt?_natCast]
    dsimp only
    exact Numeral.chars_natCast m
  · have hlt := fits.1
    have hbound : unitsBound = unitsPerOne * 2 ^ 1024 := by
      rw [unitsBound_eq, unitsPerOne_eq, ← pow_add]
    rw [hbound] at hlt
    exact writable_of_le (Nat.lt_of_mul_lt_mul_left hlt).le (by decide)

/-- **Any other number is written** as a natural number, a point and digits. If there are not too
many of them, they do not end in zero and are read as the number. -/
theorem plain_of_not_dvd (h : ¬unitsPerOne ∣ units) : ∃ whole fraction,
    (Binary64.finite false units fits).plain = whole ++ '.' :: fraction ∧
      isNatural whole = true ∧ whole.length ≤ Numeral.digitLimit ∧
      (∀ c ∈ fraction, c.isDigit = true) ∧
      (digitCount (whole ++ '.' :: fraction) ≤ decimalDigits → isFraction fraction = true ∧
        Binary64.ofDecimal false (Numeral.value (whole ++ fraction)) (-fraction.length) =
          .finite false units fits) := by
  have hplain : (Binary64.finite false units fits).plain =
      (Decimal.shortest units).positional := by
    unfold Binary64.plain
    dsimp only
    rw [Binary64.toInt?_finite_eq_none.mpr h]
    rfl
  rw [hplain]
  rcases Decimal.shortest_cases fits h with hunits | ⟨hexp, hback⟩
  · -- All units at 1074 places are too many digits.
    have hne : units ≠ 0 := by
      rintro rfl
      exact h (dvd_zero _)
    have hwritable : Numeral.writable units = true :=
      writable_of_le (k := 2098) (by rw [← unitsBound_eq]; exact fits.1.le) (by decide)
    have hshort := (readNatural_eq_some.mp (readNatural_digits hwritable)).2.1
    obtain ⟨whole, fraction, hpos, hwhole, hlen, hplaces, hdigit, -⟩ :=
      exists_positional (show 0 < 1074 by norm_num) hne
    refine ⟨whole, fraction, by rw [hunits]; exact hpos, hwhole, hlen.trans hshort, hdigit, ?_⟩
    intro hcount
    rw [digitCount_append hwhole, hplaces] at hcount
    unfold decimalDigits at hcount
    omega
  · generalize Decimal.shortest units = d at hexp hback
    obtain ⟨digits, exponent⟩ := d
    dsimp only at hexp
    obtain ⟨places, hplaces⟩ := Int.eq_ofNat_of_zero_le (show 0 ≤ -exponent by omega)
    obtain rfl : exponent = -(places : ℤ) := by omega
    have hlast := hback.last
    have hne : digits ≠ 0 := by
      rintro rfl
      exact hlast rfl
    obtain ⟨whole, fraction, hpos, hwhole, hlen, hlength, hdigit, hvalue⟩ :=
      exists_positional (show 0 < places by omega) hne
    refine ⟨whole, fraction, hpos, hwhole, hlen.trans hback.length_digits_le, hdigit,
      fun _ => ⟨?_, ?_⟩⟩
    · have hlast' : Numeral.value (whole ++ fraction) % 10 ≠ 0 := by rw [hvalue]; exact hlast
      exact isFraction_of_value hdigit (List.ne_nil_of_length_pos (by omega)) hlast'
    · rw [hvalue, hlength]
      exact hback.ofDecimal_eq fits

/-- A plain text holds digits and a point. -/
theorem isDigit_or_point_of_mem_plain :
    ∀ c ∈ (Binary64.finite false units fits).plain, c.isDigit = true ∨ c = '.' := by
  intro c hc
  by_cases h : unitsPerOne ∣ units
  · obtain ⟨m, hplain, -⟩ := plain_of_dvd fits h
    rw [hplain] at hc
    left
    exact Numeral.isDigit_of_mem_digits hc
  · obtain ⟨whole, fraction, hplain, hwhole, -, hdigit, -⟩ := plain_of_not_dvd fits h
    rw [hplain, List.mem_append, List.mem_cons] at hc
    rcases hc with hc | hc | hc
    · left
      exact isDigit_of_isDigits (isDigits_of_isNatural hwhole) c hc
    · right
      exact hc
    · left
      exact hdigit c hc

/-- **The plain text of a number** is read as the number, or it is refused for its length; reading
it never fails. -/
theorem readDecimal_plain : readDecimal none (Binary64.finite false units fits).plain =
    .ok (if decimalDigits < digitCount (Binary64.finite false units fits).plain then none
      else some (.finite false units fits)) := by
  by_cases h : unitsPerOne ∣ units
  · obtain ⟨m, hplain, hwritable, hvalue⟩ := plain_of_dvd fits h
    have hnat := isNatural_digits m
    have hshort := (readNatural_eq_some.mp (readNatural_digits hwritable)).2.1
    rw [hplain, readDecimal_of_natural hnat hshort, Numeral.value_digits]
    split_ifs with hlong
    · rfl
    · have hfew : m < 10 ^ 15 := by
        rw [digitCount_of_isNatural hnat] at hlong
        have hlt := value_lt_of_few hnat (not_lt.mp hlong)
        rwa [Numeral.value_digits] at hlt
      have hsmall : (m * 10 ^ (0 : ℤ) : ℚ) ≤ 2 ^ 200 := by
        rw [zpow_zero, mul_one]
        exact_mod_cast hfew.le.trans (by norm_num)
      have hread := Binary64.ofDecimal_hasValue (by norm_num) hsmall
      rw [zpow_zero, mul_one, nearest_natCast (by omega)] at hread
      rw [hread.inj hvalue]
  · obtain ⟨whole, fraction, hplain, hwhole, hlen, -, hread⟩ := plain_of_not_dvd fits h
    rw [hplain, readDecimal_of_count hwhole hlen fun hcount => (hread hcount).1]
    split_ifs with hlong
    · rfl
    · rw [(hread (not_lt.mp hlong)).2]

end Plain

end IiifRules.Segment.Token
