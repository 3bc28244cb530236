import Mathlib
import IiifRules.Proofs.Numeric.Shortest
import IiifRules.Proofs.Outcome
import IiifRules.Proofs.Text.Fields
import IiifRules.Segment.Token

/-! # Number tokens written again

* `writeChars_of_readNatural`: a natural number is written as it was read.
* `plain_of_readDecimal`: so is a decimal without a limit on its places.
* `toInt?_or_fixed_of_readDecimal`: and a decimal of at most one place, as an integer or with one
  place. -/

namespace IiifRules.Segment.Token

open Numeric Text

variable {cs : List Char}

/-! ### Natural numbers -/

theorem isDigit_of_isDigits (h : isDigits cs = true) : ∀ c ∈ cs, c.isDigit = true := by
  simp only [isDigits, Bool.and_eq_true, List.all_eq_true] at h
  exact h.2

theorem isDigits_of_isNatural (h : isNatural cs = true) : isDigits cs = true := by
  simp only [isNatural, Bool.and_eq_true] at h
  exact h.1

/-- A natural number is a zero alone or begins with another digit. -/
theorem isNatural_cases (h : isNatural cs = true) :
    cs = ['0'] ∨ ∃ c ds, cs = c :: ds ∧ c ≠ '0' := by
  simp only [isNatural, isDigits, Bool.and_eq_true, Bool.or_eq_true] at h
  cases cs with
  | nil => simp at h
  | cons c ds =>
    by_cases hc : c = '0'
    · left
      simp [hc] at h
      rw [hc, h.2]
    · right
      exact ⟨c, ds, rfl, hc⟩

theorem digits_value_of_isNatural (h : isNatural cs = true) :
    Numeral.digits (Numeral.value cs) = cs := by
  have hd := isDigit_of_isDigits (isDigits_of_isNatural h)
  rcases isNatural_cases h with rfl | ⟨c, ds, rfl, hc⟩
  · rfl
  · exact Numeral.digits_value hd hc

theorem isNatural_digits (n : ℕ) : isNatural (Numeral.digits n) = true := by
  have hd : ∀ c ∈ Numeral.digits n, c.isDigit = true := fun c hc => Numeral.isDigit_of_mem_digits hc
  have hne : Numeral.digits n ≠ [] := List.ne_nil_of_length_pos (Numeral.length_digits_pos n)
  have hdigits : isDigits (Numeral.digits n) = true := by
    simpa [isDigits, hne] using hd
  by_cases h0 : n = 0
  · rw [h0]; rfl
  · -- No zero is dropped from the front, so none is there.
    have hdrop := Numeral.digits_value_dropWhile hd (by rwa [Numeral.value_digits])
    rw [Numeral.value_digits] at hdrop
    have hhead := List.head?_dropWhile_not (fun c : Char => decide (c = '0')) (Numeral.digits n)
    rw [← hdrop] at hhead
    have hne0 : (Numeral.digits n).head? ≠ some '0' := by
      intro h
      rw [h] at hhead
      simp at hhead
    simp [isNatural, hdigits, hne0]

theorem readNatural_eq_some {n : ℕ} : readNatural cs = .ok (some n) ↔
    isNatural cs = true ∧ cs.length ≤ Numeral.digitLimit ∧ Numeral.value cs = n := by
  unfold readNatural Numeral.read
  split_ifs with hnat hlong
  · constructor
    · intro h; cases h
    · rintro ⟨-, hle, -⟩; omega
  · constructor
    · intro h; cases h; exact ⟨hnat, by omega, rfl⟩
    · rintro ⟨-, -, rfl⟩; rfl
  · constructor
    · intro h; cases h
    · rintro ⟨h, -, -⟩; exact absurd h hnat

theorem isDigit_of_readNatural {n : ℕ} (h : readNatural cs = .ok (some n)) :
    ∀ c ∈ cs, c.isDigit = true :=
  isDigit_of_isDigits (isDigits_of_isNatural (readNatural_eq_some.mp h).1)

/-- A natural number begins with a digit. -/
theorem exists_cons_of_readNatural {n : ℕ} (h : readNatural cs = .ok (some n)) :
    ∃ c ds, cs = c :: ds ∧ c.isDigit = true := by
  have hd := isDigit_of_readNatural h
  rcases isNatural_cases (readNatural_eq_some.mp h).1 with rfl | ⟨c, ds, rfl, -⟩
  · exact ⟨'0', [], rfl, rfl⟩
  · exact ⟨c, ds, rfl, hd c (by simp)⟩

theorem comma_notMem_of_readNatural {n : ℕ} (h : readNatural cs = .ok (some n)) : ',' ∉ cs :=
  fun hc => absurd (isDigit_of_readNatural h ',' hc) (by decide)

/-- **A natural number is written as it was read.** -/
theorem writeChars_of_readNatural {n : ℕ} (h : readNatural cs = .ok (some n)) :
    Numeral.writeChars n = .ok cs := by
  obtain ⟨hnat, hlen, rfl⟩ := readNatural_eq_some.mp h
  have hdigits := digits_value_of_isNatural hnat
  have hw : Numeral.writable (Numeral.value cs) = true := by
    unfold Numeral.writable
    rw [Int.natAbs_natCast, hdigits, decide_eq_true_eq]
    exact hlen
  rw [Numeral.writeChars, if_pos hw, Numeral.chars_natCast, hdigits]

/-- A number of few enough digits is read from them. -/
theorem readNatural_digits {n : ℕ} (h : Numeral.writable n = true) :
    readNatural (Numeral.digits n) = .ok (some n) := by
  unfold Numeral.writable at h
  rw [Int.natAbs_natCast, decide_eq_true_eq] at h
  exact readNatural_eq_some.mpr ⟨isNatural_digits n, h, Numeral.value_digits n⟩

/-- A number below a power of two that is not too great is short. -/
theorem writable_of_le {n k : ℕ} (h : n ≤ 2 ^ k) (hk : k < Numeral.digitLimit) :
    Numeral.writable n = true := by
  unfold Numeral.writable
  rw [Int.natAbs_natCast, decide_eq_true_eq, Numeral.length_digits_le_iff (by decide)]
  calc n ≤ 2 ^ k := h
    _ ≤ 10 ^ k := Nat.pow_le_pow_left (by norm_num) k
    _ < 10 ^ Numeral.digitLimit := Nat.pow_lt_pow_right (by norm_num) hk

/-! ### Decimals -/

/-- A decimal is a natural number, alone or with a fraction. -/
theorem readDecimal_cases {places? : Option ℕ} {x : Binary64}
    (h : readDecimal places? cs = .ok (some x)) :
    (isNatural cs = true ∧ (cs.dropWhile (· = '0')).length ≤ 15 ∧
      x = .ofDecimal false (Numeral.value cs) 0) ∨
    ∃ whole fraction, cs = whole ++ '.' :: fraction ∧ isNatural whole = true ∧
      isFraction fraction = true ∧
      (whole.dropWhile (· = '0')).length + fraction.length ≤ 15 ∧
      (∀ places ∈ places?, fraction.length ≤ places) ∧
      x = .ofDecimal false (Numeral.value (whole ++ fraction)) (-fraction.length) := by
  unfold readDecimal decimalDigits at h
  rcases cut_cases '.' cs with ⟨-, hcut⟩ | ⟨whole, fraction, -, hcs, hcut⟩
  · left
    rw [hcut] at h
    obtain ⟨n?, hread, h⟩ := Outcome.bind_eq_ok.mp h
    cases n? with
    | none => cases h
    | some n =>
      obtain ⟨hnat, -, -⟩ := readNatural_eq_some.mp hread
      simp only [Option.getD_none, List.length_nil, Nat.add_zero, List.append_nil] at h
      split_ifs at h with hlong hpoint hplaces
      · cases h
      · cases h
      · cases h
      · cases h
        exact ⟨hnat, by omega, rfl⟩
  · right
    rw [hcut] at h
    obtain ⟨n?, hread, h⟩ := Outcome.bind_eq_ok.mp h
    cases n? with
    | none => cases h
    | some n =>
      obtain ⟨hnat, -, -⟩ := readNatural_eq_some.mp hread
      simp only [Option.getD_some] at h
      split_ifs at h with hlong hpoint hplaces
      · cases h
      · cases h
      · cases h
      · cases h
        refine ⟨whole, fraction, hcs, hnat, by simpa using hpoint, by omega, ?_, rfl⟩
        rintro places rfl
        simpa using hplaces

theorem comma_notMem_of_readDecimal {places? : Option ℕ} {x : Binary64}
    (h : readDecimal places? cs = .ok (some x)) : ',' ∉ cs := by
  have hdigits : ∀ {ds : List Char}, isDigits ds = true → ',' ∉ ds :=
    fun hd hc => absurd (isDigit_of_isDigits hd ',' hc) (by decide)
  rcases readDecimal_cases h with ⟨hnat, -, -⟩ | ⟨whole, fraction, rfl, hw, hf, -⟩
  · exact hdigits (isDigits_of_isNatural hnat)
  · simp only [isFraction, Bool.and_eq_true] at hf
    simp [hdigits (isDigits_of_isNatural hw), hdigits hf.1]

/-- The last digit of a number is the last of a run of digits that it stands for. -/
theorem value_mod_ten {c : Char} (hc : c.isDigit = true) (ds : List Char) :
    Numeral.value (ds ++ [c]) % 10 = Numeral.digitValue c := by
  have hlt := Numeral.digitValue_lt hc
  unfold Numeral.value
  rw [List.foldl_append, List.foldl_cons, List.foldl_nil]
  omega

theorem isFraction_cases {fraction : List Char} (h : isFraction fraction = true) :
    (∀ c ∈ fraction, c.isDigit = true) ∧ ∃ ds c, fraction = ds ++ [c] ∧ c ≠ '0' := by
  simp only [isFraction, Bool.and_eq_true] at h
  obtain ⟨hd, hlast⟩ := h
  refine ⟨isDigit_of_isDigits hd, ?_⟩
  rcases List.eq_nil_or_concat fraction with rfl | ⟨ds, c, rfl⟩
  · simp [isDigits] at hd
  · refine ⟨ds, c, by simp, ?_⟩
    rintro rfl
    simp at hlast

theorem isDigit_of_mem_append {whole fraction : List Char} (hw : isNatural whole = true)
    (hf : isFraction fraction = true) : ∀ c ∈ whole ++ fraction, c.isDigit = true := by
  intro c hc
  rcases List.mem_append.mp hc with hc | hc
  · exact isDigit_of_isDigits (isDigits_of_isNatural hw) c hc
  · exact (isFraction_cases hf).1 c hc

theorem value_append_mod_ten {fraction : List Char} (hf : isFraction fraction = true)
    (whole : List Char) :
    Numeral.value (whole ++ fraction) % 10 ≠ 0 := by
  obtain ⟨hd, ds, c, rfl, hc⟩ := isFraction_cases hf
  have hdc := hd c (by simp)
  have hpos := Numeral.digitValue_pos hdc hc
  rw [← List.append_assoc, value_mod_ten hdc]
  omega

theorem length_pos_of_isFraction {fraction : List Char} (hf : isFraction fraction = true) :
    0 < fraction.length := by
  obtain ⟨-, ds, c, rfl, -⟩ := isFraction_cases hf
  simp

theorem value_lt_of_few (hnat : isNatural cs = true)
    (hfew : (cs.dropWhile (· = '0')).length ≤ 15) : Numeral.value cs < 10 ^ 15 :=
  lt_of_lt_of_le (Numeral.value_lt (isDigit_of_isDigits (isDigits_of_isNatural hnat)))
    (Nat.pow_le_pow_right (by norm_num) hfew)

/-- The zeros in front of a decimal do not count. -/
theorem value_append_lt {whole fraction : List Char} (hw : isNatural whole = true)
    (hf : isFraction fraction = true)
    (hfew : (whole.dropWhile (· = '0')).length + fraction.length ≤ 15) :
    Numeral.value (whole ++ fraction) < 10 ^ 15 := by
  refine lt_of_lt_of_le (Numeral.value_lt (isDigit_of_mem_append hw hf)) ?_
  refine Nat.pow_le_pow_right (by norm_num) (le_trans ?_ hfew)
  rw [List.dropWhile_append]
  split_ifs with h
  · exact le_trans (List.dropWhile_suffix _).length_le (by omega)
  · rw [List.length_append]

/-- **A decimal with a fraction is its digits with the point put back.** -/
theorem positional_value {whole fraction : List Char} (hw : isNatural whole = true)
    (hf : isFraction fraction = true) :
    Decimal.positional ⟨Numeral.value (whole ++ fraction), -fraction.length⟩ =
      whole ++ '.' :: fraction := by
  have hd := isDigit_of_mem_append hw hf
  have hpos := length_pos_of_isFraction hf
  unfold Decimal.positional
  dsimp only
  rw [if_neg (show ¬(0 : ℤ) ≤ -fraction.length by omega), neg_neg, Int.toNat_natCast]
  rcases isNatural_cases hw with rfl | ⟨c, ds, rfl, hc⟩
  · -- The zero before the point is no digit of the number; nor are those right after it.
    have hne : Numeral.value fraction ≠ 0 := by
      intro h0
      have hmod := value_append_mod_ten hf []
      rw [List.nil_append, h0] at hmod
      exact hmod rfl
    have hdf : ∀ c ∈ fraction, c.isDigit = true := (isFraction_cases hf).1
    have hval : Numeral.value (['0'] ++ fraction) = Numeral.value fraction := rfl
    have hlen : (Numeral.digits (Numeral.value fraction)).length ≤ fraction.length := by
      rw [Numeral.digits_value_dropWhile hdf hne]
      exact (List.dropWhile_suffix _).length_le
    rw [hval, if_neg (by omega)]
    calc '0' :: '.' :: List.replicate
          (fraction.length - (Numeral.digits (Numeral.value fraction)).length) '0' ++
          Numeral.digits (Numeral.value fraction)
        = '0' :: '.' :: (List.replicate
          (fraction.length - (Numeral.digits (Numeral.value fraction)).length) '0' ++
          Numeral.digits (Numeral.value fraction)) := rfl
      _ = ['0'] ++ '.' :: fraction := by
        rw [Numeral.replicate_append_digits_value hdf hne, List.singleton_append]
  · have hdigits : Numeral.digits (Numeral.value (c :: ds ++ fraction)) = c :: ds ++ fraction :=
      Numeral.digits_value hd hc
    have hlen : (c :: ds ++ fraction).length - fraction.length = (c :: ds).length := by
      rw [List.length_append]
      omega
    rw [hdigits, if_pos (by simp), hlen, List.take_left, List.drop_left]

/-- **A decimal is written as it was read.** -/
theorem plain_of_readDecimal {places? : Option ℕ} {x : Binary64}
    (h : readDecimal places? cs = .ok (some x)) : x.plain = cs := by
  rcases readDecimal_cases h with ⟨hnat, hfew, rfl⟩ | ⟨whole, fraction, rfl, hw, hf, hfew, -, rfl⟩
  · rw [Decimal.plain_ofDecimal_natCast (value_lt_of_few hnat hfew), digits_value_of_isNatural hnat]
  · rw [Decimal.plain_ofDecimal (length_pos_of_isFraction hf) (by omega)
      (value_append_lt hw hf hfew) (value_append_mod_ten hf whole), positional_value hw hf]

/-- **A decimal of at most one place** is an integer that is written as it was read, or it is
written so with one place. -/
theorem toInt?_or_fixed_of_readDecimal {x : Binary64} (h : readDecimal (some 1) cs = .ok (some x)) :
    (∃ n : ℤ, x.toInt? = some n ∧ Numeral.chars n = cs) ∨ x.toInt? = none ∧ x.fixed 1 = cs := by
  rcases readDecimal_cases h with
    ⟨hnat, hfew, rfl⟩ | ⟨whole, fraction, rfl, hw, hf, hfew, hone, rfl⟩
  · left
    refine ⟨Numeral.value cs, Decimal.toInt?_ofDecimal_natCast (value_lt_of_few hnat hfew), ?_⟩
    rw [Numeral.chars_natCast, digits_value_of_isNatural hnat]
  · right
    have hlen : fraction.length = 1 := le_antisymm (hone 1 rfl) (length_pos_of_isFraction hf)
    have hfixed := Decimal.fixed_one_ofDecimal (value_append_lt hw hf hfew)
      (value_append_mod_ten hf whole)
    have hpos := positional_value hw hf
    rw [hlen] at hpos ⊢
    rw [Nat.cast_one] at hpos ⊢
    exact ⟨hfixed.1, hfixed.2.trans hpos⟩

/-- A decimal is a finite number that is not large. -/
theorem hasValue_of_readDecimal {places? : Option ℕ} {x : Binary64}
    (h : readDecimal places? cs = .ok (some x)) : ∃ q, x.HasValue q ∧ q ≤ 2 ^ 50 := by
  have hvalue : ∀ {digits places : ℕ}, places ≤ 15 → digits < 10 ^ 15 →
      ∃ q, (Binary64.ofDecimal false digits (-places)).HasValue q ∧ q ≤ 2 ^ 50 := by
    intro digits places hplaces hfew
    obtain ⟨units, fits, hx, hv⟩ :=
      Decimal.ofDecimal_eq_finite (show places ≤ 30 by omega) hfew
    refine ⟨_, ⟨units, fits, hx, rfl⟩, ?_⟩
    rw [hv]
    refine nearest_le_of_le (by positivity) ?_ (isBinary64_two_pow 50)
    have h1 : (10 : ℚ) ^ (-places : ℤ) ≤ 1 := zpow_le_one_of_nonpos₀ (by norm_num) (by omega)
    have h2 : (digits : ℚ) ≤ 10 ^ 15 := by exact_mod_cast hfew.le
    calc (digits * 10 ^ (-places : ℤ) : ℚ) ≤ 10 ^ 15 * 1 := by gcongr
      _ ≤ 2 ^ 50 := by norm_num
  rcases readDecimal_cases h with ⟨hnat, hfew, rfl⟩ | ⟨whole, fraction, rfl, hw, hf, hfew, -, rfl⟩
  · simpa using hvalue (Nat.zero_le 15) (value_lt_of_few hnat hfew)
  · exact hvalue (by omega) (value_append_lt hw hf hfew)

end IiifRules.Segment.Token
