import Mathlib
import IiifRules.Numeric.Numeral

/-! # Numerals read back

The digits of a number and the number of a run of digits, against those of the standard library
(`digits_eq_toDigits`, `value_eq_ofDigitChars`).

* `value_digits`: a number is read off its digits.
* `digits_value`: a run of digits that begins with no zero is written again as it was.
* `replicate_append_digits_value`: any run of digits of a number above zero is, if the zeros in
  front are filled up again. -/

namespace IiifRules.Numeric.Numeral

/-! ### The digits of a number -/

theorem digitChar_eq {d : ℕ} (h : d < 10) : digitChar d = d.digitChar := by
  interval_cases d <;> rfl

theorem digitsOnto_append (fuel n : ℕ) (acc : List Char) :
    digitsOnto fuel n acc = digitsOnto fuel n [] ++ acc := by
  induction fuel generalizing n acc with
  | zero => rfl
  | succ fuel ih =>
    unfold digitsOnto
    split_ifs
    · rfl
    · rw [ih _ (_ :: acc), ih _ [_], List.append_assoc, List.singleton_append]

/-- The fuel is enough if the number has no more binary digits. -/
theorem digitsOnto_eq_toDigits (fuel : ℕ) :
    ∀ n < 2 ^ (fuel + 1), digitsOnto (fuel + 1) n [] = Nat.toDigits 10 n := by
  induction fuel with
  | zero =>
    intro n hn
    have h10 : n < 10 := by omega
    rw [Nat.toDigits_of_lt_base h10, ← digitChar_eq h10]
    unfold digitsOnto
    rw [if_pos h10]
  | succ fuel ih =>
    intro n hn
    unfold digitsOnto
    split_ifs with h10
    · rw [Nat.toDigits_of_lt_base h10, ← digitChar_eq h10]
    · rw [digitsOnto_append, ih _ (by rw [Nat.pow_succ] at hn; omega),
        digitChar_eq (Nat.mod_lt _ (by norm_num)),
        ← Nat.toDigits_of_base_le (by norm_num) (by omega)]

theorem digits_eq_toDigits (n : ℕ) : digits n = Nat.toDigits 10 n :=
  digitsOnto_eq_toDigits _ n Nat.lt_log2_self

theorem chars_natCast (n : ℕ) : chars n = digits n := by
  unfold chars
  rw [if_neg (by omega), Int.natAbs_natCast]

theorem digits_of_lt_ten {n : ℕ} (h : n < 10) : digits n = [digitChar n] := by
  rw [digits_eq_toDigits, Nat.toDigits_of_lt_base h, digitChar_eq h]

theorem digits_of_ten_le {n : ℕ} (h : 10 ≤ n) :
    digits n = digits (n / 10) ++ [digitChar (n % 10)] := by
  rw [digits_eq_toDigits, digits_eq_toDigits, digitChar_eq (Nat.mod_lt n (by norm_num))]
  exact Nat.toDigits_of_base_le (by norm_num) h

theorem isDigit_of_mem_digits {n : ℕ} {c : Char} (h : c ∈ digits n) : c.isDigit = true := by
  rw [digits_eq_toDigits] at h
  exact Nat.isDigit_of_mem_toDigits (by norm_num) le_rfl h

theorem length_digits_pos (n : ℕ) : 0 < (digits n).length := by
  rw [digits_eq_toDigits]
  exact Nat.length_toDigits_pos

theorem length_digits_le_iff {n k : ℕ} (hk : 0 < k) : (digits n).length ≤ k ↔ n < 10 ^ k := by
  rw [digits_eq_toDigits]
  exact Nat.length_toDigits_le_iff (by norm_num) hk

/-! ### The number of a run of digits -/

theorem value_eq_ofDigitChars (cs : List Char) : value cs = Nat.ofDigitChars 10 cs 0 := by
  rw [Nat.ofDigitChars_eq_foldl]
  rfl

/-- **A number is read off its digits.** -/
theorem value_digits (n : ℕ) : value (digits n) = n := by
  rw [value_eq_ofDigitChars, digits_eq_toDigits, Nat.ofDigitChars_ten_toDigits]

theorem digitValue_digitChar {d : ℕ} (h : d < 10) : digitValue (digitChar d) = d := by
  interval_cases d <;> rfl

theorem digitChar_ne_zero {d : ℕ} (h : d < 10) (hd : d ≠ 0) : digitChar d ≠ '0' := by
  intro hc
  have hvalue := digitValue_digitChar h
  rw [hc] at hvalue
  exact hd hvalue.symm

/-- The digits of a number and one more are those of ten times the number and a unit. -/
theorem value_digits_append (n : ℕ) {d : ℕ} (h : d < 10) :
    value (digits n ++ [digitChar d]) = 10 * n + d := by
  have hn := value_digits n
  unfold value at hn ⊢
  rw [List.foldl_append, hn, List.foldl_cons, List.foldl_nil, digitValue_digitChar h]

theorem value_zero_cons (cs : List Char) : value ('0' :: cs) = value cs := rfl

theorem value_dropWhile_zero (cs : List Char) : value (cs.dropWhile (· = '0')) = value cs := by
  induction cs with
  | nil => rfl
  | cons c cs ih =>
    by_cases hc : c = '0'
    · rw [List.dropWhile_cons_of_pos (by simpa using hc), ih, hc, value_zero_cons]
    · rw [List.dropWhile_cons_of_neg (by simpa using hc)]

theorem bounds_of_isDigit {c : Char} (h : c.isDigit = true) : 48 ≤ c.toNat ∧ c.toNat ≤ 57 := by
  simp only [Char.isDigit, Bool.and_eq_true, decide_eq_true_eq] at h
  exact ⟨UInt32.le_iff_toNat_le.mp h.1, UInt32.le_iff_toNat_le.mp h.2⟩

theorem digitValue_lt {c : Char} (h : c.isDigit = true) : digitValue c < 10 := by
  obtain ⟨-, hge⟩ := bounds_of_isDigit h
  unfold digitValue
  omega

theorem toDigits_digitValue {c : Char} (h : c.isDigit = true) :
    Nat.toDigits 10 (digitValue c) = [c] := by
  have hlt := digitValue_lt h
  obtain ⟨hle, -⟩ := bounds_of_isDigit h
  rw [Nat.toDigits_of_lt_base hlt]
  congr 1
  apply Char.toNat_inj.mp
  rw [Nat.toNat_digitChar_of_lt_ten hlt]
  unfold digitValue
  omega

theorem digitValue_pos {c : Char} (h : c.isDigit = true) (hc : c ≠ '0') : 0 < digitValue c := by
  rcases Nat.eq_zero_or_pos (digitValue c) with h0 | h0
  · have hd := toDigits_digitValue h
    rw [h0, Nat.toDigits_zero] at hd
    exact absurd (List.head_eq_of_cons_eq hd).symm hc
  · exact h0

/-- Digits that follow those of a number above zero are kept. -/
theorem toDigits_ofDigitChars {cs : List Char} (h : ∀ c ∈ cs, c.isDigit = true) :
    ∀ n, 0 < n → Nat.toDigits 10 (Nat.ofDigitChars 10 cs n) = Nat.toDigits 10 n ++ cs := by
  induction cs with
  | nil => intro n _; simp
  | cons c cs ih =>
    intro n hn
    have hc := h c (by simp)
    have hstep := Nat.toDigits_append_toDigits (b := 10) (by norm_num) hn (digitValue_lt hc)
    rw [toDigits_digitValue hc] at hstep
    rw [Nat.ofDigitChars_cons, ih (fun x hx => h x (by simp [hx])) _ (by omega)]
    calc Nat.toDigits 10 (10 * n + digitValue c) ++ cs
        = Nat.toDigits 10 n ++ [c] ++ cs := by rw [hstep]
      _ = Nat.toDigits 10 n ++ c :: cs := by simp

/-- **A run of digits is written again** if it begins with no zero. -/
theorem digits_value {c : Char} {cs : List Char} (h : ∀ x ∈ c :: cs, x.isDigit = true)
    (hc : c ≠ '0') : digits (value (c :: cs)) = c :: cs := by
  have hd := h c (by simp)
  have hpos := digitValue_pos hd hc
  have hv : value (c :: cs) = Nat.ofDigitChars 10 cs (digitValue c) := by
    rw [value_eq_ofDigitChars, Nat.ofDigitChars_cons, Nat.mul_zero, Nat.zero_add]
    rfl
  rw [digits_eq_toDigits, hv, toDigits_ofDigitChars (fun x hx => h x (by simp [hx])) _ hpos,
    toDigits_digitValue hd, List.singleton_append]

theorem digits_value_dropWhile {cs : List Char} (h : ∀ x ∈ cs, x.isDigit = true)
    (hne : value cs ≠ 0) : digits (value cs) = cs.dropWhile (· = '0') := by
  rw [← value_dropWhile_zero] at hne ⊢
  have hmem : ∀ x ∈ cs.dropWhile (· = '0'), x.isDigit = true :=
    fun x hx => h x (List.dropWhile_subset _ hx)
  cases hd : cs.dropWhile (· = '0') with
  | nil => rw [hd] at hne; exact absurd rfl hne
  | cons c ds =>
    have hc := List.head?_dropWhile_not (fun c : Char => decide (c = '0')) cs
    rw [hd] at hc hmem
    exact digits_value hmem (by simpa using hc)

/-- **A run of digits is its number with zeros in front.** -/
theorem replicate_append_digits_value {cs : List Char} (h : ∀ x ∈ cs, x.isDigit = true)
    (hne : value cs ≠ 0) :
    List.replicate (cs.length - (digits (value cs)).length) '0' ++ digits (value cs) = cs := by
  have hsplit := List.takeWhile_append_dropWhile (p := fun c : Char => decide (c = '0')) (l := cs)
  have hlen : (cs.takeWhile (· = '0')).length + (cs.dropWhile (· = '0')).length = cs.length := by
    rw [← List.length_append, hsplit]
  have hzeros : cs.takeWhile (· = '0') =
      List.replicate (cs.length - (cs.dropWhile (· = '0')).length) '0' := by
    rw [List.eq_replicate_iff]
    refine ⟨by omega, fun c hc => ?_⟩
    simpa using List.mem_takeWhile_imp hc
  rw [digits_value_dropWhile h hne, ← hzeros]
  exact hsplit

theorem value_lt {cs : List Char} (h : ∀ x ∈ cs, x.isDigit = true) :
    value cs < 10 ^ (cs.dropWhile (· = '0')).length := by
  by_cases hne : value cs = 0
  · rw [hne]; exact Nat.pow_pos (by norm_num)
  · have hlen := digits_value_dropWhile h hne
    rw [← length_digits_le_iff (by rw [← hlen]; exact length_digits_pos _), hlen]

end IiifRules.Numeric.Numeral
