import Mathlib
import IiifRules.Proofs.Numeric.Tenth
import IiifRules.Proofs.Segment.Language

/-! # Rotations written and read again

Degrees are written whole or with one decimal place, and a decimal place that is zero is refused
when the text is read. Degrees that are not whole but rounded to a whole number of them are written
with such a place, so that they are not read again; all others are.

* `Rotation.parse_format_of_canonical`: a canonical text of the degrees is read.
* `Rotation.not_grammar_of_zero_place`: a decimal place that is zero is in no rotation.
* `Rotation.exists_parse_format`: which rotations are read again, and how near to their degrees. -/

namespace IiifRules

open Numeric Text Segment.Token

namespace Segment.Token

theorem CanonicalDecimal.length_le {cs : List Char} {places : ℕ} {q : ℚ}
    (h : CanonicalDecimal cs places q) : cs.length ≤ 17 := by
  have hwhole : ∀ ds : List Char, ds.length ≤ wholeDigits ds + 1 := by
    intro ds
    unfold wholeDigits
    split_ifs with hzero
    · simp [hzero]
    · omega
  cases h with
  | whole natural few => have := hwhole cs; omega
  | @point ds fraction natural ne_nil isDigit last few =>
    have := hwhole ds
    rw [List.length_append, List.length_cons]
    omega

theorem canonicalDecimal_digits {m : ℕ} (hm : m < 1000) :
    CanonicalDecimal (Numeral.digits m) 0 m := by
  have natural := isNatural_iff.mp (isNatural_digits m)
  have hlen : (Numeral.digits m).length ≤ 3 := (Numeral.length_digits_le_iff (by norm_num)).mpr hm
  have few : wholeDigits (Numeral.digits m) ≤ 15 := by
    unfold wholeDigits
    split_ifs <;> omega
  have h := CanonicalDecimal.whole natural few
  rwa [Numeral.value_digits] at h

theorem canonicalDecimal_tenths {t : ℕ} (ht : t < 10000) (hlast : t % 10 ≠ 0) :
    CanonicalDecimal (Numeral.digits (t / 10) ++ ['.', Numeral.digitChar (t % 10)]) 1 (t / 10) := by
  have hlt := Nat.mod_lt t (show 0 < 10 by norm_num)
  have natural := isNatural_iff.mp (isNatural_digits (t / 10))
  have hlen : (Numeral.digits (t / 10)).length ≤ 3 :=
    (Numeral.length_digits_le_iff (by norm_num)).mpr (by omega)
  have few : wholeDigits (Numeral.digits (t / 10)) + [Numeral.digitChar (t % 10)].length ≤ 15 := by
    rw [List.length_singleton]
    unfold wholeDigits
    split_ifs <;> omega
  have isDigit : ∀ c ∈ [Numeral.digitChar (t % 10)], c.isDigit = true := by
    rw [← Numeral.digits_of_lt_ten hlt]
    exact fun c hc => Numeral.isDigit_of_mem_digits hc
  have last : ∀ front, [Numeral.digitChar (t % 10)] ≠ front ++ ['0'] := by
    intro front h
    have happend : [] ++ [Numeral.digitChar (t % 10)] = front ++ ['0'] := h
    have hc := List.append_inj_right' happend rfl
    exact Numeral.digitChar_ne_zero hlt hlast (List.cons.inj hc).1
  have h := CanonicalDecimal.point natural (by simp) isDigit last few
  rwa [Numeral.value_digits_append _ hlt, Nat.div_add_mod, List.length_singleton, pow_one] at h

end Segment.Token

namespace Rotation

variable {r : Rotation} {v q : ℚ} {cs front : List Char} {places : ℕ}

/-- The mark of a mirrored rotation. -/
def mark (mirror : Bool) : List Char := if mirror then ['!'] else []

theorem toList_format (r : Rotation) : r.format.toList = r.formatChars := String.toList_ofList

theorem shortRuns_format (hchars : r.formatChars = mark r.mirror ++ cs) (hlen : cs.length ≤ 20) :
    ShortRuns r.format.toList := by
  have hmark : (mark r.mirror).length ≤ 1 := by
    unfold mark
    split_ifs <;> simp
  refine shortRuns_of_length ?_
  rw [toList_format, hchars, List.length_append]
  unfold Numeral.digitLimit
  omega

/-! ### What is written -/

theorem formatChars_of_whole {m : ℕ} (hv : r.degrees.Denotes m) :
    r.formatChars = mark r.mirror ++ Numeral.digits m := by
  unfold formatChars mark
  rw [hv.toInt?_natCast]
  dsimp only
  rw [Numeral.chars_natCast]

/-- **Degrees that are not whole** are written in tenths. -/
theorem exists_formatChars_tenths (hv : r.degrees.Denotes v) (h0 : 0 ≤ v) (hne : ∀ m : ℕ, v ≠ m) :
    ∃ t : ℕ, r.formatChars =
        mark r.mirror ++ (Numeral.digits (t / 10) ++ ['.', Numeral.digitChar (t % 10)]) ∧
      |(t / 10 : ℚ) - v| ≤ 1 / 20 ∧ ∀ m : ℕ, t = 10 * m ↔ |v - m| < 1 / 20 := by
  obtain ⟨hint, t, hfixed, hnear, hzero⟩ := hv.exists_tenths h0 hne
  refine ⟨t, ?_, hnear, hzero⟩
  unfold formatChars mark
  rw [hint]
  dsimp only
  rw [hfixed]

/-! ### What is read -/

/-- **A canonical text of the degrees** is read to the number nearest to it, with the mark. -/
theorem parse_format_of_canonical (hchars : r.formatChars = mark r.mirror ++ cs)
    (hcs : CanonicalDecimal cs places q) (hplaces : places ≤ 1)
    (hlimit : q ≤ 360) :
    ∃ x, parse r.format = .ok (.ok ⟨x, r.mirror⟩) ∧ x.IsNearest q := by
  have hshort := shortRuns_format hchars (hcs.length_le.trans (by norm_num))
  have hbody : ShortRuns cs := by
    refine hshort.of_infix ?_
    rw [toList_format, hchars]
    exact (List.suffix_append _ _).isInfix
  have hmost : ∀ most ∈ (Option.none : Option ℕ), places ≤ most := nofun
  obtain ⟨x, -, hx⟩ := hcs.exists_readDecimal hbody hmost
  refine ⟨x, (parse_iff hshort).mpr ⟨cs, places, q, ?_, hcs, hplaces, hlimit, hx⟩, hx⟩
  rw [toList_format, hchars]
  rfl

/-- **A decimal place that is zero** is in the text of no rotation. -/
theorem not_grammar_of_zero_place (h : Grammar (front ++ ['.', '0']) r) : False := by
  obtain ⟨body, places, q, htext, hbody, -⟩ := h
  cases hbody with
  | whole natural =>
    have hpoint : '.' ∈ (if r.mirror then ['!'] else []) ++ body := by
      rw [← htext]
      simp
    rcases List.mem_append.mp hpoint with hc | hc
    · split_ifs at hc <;> simp at hc
    · exact absurd (natural.isDigit '.' hc) (by decide)
  | @point ds fraction natural ne_nil isDigit last =>
    -- The last character of the text is that of the fraction.
    obtain ⟨digits, c, rfl⟩ := List.eq_nil_or_concat' fraction |>.resolve_left ne_nil
    have hsplit : front ++ ['.'] ++ ['0'] =
        (if r.mirror then ['!'] else []) ++ ds ++ '.' :: digits ++ [c] := by
      simpa using htext
    obtain rfl := (List.cons.inj (List.append_inj_right' hsplit rfl)).1
    exact last digits rfl

theorem exists_error_of_zero_place {n : ℕ} (hn : n < 1000)
    (hchars : r.formatChars = mark r.mirror ++ (Numeral.digits n ++ ['.', '0'])) :
    ∃ e, parse r.format = .ok (.error e) := by
  have hlen : (Numeral.digits n).length ≤ 3 := (Numeral.length_digits_le_iff (by norm_num)).mpr hn
  have hshort : ShortRuns r.format.toList := by
    refine shortRuns_format hchars ?_
    rw [List.length_append, List.length_cons, List.length_singleton]
    omega
  obtain ⟨p, hp⟩ := exists_parse hshort
  cases p with
  | error e => exact ⟨e, hp⟩
  | ok r' =>
    have hgrammar := (parse_iff hshort).mp hp
    rw [toList_format, hchars, ← List.append_assoc] at hgrammar
    exact (not_grammar_of_zero_place hgrammar).elim

/-! ### Both -/

theorem eq_of_near_natCast {m : ℕ} (k : ℤ) (h : |(m - k : ℚ)| < 1 / 20) : (m : ℚ) = k := by
  have hlt : |((m : ℤ) - k : ℤ)| < 1 := by
    have : |(((m : ℤ) - k : ℤ) : ℚ)| < 1 := by
      push_cast
      linarith
    exact_mod_cast this
  have heq : (m : ℤ) = k := by linarith [Int.abs_lt_one_iff.mp hlt]
  exact_mod_cast heq

theorem exists_natCast_of_near (h0 : 0 ≤ v) {m : ℤ} (h : |v - m| < 1 / 20) : ∃ n : ℕ, m = n := by
  have hlt : (-1 : ℚ) < m := by linarith [(abs_lt.mp h).2]
  have hneg : -1 < m := by exact_mod_cast hlt
  exact Int.eq_ofNat_of_zero_le (by omega)

/-- **Which rotations are read again.** A rotation of 0 to 360 degrees that is written is read
exactly if its degrees are whole or at least a twentieth away from every whole number. It is then
read with the same mark, to the number nearest to some degrees at most a twentieth away. -/
theorem exists_parse_format (hv : r.degrees.Denotes v) (h0 : 0 ≤ v) (h360 : v ≤ 360) :
    ∃ p, parse r.format = .ok p ∧
      ((∃ r', p = .ok r') ↔ ∀ m : ℤ, |v - m| < 1 / 20 → v = m) ∧
      ∀ r', p = .ok r' → r'.mirror = r.mirror ∧
        ∃ q, |q - v| ≤ 1 / 20 ∧ r'.degrees.IsNearest q := by
  by_cases hwhole : ∃ m : ℕ, v = m
  · obtain ⟨m, rfl⟩ := hwhole
    have hm : m ≤ 360 := by exact_mod_cast h360
    obtain ⟨x, hx, hnearest⟩ := parse_format_of_canonical (formatChars_of_whole hv)
      (canonicalDecimal_digits (by omega)) (Nat.zero_le 1) h360
    refine ⟨_, hx, ⟨fun _ => eq_of_near_natCast, fun _ => ⟨_, rfl⟩⟩, ?_⟩
    rintro _ ⟨rfl⟩
    exact ⟨rfl, m, by simp, hnearest⟩
  · rw [not_exists] at hwhole
    obtain ⟨t, hchars, hnear, hzero⟩ := exists_formatChars_tenths hv h0 hwhole
    have ht : t ≤ 3600 := by
      have hlt : (t : ℚ) < 3601 := by linarith [(abs_le.mp hnear).2]
      have : t < 3601 := by exact_mod_cast hlt
      omega
    by_cases hlast : t % 10 = 0
    · -- The decimal place is zero, as the degrees are less than a twentieth from a whole number.
      rw [hlast] at hchars
      obtain ⟨e, he⟩ := exists_error_of_zero_place (by omega) hchars
      refine ⟨_, he, ⟨nofun, fun h => ?_⟩, nofun⟩
      have hclose := (hzero (t / 10)).mp (by omega)
      exact absurd (h (t / 10 : ℕ) hclose) (hwhole (t / 10))
    · have hlimit : (t / 10 : ℚ) ≤ 360 := by
        have : (t : ℚ) ≤ 3600 := by exact_mod_cast ht
        linarith
      obtain ⟨x, hx, hnearest⟩ := parse_format_of_canonical hchars
        (canonicalDecimal_tenths (by omega) hlast) le_rfl hlimit
      refine ⟨_, hx, ⟨fun _ m hm => ?_, fun _ => ⟨_, rfl⟩⟩, ?_⟩
      · obtain ⟨n, rfl⟩ := exists_natCast_of_near h0 hm
        have := (hzero n).mpr hm
        omega
      · rintro _ ⟨rfl⟩
        exact ⟨rfl, _, hnear, hnearest⟩

theorem exists_denotes_ofDecimal (digits places : ℕ) (hplaces : places ≤ 30)
    (hfew : digits < 10 ^ 15) (hle : (digits / 10 ^ places : ℚ) ≤ 360) :
    ∃ v, (Binary64.ofDecimal false digits (-places)).Denotes v ∧ 0 ≤ v ∧ v ≤ 360 := by
  have hnearest := Binary64.isNearest_ofDecimal hplaces hfew
  have ⟨v, hv, _⟩ := hnearest
  have hlimit : (Binary64.ofInt 360).HasValue (360 : ℤ) :=
    Binary64.ofInt_exact (by norm_num) (by norm_num)
  exact ⟨v, hv.denotes, hv.nonneg, hnearest.le hv hlimit hle⟩

/-- Mirrored and turned by 22.46 degrees, which are written as 22.5. -/
theorem exists_parse_format_of_fraction :
    ∃ v, (Binary64.ofDecimal false 2246 (-(2 : ℕ))).Denotes v ∧ 0 ≤ v ∧ v ≤ 360 ∧
      format ⟨.ofDecimal false 2246 (-(2 : ℕ)), true⟩ = "!22.5" ∧
      ∃ r', parse "!22.5" = .ok (.ok r') ∧ r'.mirror = true ∧
        ∃ q, |q - v| ≤ 1 / 20 ∧ r'.degrees.IsNearest q := by
  obtain ⟨v, hv, h0, h360⟩ :=
    exists_denotes_ofDecimal 2246 2 (by norm_num) (by norm_num) (by norm_num)
  have hformat : format ⟨.ofDecimal false 2246 (-(2 : ℕ)), true⟩ = "!22.5" := by decide +kernel
  have hparse : parse "!22.5" = .ok (.ok ⟨.ofDecimal false 225 (-1), true⟩) := by decide +kernel
  obtain ⟨p, hp, -, hnear⟩ :=
    exists_parse_format (r := ⟨.ofDecimal false 2246 (-(2 : ℕ)), true⟩) hv h0 h360
  rw [hformat, hparse] at hp
  obtain rfl := Except.ok.inj hp
  exact ⟨v, hv, h0, h360, hformat, _, hparse, hnear _ rfl⟩

/-- Degrees of 22.04 are written with a decimal place that is zero. -/
theorem not_exists_parse_format : ¬∀ (r : Rotation) (v : ℚ), r.degrees.Denotes v → 0 ≤ v →
    v ≤ 360 → ∃ r', parse r.format = .ok (.ok r') := by
  intro h
  obtain ⟨v, hv, h0, h360⟩ :=
    exists_denotes_ofDecimal 2204 2 (by norm_num) (by norm_num) (by norm_num)
  obtain ⟨r', hr'⟩ := h ⟨.ofDecimal false 2204 (-(2 : ℕ)), false⟩ v hv h0 h360
  have hformat : format ⟨.ofDecimal false 2204 (-(2 : ℕ)), false⟩ = "22.0" := by decide +kernel
  have hparse : parse "22.0" = .ok (.error ⟨.rotation, "22.0", Option.none⟩) := by decide +kernel
  rw [hformat, hparse] at hr'
  cases hr'

end Rotation

end IiifRules
