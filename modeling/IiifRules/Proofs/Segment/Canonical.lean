import Mathlib
import IiifRules.Proofs.Numeric.Nearest
import IiifRules.Proofs.Segment.Plain
import IiifRules.Proofs.Segment.Reading

/-! # The canonical spelling of a number

Each number of a segment has one spelling. The spellings are given here by the characters they are
made of, apart from how a token is read; in a text without long runs of digits exactly they are
read.

* `CanonicalNatural`, `readNatural_iff`: natural numbers.
* `CanonicalDecimal`, `readDecimal_iff`: decimals, with their places and their exact value; what is
  read is the number nearest to the value.
* `CanonicalDecimal.le_zero_iff`, `CanonicalDecimal.lt_iff`: the number that is read is zero, or
  beyond a limit, if the value is. -/

namespace IiifRules.Segment.Token

open Numeric Text

variable {cs fraction : List Char} {n places : ℕ} {q : ℚ} {x : Binary64}

/-! ### Natural numbers -/

/-- **A canonical natural number**: digits, of which a zero comes first only if it stands alone. -/
structure CanonicalNatural (cs : List Char) : Prop where
  ne_nil : cs ≠ []
  isDigit : ∀ c ∈ cs, c.isDigit = true
  eq_nil_of_zero : ∀ rest, cs = '0' :: rest → rest = []

theorem isNatural_iff : isNatural cs = true ↔ CanonicalNatural cs := by
  constructor
  · intro h
    have hdigits := isDigits_of_isNatural h
    refine ⟨?_, isDigit_of_isDigits hdigits, ?_⟩
    · rintro rfl
      cases hdigits
    · rintro rest rfl
      rcases isNatural_cases h with hzero | ⟨c, ds, hcs, hc⟩
      · exact (List.cons.inj hzero).2
      · exact absurd (List.cons.inj hcs).1.symm hc
  · rintro ⟨hne, hdigit, hzero⟩
    obtain ⟨c, ds, rfl⟩ := List.exists_cons_of_ne_nil hne
    simp only [isNatural, isDigits, Bool.and_eq_true, Bool.or_eq_true, List.all_eq_true]
    refine ⟨⟨rfl, hdigit⟩, ?_⟩
    by_cases hc : c = '0'
    · left
      rw [hc] at hzero
      rw [hzero ds rfl]
      rfl
    · right
      simpa using hc

/-- **Natural numbers are read from their canonical spelling**, and from nothing else. -/
theorem readNatural_iff (hshort : ShortRuns cs) :
    readNatural cs = .ok (some n) ↔ CanonicalNatural cs ∧ Numeral.value cs = n := by
  rw [readNatural_eq_some, isNatural_iff]
  constructor
  · rintro ⟨hcs, -, hn⟩
    exact ⟨hcs, hn⟩
  · rintro ⟨hcs, hn⟩
    exact ⟨hcs, hshort cs List.infix_rfl hcs.isDigit, hn⟩

/-! ### Decimals -/

/-- The digits before a point that count towards the limit: all of them but a zero alone. -/
def wholeDigits (cs : List Char) : ℕ := if cs = ['0'] then 0 else cs.length

/-- **A canonical decimal**, the number of digits after its point and its value. -/
inductive CanonicalDecimal : List Char → ℕ → ℚ → Prop
  | whole {ds : List Char} (natural : CanonicalNatural ds) (few : wholeDigits ds ≤ 15) :
      CanonicalDecimal ds 0 (Numeral.value ds)
  | point {ds fraction : List Char} (natural : CanonicalNatural ds) (ne_nil : fraction ≠ [])
      (isDigit : ∀ c ∈ fraction, c.isDigit = true) (last : ∀ front, fraction ≠ front ++ ['0'])
      (few : wholeDigits ds + fraction.length ≤ 15) :
      CanonicalDecimal (ds ++ '.' :: fraction) fraction.length
        (Numeral.value (ds ++ fraction) / 10 ^ fraction.length)

theorem wholeDigits_eq (h : CanonicalNatural cs) :
    wholeDigits cs = (cs.dropWhile (· = '0')).length := by
  unfold wholeDigits
  rcases isNatural_cases (isNatural_iff.mpr h) with rfl | ⟨c, ds, rfl, hc⟩
  · rfl
  · rw [if_neg fun hzero => hc (List.cons.inj hzero).1,
      List.dropWhile_cons_of_neg (by simpa using hc)]

theorem isFraction_iff : isFraction fraction = true ↔
    fraction ≠ [] ∧ (∀ c ∈ fraction, c.isDigit = true) ∧ ∀ front, fraction ≠ front ++ ['0'] := by
  constructor
  · intro h
    obtain ⟨hdigit, ds, c, rfl, hc⟩ := isFraction_cases h
    refine ⟨by simp, hdigit, fun front hlast => ?_⟩
    rw [List.append_inj_right' hlast rfl |> List.cons.inj |>.1] at hc
    exact hc rfl
  · rintro ⟨hne, hdigit, hlast⟩
    simp only [isFraction, isDigits, Bool.and_eq_true, List.all_eq_true]
    refine ⟨⟨by simpa using hne, hdigit⟩, ?_⟩
    rw [bne_iff_ne, ne_eq, List.getLast?_eq_some_iff]
    rintro ⟨front, hfront⟩
    exact hlast front hfront

/-- **What a token is read as** from its parts around the point. -/
theorem readDecimal_of_cut {whole : List Char} {fraction? : Option (List Char)} {places? : Option ℕ}
    (hcut : cut '.' cs = (whole, fraction?)) (hread : readNatural whole = .ok (some n))
    (hfew : (whole.dropWhile (· = '0')).length + (fraction?.getD []).length ≤ 15)
    (hfraction : ∀ fraction ∈ fraction?, isFraction fraction = true)
    (hplaces : ∀ most ∈ places?, (fraction?.getD []).length ≤ most) :
    readDecimal places? cs = .ok (some (.ofDecimal false
      (Numeral.value (whole ++ fraction?.getD [])) (-(fraction?.getD []).length))) := by
  have hpoint : (fraction?.isSome && !isFraction (fraction?.getD [])) = false := by
    cases fraction? with
    | none => rfl
    | some fraction => simpa using hfraction fraction rfl
  have hany : places?.any (· < (fraction?.getD []).length) = false := by
    cases places? with
    | none => rfl
    | some most => simpa using hplaces most rfl
  unfold readDecimal
  rw [hcut]
  dsimp only
  rw [hread, Outcome.ok_bind]
  dsimp only
  rw [hpoint, hany, if_neg (by unfold decimalDigits; omega)]
  rfl

namespace CanonicalDecimal

variable (h : CanonicalDecimal cs places q)
include h

theorem exists_digits :
    ∃ digits : ℕ, digits < 10 ^ 15 ∧ places ≤ 15 ∧ q = digits / 10 ^ places := by
  cases h with
  | whole natural few =>
    rw [wholeDigits_eq natural] at few
    refine ⟨_, value_lt_of_few (isNatural_iff.mpr natural) few, Nat.zero_le _, ?_⟩
    rw [pow_zero, div_one]
  | point natural ne_nil isDigit last few =>
    rw [wholeDigits_eq natural] at few
    exact ⟨_, value_append_lt (isNatural_iff.mpr natural)
      (isFraction_iff.mpr ⟨ne_nil, isDigit, last⟩) few, by omega, rfl⟩

/-- **A canonical decimal is read** to the number nearest to it if it has no more places than are
allowed. -/
theorem exists_readDecimal (hshort : ShortRuns cs) {places? : Option ℕ}
    (hplaces : ∀ most ∈ places?, places ≤ most) :
    ∃ x, readDecimal places? cs = .ok (some x) ∧ x.IsNearest q := by
  obtain ⟨digits, hdigits, hfewPlaces, -⟩ := h.exists_digits
  cases h with
  | @whole ds natural few =>
    have hread := (readNatural_iff hshort).mpr ⟨natural, rfl⟩
    have hpoint := point_notMem_of_isNatural (isNatural_iff.mpr natural)
    rw [wholeDigits_eq natural] at few
    refine ⟨_, readDecimal_of_cut (cut_of_notMem hpoint) hread few (by simp) hplaces, ?_⟩
    have hnearest := Binary64.isNearest_ofDecimal (Nat.zero_le 30)
      (value_lt_of_few (isNatural_iff.mpr natural) few)
    rw [pow_zero, div_one] at hnearest
    rwa [Option.getD_none, List.append_nil]
  | @point ds fraction natural ne_nil isDigit last few =>
    have hwhole : ShortRuns ds := hshort.of_infix (List.prefix_append _ _).isInfix
    have hread := (readNatural_iff hwhole).mpr ⟨natural, rfl⟩
    have hpoint := point_notMem_of_isNatural (isNatural_iff.mpr natural)
    have hfraction := isFraction_iff.mpr ⟨ne_nil, isDigit, last⟩
    rw [wholeDigits_eq natural] at few
    refine ⟨_, readDecimal_of_cut (cut_append hpoint fraction) hread few ?_ hplaces, ?_⟩
    · rintro _ ⟨rfl⟩
      exact hfraction
    · exact Binary64.isNearest_ofDecimal (hfewPlaces.trans (by norm_num))
        (value_append_lt (isNatural_iff.mpr natural) hfraction few)

theorem eq_zero_or_le : q = 0 ∨ 1 / 2 ^ 50 ≤ q := by
  obtain ⟨digits, -, hfewPlaces, rfl⟩ := h.exists_digits
  rcases Nat.eq_zero_or_pos digits with rfl | hpos
  · left
    simp
  · right
    have hone : (1 : ℚ) ≤ digits := by exact_mod_cast hpos
    calc (1 / 2 ^ 50 : ℚ) ≤ 1 / 10 ^ 15 := by norm_num
      _ ≤ 1 / 10 ^ places :=
        one_div_le_one_div_of_le (by positivity) (pow_le_pow_right₀ (by norm_num) hfewPlaces)
      _ ≤ digits / 10 ^ places := by gcongr

variable (hx : x.IsNearest q)
include hx

/-- **The number that is read is zero** only if the decimal is. -/
theorem le_zero_iff : x.le .zero = true ↔ q = 0 := by
  obtain ⟨v, hv, -⟩ := id hx
  rw [hv.le Binary64.zero_hasValue, decide_eq_true_eq]
  constructor
  · intro hv0
    rcases h.eq_zero_or_le with hq | hq
    · exact hq
    · have htiny := Binary64.ofRatio_two_pow_hasValue (m := 1) (k := 50) (by norm_num) (by norm_num)
      rw [Nat.cast_one] at htiny
      have hge := hx.ge hv htiny hq
      norm_num at hge
      linarith
  · rintro rfl
    exact hx.le hv Binary64.zero_hasValue le_rfl

/-- **The number that is read is beyond a limit** of three digits only if the decimal is. -/
theorem lt_iff {m : ℕ} (hlow : 100 ≤ m) (hhigh : m < 1000) :
    Binary64.lt (.ofInt m) x = true ↔ m < q := by
  obtain ⟨v, hv, -⟩ := id hx
  have hlimit := Binary64.ofInt_exact (n := m) (by omega) (by omega)
  rw [Int.cast_natCast] at hlimit
  rw [hlimit.lt hv, decide_eq_true_eq]
  constructor
  · intro hlt
    by_contra hle
    exact absurd (hx.le hv hlimit (not_lt.mp hle)) (not_le.mpr hlt)
  · intro hlt
    -- A decimal of fifteen digits beyond the limit leaves room for a number between them.
    have hmiddle := Binary64.ofRatio_two_pow_hasValue (m := m * 2 ^ 40 + 1) (k := 40) (by omega)
      (by norm_num)
    have hbeyond : ((m * 2 ^ 40 + 1 : ℕ) / 2 ^ 40 : ℚ) ≤ q := by
      obtain ⟨digits, hdigits, -, rfl⟩ := h.exists_digits
      rw [lt_div_iff₀ (by positivity)] at hlt
      have hcross : m * 10 ^ places < digits := by exact_mod_cast hlt
      have hplaces : places < 13 := by
        refine (Nat.pow_lt_pow_iff_right (show 1 < 10 by norm_num)).mp ?_
        have hmul := Nat.mul_le_mul_right (10 ^ places) hlow
        omega
      have hten : (10 : ℚ) ^ places ≤ 2 ^ 40 :=
        (pow_le_pow_right₀ (by norm_num) (Nat.le_of_lt_succ hplaces)).trans (by norm_num)
      have hstep : (m * 10 ^ places + 1 : ℚ) ≤ digits := by exact_mod_cast hcross
      rw [div_le_div_iff₀ (by positivity) (by positivity)]
      push_cast
      nlinarith
    have hge := hx.ge hv hmiddle hbeyond
    refine lt_of_lt_of_le ?_ hge
    rw [lt_div_iff₀ (by positivity)]
    push_cast
    linarith

end CanonicalDecimal

/-- **Decimals are read from their canonical spelling**, and from nothing else. -/
theorem readDecimal_iff (hshort : ShortRuns cs) {places? : Option ℕ} :
    readDecimal places? cs = .ok (some x) ↔
      ∃ places q, CanonicalDecimal cs places q ∧ (∀ most ∈ places?, places ≤ most) ∧
        x.IsNearest q := by
  constructor
  · intro hread
    have hcanonical : ∃ places q, CanonicalDecimal cs places q ∧
        ∀ most ∈ places?, places ≤ most := by
      rcases readDecimal_cases hread with
        ⟨hnat, hfew, -⟩ | ⟨whole, fraction, rfl, hnat, hfraction, hfew, hplaces, -⟩
      · have natural := isNatural_iff.mp hnat
        rw [← wholeDigits_eq natural] at hfew
        exact ⟨_, _, .whole natural hfew, fun most _ => Nat.zero_le most⟩
      · have natural := isNatural_iff.mp hnat
        obtain ⟨ne_nil, isDigit, last⟩ := isFraction_iff.mp hfraction
        rw [← wholeDigits_eq natural] at hfew
        exact ⟨_, _, .point natural ne_nil isDigit last hfew, hplaces⟩
    obtain ⟨places, q, hcs, hplaces⟩ := hcanonical
    obtain ⟨y, hy, hnearest⟩ := hcs.exists_readDecimal hshort hplaces
    obtain rfl : x = y := by
      rw [hread] at hy
      cases hy
      rfl
    exact ⟨places, q, hcs, hplaces, hnearest⟩
  · rintro ⟨places, q, hcs, hplaces, hx⟩
    obtain ⟨y, hy, hnearest⟩ := hcs.exists_readDecimal hshort hplaces
    rw [hx.inj hnearest]
    exact hy

end IiifRules.Segment.Token
