import Mathlib
import IiifRules.Compliance.Generate
import IiifRules.Proofs.Compliance.Generated
import IiifRules.Proofs.Numeric.Value

/-! # Customary sizes and tiles

The heights of customary sizes are in proportion to their widths and rounded down. For an image that
is far wider than high nothing is left of them, and the document that is generated with such sizes
does not pass the check of its shape.

* `proportionalHeight_eq_ok`: a proportional height is positive exactly if the exact proportion is
  at least one.
* `standardSizes_pos_iff`: when every customary size is positive.
* `standardTiles_eq_ok`: customary tiles are in order. -/

namespace IiifRules

open Numeric

/-! ### Proportional heights -/

/-- A quotient is rounded down to zero exactly if it is less than one: no value below one is nearer
to one than a number below it, as the denominator is moderate. -/
theorem floor_nearest_pos_iff {a b : ℤ} (ha : 0 ≤ a) (hb0 : 0 < b) (hb : b ≤ 2 ^ 31) :
    0 < ⌊nearest (a / b)⌋ ↔ b ≤ a := by
  have ha' : (0 : ℚ) ≤ a := by exact_mod_cast ha
  have hb' : (0 : ℚ) < b := by exact_mod_cast hb0
  rw [Int.floor_pos]
  constructor
  · intro hpos
    by_contra hlt
    have hnum : (a + 1 : ℚ) ≤ b := by exact_mod_cast not_le.mp hlt
    have hden : (b : ℚ) ≤ 2 ^ 31 := by exact_mod_cast hb
    have hbelow : (a / b : ℚ) ≤ (2 ^ 31 - 1 : ℕ) / 2 ^ 31 := by
      rw [div_le_div_iff₀ hb' (by norm_num)]
      norm_num
      linarith
    have hnearest := nearest_le_of_le (div_nonneg ha' hb'.le) hbelow
      (isBinary64_div_two_pow (by norm_num) (by norm_num))
    norm_num at hnearest
    linarith
  · intro hle
    have hone : (1 : ℚ) ≤ a / b := by
      rw [le_div_iff₀ hb', one_mul]
      exact_mod_cast hle
    have hself : nearest 1 = 1 := by simpa using nearest_natCast (n := 1) (by norm_num)
    exact hself ▸ nearest_mono zero_le_one hone

/-- **A proportional height** is positive exactly if the proportion is at least one, and is no more
than the height. -/
theorem proportionalHeight_eq_ok {width height w n : ℤ} (hw0 : 0 < width) (hw : width ≤ 2 ^ 31)
    (hh0 : 0 < height) (hh : height ≤ 2 ^ 31) (h0 : 0 < w) (hle : w ≤ width)
    (h : proportionalHeight width height w = .ok n) :
    (0 < n ↔ width ≤ w * height) ∧ 0 ≤ n ∧ n ≤ height := by
  have ha : 0 ≤ w * height := (mul_pos h0 hh0).le
  have hw' : (0 : ℚ) < width := by exact_mod_cast hw0
  have hq : ((w * height : ℤ) / width : ℚ) ≤ height := by
    rw [div_le_iff₀ hw', mul_comm (height : ℚ)]
    exact_mod_cast mul_le_mul_of_nonneg_right hle hh0.le
  have hq31 : ((w * height : ℤ) / width : ℚ) ≤ 2 ^ 31 := hq.trans (by exact_mod_cast hh)
  obtain ⟨z, hz, hv⟩ := floatQuotient_hasValue ha hw0 hq31 (by norm_num)
  rw [proportionalHeight, hz, Outcome.ok_bind, hv.floor] at h
  obtain rfl := Except.ok.inj h
  refine ⟨floor_nearest_pos_iff ha hw0 hw, Int.floor_nonneg.mpr (nearest_nonneg _), ?_⟩
  -- the height itself is a value of binary64, so that rounding does not pass it
  obtain ⟨k, rfl⟩ := Int.eq_ofNat_of_zero_le hh0.le
  have hk : k ≤ 2 ^ 53 := by omega
  have hnearest := nearest_le_of_le (div_nonneg (by exact_mod_cast ha) hw'.le) hq
    (isBinary64_natCast hk)
  exact_mod_cast Int.floor_le_floor hnearest |>.trans_eq (Int.floor_natCast k)

/-- **Customary sizes** are those of the widths that are not passed over. -/
theorem forall₂_of_standardSizes {width height : ℤ} {widths : List ℤ} {sizes : List SizeEntry}
    (h : standardSizes width height widths = .ok sizes) :
    List.Forall₂ (fun w s => ∃ n, proportionalHeight width height w = .ok n ∧ s = ⟨false, w, n, []⟩)
      (widths.filter (· ≤ width)) sizes := by
  unfold standardSizes at h
  dsimp only at h
  split at h
  · cases h
  · refine (Outcome.mapM_eq_ok.mp h).imp fun w s hs => ?_
    obtain ⟨n, hn, hs⟩ := Outcome.bind_eq_ok.mp hs
    exact ⟨n, hn, (Except.ok.inj hs).symm⟩

/-- **Customary sizes** are in order exactly if the proportion of each is at least one. -/
theorem standardSizes_pos_iff {width height : ℤ} {widths : List ℤ} {sizes : List SizeEntry}
    (hw0 : 0 < width) (hw : width ≤ 2 ^ 31) (hh0 : 0 < height) (hh : height ≤ 2 ^ 31)
    (h0 : ∀ w ∈ widths, 0 < w) (h : standardSizes width height widths = .ok sizes) :
    (∀ s ∈ sizes, 0 < s.width ∧ 0 < s.height) ↔ ∀ w ∈ widths, w ≤ width → width ≤ w * height := by
  have hall := forall₂_of_standardSizes h
  constructor
  · intro hpos w hmem hle
    obtain ⟨s, hs, n, hn, rfl⟩ := Outcome.exists_of_forall₂ hall.flip
      (List.mem_filter.mpr ⟨hmem, by simpa using hle⟩)
    exact (proportionalHeight_eq_ok hw0 hw hh0 hh (h0 w hmem) hle hn).1.mp (hpos _ hs).2
  · intro hprop s hs
    obtain ⟨w, hw', n, hn, rfl⟩ := Outcome.exists_of_forall₂ hall hs
    obtain ⟨hmem, hle⟩ := List.mem_filter.mp hw'
    have hle := of_decide_eq_true hle
    exact ⟨h0 w hmem,
      (proportionalHeight_eq_ok hw0 hw hh0 hh (h0 w hmem) hle hn).1.mpr (hprop w hmem hle)⟩

/-- **Customary sizes** are no larger than the image. -/
theorem standardSizes_le {width height : ℤ} {widths : List ℤ} {sizes : List SizeEntry}
    (hw0 : 0 < width) (hw : width ≤ 2 ^ 31) (hh0 : 0 < height) (hh : height ≤ 2 ^ 31)
    (h0 : ∀ w ∈ widths, 0 < w) (h : standardSizes width height widths = .ok sizes) :
    ∀ s ∈ sizes, (0 ≤ s.width ∧ s.width ≤ width) ∧ 0 ≤ s.height ∧ s.height ≤ height := by
  intro s hs
  obtain ⟨w, hw', n, hn, rfl⟩ := Outcome.exists_of_forall₂ (forall₂_of_standardSizes h) hs
  obtain ⟨hmem, hle⟩ := List.mem_filter.mp hw'
  have hle := of_decide_eq_true hle
  exact ⟨⟨(h0 w hmem).le, hle⟩, (proportionalHeight_eq_ok hw0 hw hh0 hh (h0 w hmem) hle hn).2⟩

/-- The customary sizes of an image that is wide enough for all of them. -/
theorem standardSizes_customary {width height a b c : ℤ} (hw : 1200 ≤ width) (hh : 0 < height)
    (h₁ : proportionalHeight width height 150 = .ok a)
    (h₂ : proportionalHeight width height 600 = .ok b)
    (h₃ : proportionalHeight width height 1200 = .ok c) :
    standardSizes width height customaryWidths =
      .ok [⟨false, 150, a, []⟩, ⟨false, 600, b, []⟩, ⟨false, 1200, c, []⟩] := by
  have hkept : customaryWidths.filter (· ≤ width) = [150, 600, 1200] := by
    rw [customaryWidths, List.filter_eq_self]
    simp only [List.forall_mem_cons, decide_eq_true_eq]
    exact ⟨by omega, by omega, hw, by simp⟩
  have hpos : ¬(width ≤ 0 ∨ height ≤ 0) := by omega
  rw [standardSizes, if_neg hpos, hkept]
  refine Outcome.mapM_eq_ok.mpr (.cons ?_ (.cons ?_ (.cons ?_ .nil)))
  · rw [h₁]; rfl
  · rw [h₂]; rfl
  · rw [h₃]; rfl

/-- **Customary tiles** are of one layout, which is in order. -/
theorem standardTiles_eq_ok {tileWidth : ℤ} {factors : List ℤ} {tiles : List TileEntry}
    (h : standardTiles tileWidth factors = .ok tiles) :
    tiles = [⟨false, tileWidth, none, factors, []⟩] ∧ 0 < tileWidth ∧ factors ≠ [] ∧
      ∀ n ∈ factors, 0 < n := by
  unfold standardTiles at h
  obtain ⟨rfl, hnot⟩ := Outcome.ite_error_eq_ok.mp h
  simpa using hnot

/-! ### Entries of a plan without others beside them -/

theorem SizeEntry.ofJson_toJson_of_extras_eq_nil {s : SizeEntry} (h : s.extras = []) :
    SizeEntry.ofJson s.toJson = .ok s := by
  have hbeside : FieldName.Beside Field.ofSize (Json.present s.ownFields) s.extras := by
    rw [h]
    exact .nil (List.Subset.refl _)
  have hsettled : s.settled = s := by
    unfold settled
    rw [h]
    cases s
    cases h
    rfl
  rw [SizeEntry.ofJson_toJson hbeside, hsettled]

theorem TileEntry.ofJson_toJson_of_extras_eq_nil {t : TileEntry} (h : t.extras = []) :
    TileEntry.ofJson t.toJson = .ok t := by
  have hbeside : FieldName.Beside Field.ofTile (Json.present t.ownFields) t.extras := by
    rw [h]
    exact .nil (List.Subset.refl _)
  have hsettled : t.settled = t := by
    unfold settled
    rw [h]
    cases t
    cases h
    rfl
  rw [TileEntry.ofJson_toJson hbeside, hsettled]

theorem eq_of_forall₂_map {α : Type} {read : Json → Checked α} {write : α → Json} {as bs : List α}
    (h : List.Forall₂ (fun v b => read v = .ok b) (as.map write) bs)
    (hread : ∀ a ∈ as, read (write a) = .ok a) : bs = as := by
  have := Except.ok.inj ((Checked.all_eq_ok (i := 0) h).symm.trans (Checked.array_map hread))
  simpa using this

end IiifRules
