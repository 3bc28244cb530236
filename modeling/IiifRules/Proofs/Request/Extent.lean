import Mathlib
import IiifRules.Proofs.Request.Range
import IiifRules.Request.Check

/-! # The pixels of a region

A region in pixels may begin far outside the image or reach beyond its edges. What it has of the
image is the number of its columns and of its rows there, and it is in order exactly if it has a
pixel.

* `placesTaken`: the places of a line of pixels that a region takes.
* `clip_eq_card`: clipping counts them.
* `Segment.checkRegion_region`: how a region in pixels is judged.
* `Region.dimensions_counted`: both, for a region that is read. -/

namespace IiifRules

open Numeric

/-! ### Places -/

/-- **The places of a line** of `length` pixels that are among the `extent` pixels from `start`
on. -/
def placesTaken (start extent length : ℤ) : Finset ℕ :=
  (Finset.range length.toNat).filter fun place => start ≤ place ∧ place < start + extent

theorem clip_eq_card {start extent length : ℤ} (hs : 0 ≤ start) :
    clip start extent length = (placesTaken start extent length).card := by
  have hplaces : placesTaken start extent length =
      Finset.Ico start.toNat (min (start + extent) length).toNat := by
    ext place
    simp only [placesTaken, Finset.mem_filter, Finset.mem_range, Finset.mem_Ico]
    omega
  rw [hplaces, Nat.card_Ico]
  unfold clip
  omega

/-! ### Judging a region in pixels -/

variable {text : String} {r : Region} {x y w h width height : ℤ}

theorem Segment.checkRegion_region (hw : 0 < w) (hh : 0 < h) :
    (Segment.region (.pixels x y w h)).checkRegion (some width) (some height) =
      .ok (if 1 ≤ clip x w width ∧ 1 ≤ clip y h height then .ok (.region (.pixels x y w h))
        else .error .regionOutside) := by
  have hout : width ≤ x ∨ height ≤ y ↔ ¬(1 ≤ clip x w width ∧ 1 ≤ clip y h height) := by
    unfold clip
    omega
  unfold checkRegion
  dsimp only [pure_bind]
  by_cases hin : 1 ≤ clip x w width ∧ 1 ≤ clip y h height
  · rw [if_pos hin]
    exact if_neg (by rw [hout]; exact not_not_intro hin)
  · rw [if_neg hin]
    exact if_pos (hout.mpr hin)

theorem Segment.checkRegion_text (hr : Region.parse text = .ok (.ok r))
    (width? height? : Option ℤ) : (Segment.text text).checkRegion width? height? =
      (Segment.region r).checkRegion width? height? := by
  unfold checkRegion
  dsimp only
  rw [hr]
  rfl

/-! ### Regions that are read -/

namespace Region

theorem Spells.pixels_bounds {cs : List Char} (hs : Spells cs (.pixels x y w h)) :
    (0 ≤ x ∧ 0 < w) ∧ 0 ≤ y ∧ 0 < h := by
  cases hs with
  | pixels => omega

/-- **A region that is read has dimensions**, no larger than the image. One in pixels has as many as
there are columns and rows of the image in it, and it is in order exactly if both are at least
one. -/
theorem dimensions_counted (hr : parse text = .ok (.ok r)) (hw : 0 < width ∧ width ≤ 2 ^ 53)
    (hh : 0 < height ∧ height ≤ 2 ^ 53) : ∃ rw rh, r.dimensions width height = .ok (rw, rh) ∧
      (0 ≤ rw ∧ rw ≤ width) ∧ (0 ≤ rh ∧ rh ≤ height) ∧
      ∀ x y w h, r = .pixels x y w h →
        rw = (placesTaken x w width).card ∧ rh = (placesTaken y h height).card ∧
        ∀ s ∈ [Segment.text text, .region r], s.checkRegion (some width) (some height) =
          .ok (if 1 ≤ rw ∧ 1 ≤ rh then .ok (.region r) else .error .regionOutside) := by
  have hspells := spells_of_parse hr
  obtain ⟨rw, rh, hdim, hrw, hrh⟩ := exists_dimensions hspells hw.1 hw.2 hh.1 hh.2 (by norm_num)
  refine ⟨rw, rh, hdim, hrw, hrh, ?_⟩
  rintro x y w h rfl
  cases hdim
  obtain ⟨⟨hx0, hw0⟩, hy0, hh0⟩ := hspells.pixels_bounds
  refine ⟨clip_eq_card hx0, clip_eq_card hy0, fun s hs => ?_⟩
  rcases List.mem_pair.mp hs with rfl | rfl
  · rw [Segment.checkRegion_text hr]
    exact Segment.checkRegion_region hw0 hh0
  · exact Segment.checkRegion_region hw0 hh0

/-- A region of which the last ten columns of the last row are left. -/
theorem dimensions_counted_of_corner :
    parse "3990,2999,100,9007199254740993" = .ok (.ok (.pixels 3990 2999 100 9007199254740993)) ∧
    (Region.pixels 3990 2999 100 9007199254740993).dimensions 4000 3000 = .ok (10, 1) ∧
    (placesTaken 3990 100 4000).card = 10 ∧ (placesTaken 2999 9007199254740993 3000).card = 1 ∧
    (Segment.text "3990,2999,100,9007199254740993").checkRegion (some 4000) (some 3000) =
      .ok (.ok (.region (.pixels 3990 2999 100 9007199254740993))) := by
  have hr : parse "3990,2999,100,9007199254740993" =
      .ok (.ok (.pixels 3990 2999 100 9007199254740993)) := by decide +kernel
  have hten : (Region.pixels 3990 2999 100 9007199254740993).dimensions 4000 3000 =
      .ok (10, 1) := by decide +kernel
  obtain ⟨rw, rh, hdim, -, -, hpixels⟩ :=
    dimensions_counted hr (show (0 : ℤ) < 4000 ∧ 4000 ≤ 2 ^ 53 by decide)
      (show (0 : ℤ) < 3000 ∧ 3000 ≤ 2 ^ 53 by decide)
  rw [hten] at hdim
  cases hdim
  obtain ⟨hcolumns, hrows, hcheck⟩ := hpixels _ _ _ _ rfl
  exact ⟨hr, hten, by omega, by omega, hcheck _ (by simp)⟩

end Region

end IiifRules
