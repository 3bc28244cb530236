import Mathlib
import IiifRules.Proofs.Tile.Partition

/-! # The delivered tiles make up the scaled image

Each tile is scaled on its own: its width and its height, clipped to the image, are divided by the
scale factor and rounded up. Nevertheless the delivered tiles are those of one scaled image, whose
width and height are the rounded up quotients of the full ones: the rounding shows in the last
column and in the last row only, since every other tile is a multiple of the scale factor.

* `Covering.strip`: what a strip comes to when it is scaled.
* `Covering.sum_strips`: scaled strips lie side by side without a gap.
* `Grid.Reassembled`, `Grid.tiles_reassemble`: the delivered tiles, row by row and column by
  column. -/

namespace IiifRules

open Numeric

/-! ### Strips of a scaled length -/

namespace Covering

variable {m n tile factor length i : ℤ}

/-- **A strip, clipped and then scaled**, is the strip of the scaled length, clipped. -/
theorem strip (hm : Covering m factor length) (hn : Covering n tile m) (hi : i < n) :
    Covering (min tile (m - i * tile)) factor
      (min (tile * factor) (length - i * (tile * factor))) := by
  have hbegin := hn.mul_lt hi
  have htile := hn.step_pos
  have hfactor := hm.step_pos
  have hlast := hm.last_lt
  have hle := hm.le_mul
  rw [← mul_assoc]
  -- The scaled strip, less one pixel, is below both bounds; the whole one reaches the lower one.
  have hclip : (m - i * tile) * factor = m * factor - i * tile * factor := sub_mul _ _ _
  refine ⟨by omega, hfactor, lt_min ?_ ?_, ?_⟩
  · exact mul_lt_mul_of_pos_right (by omega) hfactor
  · have hmul : (min tile (m - i * tile) - 1) * factor ≤ (m - 1) * factor - i * tile * factor := by
      rw [← sub_mul]
      exact mul_le_mul_of_nonneg_right (by omega) hfactor.le
    omega
  · rcases min_choice tile (m - i * tile) with h | h
    · rw [h]
      exact min_le_left _ _
    · rw [h, hclip]
      exact (min_le_right _ _).trans (by omega)

/-- **Scaled strips side by side** make up the scaled length. -/
theorem sum_strips (hn : Covering n tile m) :
    ((List.range n.toNat).map fun i : ℕ => min tile (m - i * tile)).sum = m := by
  have hpartial : ∀ k : ℕ, (k : ℤ) ≤ n →
      ((List.range k).map fun i : ℕ => min tile (m - i * tile)).sum = min m (k * tile) := by
    intro k hk
    induction k with
    | zero =>
      have hm : 0 < m := by simpa using hn.mul_lt hn.pos
      simp [hm.le]
    | succ k ih =>
      have hbegin := hn.mul_lt (i := k) (by omega)
      rw [List.sum_range_succ, ih (by omega)]
      push_cast
      rw [add_mul, one_mul]
      omega
  rw [hpartial _ (by rw [Int.toNat_of_nonneg hn.pos.le]), Int.toNat_of_nonneg hn.pos.le]
  exact min_eq_left hn.le_mul

theorem one_le_strip (hn : Covering n tile m) (hi : i < n) : 1 ≤ min tile (m - i * tile) := by
  have := hn.mul_lt hi
  have := hn.step_pos
  omega

theorem strip_eq (hn : Covering n tile m) (hi : i + 1 < n) : min tile (m - i * tile) = tile := by
  have hnext := hn.mul_lt hi
  rw [add_mul, one_mul] at hnext
  omega

theorem ceilQuotient_eq (hl : 0 < length ∧ length ≤ 2 ^ 53) (hf : 0 < factor ∧ factor ≤ 2 ^ 53) :
    ceilQuotient length factor = .ok ⌈(length / factor : ℚ)⌉ := by
  obtain ⟨n, hn, hcover⟩ := exists_ceilQuotient hl hf
  rw [hn, hcover.unique (ceil hl.1 hf.1)]

end Covering

/-! ### Rows and columns of places -/

theorem flatMap_range_ite {α : Type} (f : ℕ → List α) {k n : ℕ} (hk : k < n) :
    ((List.range n).flatMap fun i => if i = k then f i else []) = f k := by
  induction n with
  | zero => omega
  | succ n ih =>
    rw [List.range_succ, List.flatMap_append, List.flatMap_singleton]
    rcases Nat.lt_or_eq_of_le (Nat.lt_succ_iff.mp hk) with hlt | rfl
    · rw [ih hlt, if_neg hlt.ne', List.append_nil]
    · rw [if_pos rfl, List.flatMap_eq_nil_iff.mpr, List.nil_append]
      intro i hi
      exact if_neg (List.mem_range.mp hi).ne

namespace Grid

variable {columns rows column row : ℤ}

theorem filter_places_row (hr : 0 ≤ row ∧ row < rows) :
    ((places columns rows).filter fun p => p.2 = row) =
      (List.range columns.toNat).map fun c : ℕ => ((c : ℤ), row) := by
  obtain ⟨k, rfl⟩ := Int.eq_ofNat_of_zero_le hr.1
  unfold places
  rw [List.filter_flatMap]
  refine Eq.trans (List.flatMap_congr fun r _ => ?_)
    (flatMap_range_ite (fun r => (List.range columns.toNat).map fun c : ℕ => ((c : ℤ), (r : ℤ)))
      (show k < rows.toNat by omega))
  rw [List.filter_map]
  split_ifs with h
  · rw [h, List.filter_eq_self.mpr (by simp)]
  · rw [List.filter_eq_nil_iff.mpr fun c _ => by simpa using h, List.map_nil]

theorem filter_places_column (hc : 0 ≤ column ∧ column < columns) :
    ((places columns rows).filter fun p => p.1 = column) =
      (List.range rows.toNat).map fun r : ℕ => (column, (r : ℤ)) := by
  obtain ⟨k, rfl⟩ := Int.eq_ofNat_of_zero_le hc.1
  unfold places
  rw [List.filter_flatMap, List.map_eq_flatMap]
  refine List.flatMap_congr fun r _ => ?_
  have hone : ((List.range columns.toNat).filter fun c => c = k) = [k] := by
    rw [List.filter_eq, List.count_range, if_pos (by omega)]
    rfl
  rw [List.filter_map]
  simp only [Function.comp_def, Int.ofNat_inj]
  rw [hone]
  rfl

end Grid

/-! ### Delivered tiles -/

/-- The exact size of a delivered tile: width and height over the scale factor, rounded up. -/
def Tile.scaledSize (t : Tile) : ℤ × ℤ :=
  (⌈(t.width / t.scaleFactor : ℚ)⌉, ⌈(t.height / t.scaleFactor : ℚ)⌉)

namespace Grid

variable {g : Grid} {columns rows column row : ℤ}

theorem outputSize_tileAt (hg : g.Moderate)
    (hcolumns : Covering columns (g.tileWidth * g.scaleFactor) g.fullWidth)
    (hrows : Covering rows (g.tileHeight * g.scaleFactor) g.fullHeight)
    (hc : 0 ≤ column ∧ column < columns) (hr : 0 ≤ row ∧ row < rows) :
    (g.tileAt column row).outputSize = .ok (g.tileAt column row).scaledSize := by
  have hin := tileAt_inside hcolumns hrows hc hr
  have hw := hg.fullWidth.2
  have hh := hg.fullHeight.2
  have hwidth : (g.tileAt column row).width ≤ 2 ^ 53 := by linarith [hin.x_nonneg, hin.x_le]
  have hheight : (g.tileAt column row).height ≤ 2 ^ 53 := by linarith [hin.y_nonneg, hin.y_le]
  have hfactor : (g.tileAt column row).scaleFactor = g.scaleFactor := rfl
  unfold Tile.outputSize
  rw [hfactor, Covering.ceilQuotient_eq ⟨hin.width_pos, hwidth⟩ hg.scaleFactor,
    Covering.ceilQuotient_eq ⟨hin.height_pos, hheight⟩ hg.scaleFactor]
  rfl

/-- **The delivered width in a column** is that of a strip of the scaled width. -/
theorem scaledSize_tileAt_fst (hg : g.Positive)
    (hcolumns : Covering columns (g.tileWidth * g.scaleFactor) g.fullWidth)
    (hc : column < columns) (row : ℤ) : (g.tileAt column row).scaledSize.1 =
      min g.tileWidth (⌈(g.fullWidth / g.scaleFactor : ℚ)⌉ - column * g.tileWidth) := by
  have hscaled := Covering.ceil hg.fullWidth hg.scaleFactor
  have hstrip := hscaled.strip (hscaled.of_trans hcolumns) hc
  have hpos : 0 < (g.tileAt column row).width := by
    rw [tileAt_width]
    have := hcolumns.mul_lt hc
    have := hcolumns.step_pos
    omega
  refine (Covering.ceil hpos hg.scaleFactor).unique ?_
  rw [tileAt_width]
  exact hstrip

/-- **The delivered height in a row** is that of a strip of the scaled height. -/
theorem scaledSize_tileAt_snd (hg : g.Positive)
    (hrows : Covering rows (g.tileHeight * g.scaleFactor) g.fullHeight)
    (hr : row < rows) (column : ℤ) : (g.tileAt column row).scaledSize.2 =
      min g.tileHeight (⌈(g.fullHeight / g.scaleFactor : ℚ)⌉ - row * g.tileHeight) := by
  have hscaled := Covering.ceil hg.fullHeight hg.scaleFactor
  have hstrip := hscaled.strip (hscaled.of_trans hrows) hr
  have hpos : 0 < (g.tileAt column row).height := by
    rw [tileAt_height]
    have := hrows.mul_lt hr
    have := hrows.step_pos
    omega
  refine (Covering.ceil hpos hg.scaleFactor).unique ?_
  rw [tileAt_height]
  exact hstrip

/-! ### All delivered tiles -/

theorem exists_place {t : Tile} (ht : t ∈ (places columns rows).map fun p => g.tileAt p.1 p.2) :
    ∃ column row : ℤ, (0 ≤ column ∧ column < columns) ∧ (0 ≤ row ∧ row < rows) ∧
      g.tileAt column row = t := by
  obtain ⟨⟨column, row⟩, hmem, rfl⟩ := List.mem_map.mp ht
  obtain ⟨hc, hr⟩ := mem_places.mp hmem
  exact ⟨column, row, hc, hr, rfl⟩

theorem sum_row (hg : g.Positive)
    (hcolumns : Covering columns (g.tileWidth * g.scaleFactor) g.fullWidth)
    (hheight : 0 < g.tileHeight * g.scaleFactor) (hr : 0 ≤ row ∧ row < rows) (column : ℤ) :
    ((((places columns rows).map fun p => g.tileAt p.1 p.2).filter fun t =>
      t.y = (g.tileAt column row).y).map fun t => t.scaledSize.1).sum =
        ⌈(g.fullWidth / g.scaleFactor : ℚ)⌉ := by
  have hwide := (Covering.ceil hg.fullWidth hg.scaleFactor).of_trans hcolumns
  have hrow : ∀ p : ℤ × ℤ, (g.tileAt p.1 p.2).y = (g.tileAt column row).y ↔ p.2 = row := by
    intro p
    rw [tileAt_y, tileAt_y, mul_left_inj' hheight.ne']
  rw [List.filter_map]
  simp only [Function.comp_def, hrow]
  rw [filter_places_row hr, List.map_map, List.map_map, ← hwide.sum_strips]
  refine congrArg List.sum (List.map_congr_left fun c hc => ?_)
  exact scaledSize_tileAt_fst hg hcolumns (Int.lt_toNat.mp (List.mem_range.mp hc)) row

theorem sum_column (hg : g.Positive)
    (hrows : Covering rows (g.tileHeight * g.scaleFactor) g.fullHeight)
    (hwidth : 0 < g.tileWidth * g.scaleFactor) (hc : 0 ≤ column ∧ column < columns) (row : ℤ) :
    ((((places columns rows).map fun p => g.tileAt p.1 p.2).filter fun t =>
      t.x = (g.tileAt column row).x).map fun t => t.scaledSize.2).sum =
        ⌈(g.fullHeight / g.scaleFactor : ℚ)⌉ := by
  have hhigh := (Covering.ceil hg.fullHeight hg.scaleFactor).of_trans hrows
  have hcolumn : ∀ p : ℤ × ℤ, (g.tileAt p.1 p.2).x = (g.tileAt column row).x ↔ p.1 = column := by
    intro p
    rw [tileAt_x, tileAt_x, mul_left_inj' hwidth.ne']
  rw [List.filter_map]
  simp only [Function.comp_def, hcolumn]
  rw [filter_places_column hc, List.map_map, List.map_map, ← hhigh.sum_strips]
  refine congrArg List.sum (List.map_congr_left fun r hr => ?_)
  exact scaledSize_tileAt_snd hg hrows (Int.lt_toNat.mp (List.mem_range.mp hr)) column

/-- **Delivered tiles make up the scaled image**: none is empty or larger than a tile, all but those
in the last column have the full width and all but those in the last row the full height, and each
row of them is as wide as the scaled image and each column as high. -/
structure Reassembled (g : Grid) (ts : List Tile) : Prop where
  width_pos : ∀ t ∈ ts, 1 ≤ t.scaledSize.1
  width_le : ∀ t ∈ ts, t.scaledSize.1 ≤ g.tileWidth
  height_pos : ∀ t ∈ ts, 1 ≤ t.scaledSize.2
  height_le : ∀ t ∈ ts, t.scaledSize.2 ≤ g.tileHeight
  width_eq : ∀ s ∈ ts, ∀ t ∈ ts, s.x < t.x → s.scaledSize.1 = g.tileWidth
  height_eq : ∀ s ∈ ts, ∀ t ∈ ts, s.y < t.y → s.scaledSize.2 = g.tileHeight
  row_width : ∀ s ∈ ts, ((ts.filter fun t => t.y = s.y).map fun t => t.scaledSize.1).sum =
    ⌈(g.fullWidth / g.scaleFactor : ℚ)⌉
  column_height : ∀ s ∈ ts, ((ts.filter fun t => t.x = s.x).map fun t => t.scaledSize.2).sum =
    ⌈(g.fullHeight / g.scaleFactor : ℚ)⌉

theorem reassembled_map_places (hg : g.Positive)
    (hcolumns : Covering columns (g.tileWidth * g.scaleFactor) g.fullWidth)
    (hrows : Covering rows (g.tileHeight * g.scaleFactor) g.fullHeight) :
    g.Reassembled ((places columns rows).map fun p => g.tileAt p.1 p.2) := by
  have hwide := (Covering.ceil hg.fullWidth hg.scaleFactor).of_trans hcolumns
  have hhigh := (Covering.ceil hg.fullHeight hg.scaleFactor).of_trans hrows
  constructor
  case width_pos =>
    intro t ht
    obtain ⟨column, row, hc, -, rfl⟩ := exists_place ht
    rw [scaledSize_tileAt_fst hg hcolumns hc.2]
    exact hwide.one_le_strip hc.2
  case width_le =>
    intro t ht
    obtain ⟨column, row, hc, -, rfl⟩ := exists_place ht
    rw [scaledSize_tileAt_fst hg hcolumns hc.2]
    exact min_le_left _ _
  case height_pos =>
    intro t ht
    obtain ⟨column, row, -, hr, rfl⟩ := exists_place ht
    rw [scaledSize_tileAt_snd hg hrows hr.2]
    exact hhigh.one_le_strip hr.2
  case height_le =>
    intro t ht
    obtain ⟨column, row, -, hr, rfl⟩ := exists_place ht
    rw [scaledSize_tileAt_snd hg hrows hr.2]
    exact min_le_left _ _
  case width_eq =>
    intro s hs t ht hlt
    obtain ⟨column, row, hc, -, rfl⟩ := exists_place hs
    obtain ⟨column', row', hc', -, rfl⟩ := exists_place ht
    rw [tileAt_x, tileAt_x] at hlt
    have hbefore : column < column' := lt_of_mul_lt_mul_right hlt hcolumns.step_pos.le
    rw [scaledSize_tileAt_fst hg hcolumns hc.2]
    exact hwide.strip_eq (by omega)
  case height_eq =>
    intro s hs t ht hlt
    obtain ⟨column, row, -, hr, rfl⟩ := exists_place hs
    obtain ⟨column', row', -, hr', rfl⟩ := exists_place ht
    rw [tileAt_y, tileAt_y] at hlt
    have hbefore : row < row' := lt_of_mul_lt_mul_right hlt hrows.step_pos.le
    rw [scaledSize_tileAt_snd hg hrows hr.2]
    exact hhigh.strip_eq (by omega)
  case row_width =>
    intro s hs
    obtain ⟨column, row, -, hr, rfl⟩ := exists_place hs
    exact sum_row hg hcolumns hrows.step_pos hr column
  case column_height =>
    intro s hs
    obtain ⟨column, row, hc, -, rfl⟩ := exists_place hs
    exact sum_column hg hrows hcolumns.step_pos hc row

/-- **The delivered tiles make up the scaled image**, though each is scaled and rounded on its
own. -/
theorem tiles_reassemble (hg : g.Moderate) : ∃ ts, g.tiles = .ok ts ∧ ts ≠ [] ∧
    (∀ t ∈ ts, t.outputSize = .ok t.scaledSize) ∧ g.Reassembled ts := by
  obtain ⟨columns, rows, hcount, hcolumns, hrows⟩ := exists_count hg
  refine ⟨_, tiles_eq hg hcount hcolumns hrows, ?_, ?_,
    reassembled_map_places hg.positive hcolumns hrows⟩
  · have hmem : (0, 0) ∈ places columns rows := by
      rw [mem_places]
      exact ⟨⟨le_rfl, hcolumns.pos⟩, le_rfl, hrows.pos⟩
    exact List.ne_nil_of_mem (List.mem_map_of_mem hmem)
  · intro t ht
    obtain ⟨column, row, hc, hr, rfl⟩ := exists_place ht
    exact outputSize_tileAt hg hcolumns hrows hc hr

/-- At scale factor 3, which divides neither side of an image of 1001 by 801 pixels, the rows of
tiles are delivered 334 pixels wide and the columns 267 pixels high. -/
theorem tiles_reassemble_of_third : ∃ ts, (⟨1001, 801, 100, 100, 3⟩ : Grid).tiles = .ok ts ∧
    ts ≠ [] ∧ (∀ t ∈ ts, t.outputSize = .ok t.scaledSize) ∧
    ∀ s ∈ ts, ((ts.filter fun t => t.y = s.y).map fun t => t.scaledSize.1).sum = 334 ∧
      ((ts.filter fun t => t.x = s.x).map fun t => t.scaledSize.2).sum = 267 := by
  obtain ⟨ts, hts, hne, hsize, hg⟩ := tiles_reassemble (g := ⟨1001, 801, 100, 100, 3⟩)
    ⟨by decide, by decide, by decide, by decide, by decide⟩
  have hwidth : ⌈((1001 : ℤ) / (3 : ℤ) : ℚ)⌉ = 334 := by norm_num
  have hheight : ⌈((801 : ℤ) / (3 : ℤ) : ℚ)⌉ = 267 := by norm_num
  exact ⟨ts, hts, hne, hsize, fun s hs =>
    ⟨(hg.row_width s hs).trans hwidth, (hg.column_height s hs).trans hheight⟩⟩

end Grid

end IiifRules
