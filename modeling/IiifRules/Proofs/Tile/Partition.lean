import Mathlib
import IiifRules.Proofs.Tile.Count

/-! # The tiles of a grid partition the image

* `Grid.tiles_eq`: the tiles are those at the counted places.
* `Grid.covers_tileAt_iff`: the tile that covers a pixel is the one at its quotients.
* `Grid.tiles_partition`: every pixel lies in exactly one tile, no tile is empty or reaches beyond
  the image, and the tiles come row by row. -/

namespace IiifRules

/-- The pixel lies in the region of the tile. -/
def Tile.Covers (t : Tile) (px py : ℤ) : Prop :=
  (t.x ≤ px ∧ px < t.x + t.width) ∧ t.y ≤ py ∧ py < t.y + t.height

/-- The tile is not empty and lies in an image of the given size. -/
structure Tile.Inside (t : Tile) (fullWidth fullHeight : ℤ) : Prop where
  width_pos : 0 < t.width
  height_pos : 0 < t.height
  x_nonneg : 0 ≤ t.x
  y_nonneg : 0 ≤ t.y
  x_le : t.x + t.width ≤ fullWidth
  y_le : t.y + t.height ≤ fullHeight

/-- The tile comes first in row-major order. -/
def Tile.Precedes (s t : Tile) : Prop := s.y < t.y ∨ s.y = t.y ∧ s.x < t.x

namespace Grid

variable {g : Grid} {columns rows column row px py : ℤ}

theorem tiles_eq (hg : g.Moderate) (hcount : g.count = .ok (columns, rows))
    (hcolumns : Covering columns (g.tileWidth * g.scaleFactor) g.fullWidth)
    (hrows : Covering rows (g.tileHeight * g.scaleFactor) g.fullHeight) :
    g.tiles = .ok ((places columns rows).map fun p => g.tileAt p.1 p.2) := by
  unfold tiles
  rw [mapTiles_eq hg hcount hcolumns hrows]
  exact Outcome.mapM_eq_ok_map fun _ _ => rfl

/-! ### One tile -/

theorem tileAt_x (g : Grid) (column row : ℤ) :
    (g.tileAt column row).x = column * (g.tileWidth * g.scaleFactor) := mul_assoc _ _ _

theorem tileAt_y (g : Grid) (column row : ℤ) :
    (g.tileAt column row).y = row * (g.tileHeight * g.scaleFactor) := mul_assoc _ _ _

theorem tileAt_width (g : Grid) (column row : ℤ) : (g.tileAt column row).width =
    min (g.tileWidth * g.scaleFactor)
      (g.fullWidth - column * (g.tileWidth * g.scaleFactor)) := by
  rw [← mul_assoc]
  rfl

theorem tileAt_height (g : Grid) (column row : ℤ) : (g.tileAt column row).height =
    min (g.tileHeight * g.scaleFactor)
      (g.fullHeight - row * (g.tileHeight * g.scaleFactor)) := by
  rw [← mul_assoc]
  rfl

/-- **A tile at a counted place** is not empty and lies in the image. -/
theorem tileAt_inside (hcolumns : Covering columns (g.tileWidth * g.scaleFactor) g.fullWidth)
    (hrows : Covering rows (g.tileHeight * g.scaleFactor) g.fullHeight)
    (hc : 0 ≤ column ∧ column < columns) (hr : 0 ≤ row ∧ row < rows) :
    (g.tileAt column row).Inside g.fullWidth g.fullHeight := by
  have hx := hcolumns.mul_lt hc.2
  have hy := hrows.mul_lt hr.2
  have hx0 := mul_nonneg hc.1 hcolumns.step_pos.le
  have hy0 := mul_nonneg hr.1 hrows.step_pos.le
  have hw := hcolumns.step_pos
  have hh := hrows.step_pos
  constructor
  · rw [tileAt_width]; omega
  · rw [tileAt_height]; omega
  · rw [tileAt_x]; exact hx0
  · rw [tileAt_y]; exact hy0
  · rw [tileAt_x, tileAt_width]; omega
  · rw [tileAt_y, tileAt_height]; omega

/-- **The tile that covers a pixel** is the one at its quotients. -/
theorem covers_tileAt_iff (hcolumns : Covering columns (g.tileWidth * g.scaleFactor) g.fullWidth)
    (hrows : Covering rows (g.tileHeight * g.scaleFactor) g.fullHeight)
    (hx : px < g.fullWidth) (hy : py < g.fullHeight) :
    (g.tileAt column row).Covers px py ↔ column = px / (g.tileWidth * g.scaleFactor) ∧
      row = py / (g.tileHeight * g.scaleFactor) := by
  unfold Tile.Covers
  rw [tileAt_x, tileAt_y, tileAt_width, tileAt_height,
    Covering.mem_strip_iff hcolumns.step_pos hx, Covering.mem_strip_iff hrows.step_pos hy]

theorem tileAt_precedes (hw : 0 < g.tileWidth * g.scaleFactor)
    (hh : 0 < g.tileHeight * g.scaleFactor) {p q : ℤ × ℤ}
    (h : p.2 < q.2 ∨ p.2 = q.2 ∧ p.1 < q.1) :
    (g.tileAt p.1 p.2).Precedes (g.tileAt q.1 q.2) := by
  unfold Tile.Precedes
  rw [tileAt_x, tileAt_y, tileAt_x, tileAt_y]
  rcases h with hrow | ⟨hrow, hcolumn⟩
  · left
    exact mul_lt_mul_of_pos_right hrow hh
  · right
    rw [hrow]
    exact ⟨rfl, mul_lt_mul_of_pos_right hcolumn hw⟩

/-! ### All tiles -/

/-- **The tiles partition the image.** There are as many as columns and rows are counted, each lies
in the image and is not empty, each pixel lies in exactly one, and they come row by row. -/
theorem tiles_partition (g : Grid) (hg : g.Moderate) :
    ∃ ts columns rows, g.tiles = .ok ts ∧ g.count = .ok (columns, rows) ∧
      (ts.length : ℤ) = columns * rows ∧
      (∀ t ∈ ts, t.Inside g.fullWidth g.fullHeight) ∧
      (∀ px py, 0 ≤ px → px < g.fullWidth → 0 ≤ py → py < g.fullHeight →
        ∃! t, t ∈ ts ∧ t.Covers px py) ∧
      ts.Pairwise Tile.Precedes := by
  obtain ⟨columns, rows, hcount, hcolumns, hrows⟩ := exists_count hg
  refine ⟨_, columns, rows, tiles_eq hg hcount hcolumns hrows, hcount, ?_, ?_, ?_, ?_⟩
  · rw [List.length_map, length_places, Nat.cast_mul, Int.toNat_of_nonneg hcolumns.pos.le,
      Int.toNat_of_nonneg hrows.pos.le]
  · intro t ht
    obtain ⟨⟨column, row⟩, hmem, rfl⟩ := List.mem_map.mp ht
    obtain ⟨hc, hr⟩ := mem_places.mp hmem
    exact tileAt_inside hcolumns hrows hc hr
  · intro px py hx0 hx hy0 hy
    have hcolumn := Int.ediv_nonneg hx0 hcolumns.step_pos.le
    have hrow := Int.ediv_nonneg hy0 hrows.step_pos.le
    refine ⟨g.tileAt (px / (g.tileWidth * g.scaleFactor)) (py / (g.tileHeight * g.scaleFactor)),
      ⟨List.mem_map.mpr ⟨(_, _), mem_places.mpr ⟨⟨hcolumn, hcolumns.ediv_lt hx⟩, hrow,
        hrows.ediv_lt hy⟩, rfl⟩, (covers_tileAt_iff hcolumns hrows hx hy).mpr ⟨rfl, rfl⟩⟩, ?_⟩
    rintro t ⟨ht, hcovers⟩
    obtain ⟨⟨column, row⟩, -, rfl⟩ := List.mem_map.mp ht
    obtain ⟨rfl, rfl⟩ := (covers_tileAt_iff hcolumns hrows hx hy).mp hcovers
    rfl
  · rw [List.pairwise_map]
    exact (pairwise_places columns rows).imp (tileAt_precedes hcolumns.step_pos hrows.step_pos)

/-- An image of 1000 by 800 pixels in tiles of 256 by 256: sixteen of them. -/
theorem tiles_partition_of_256 : ∃ ts, (⟨1000, 800, 256, 256, 1⟩ : Grid).tiles = .ok ts ∧
    ts.length = 16 ∧ (∃! t, t ∈ ts ∧ t.Covers 999 799) ∧ ts.Pairwise Tile.Precedes := by
  obtain ⟨ts, columns, rows, hts, hcount, hlength, -, hcovers, horder⟩ :=
    tiles_partition ⟨1000, 800, 256, 256, 1⟩
      ⟨by decide, by decide, by decide, by decide, by decide⟩
  have hfour : (⟨1000, 800, 256, 256, 1⟩ : Grid).count = .ok (4, 4) := by decide +kernel
  rw [hfour] at hcount
  cases hcount
  exact ⟨ts, hts, by omega, hcovers 999 799 (by decide) (by decide) (by decide) (by decide), horder⟩

end Grid

end IiifRules
