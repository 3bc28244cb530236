import Mathlib
import IiifRules.Proofs.Numeric.Value
import IiifRules.Proofs.Outcome
import IiifRules.Tile.Grid

/-! # The columns and rows of a grid

In one direction a grid is a number of strips of equal width, the last of which may reach beyond the
image. `Covering n step length` says that `n` strips of width `step` are just enough for a length.

* `Grid.exists_count`: the counted columns and rows are just enough, although they are computed from
  rounded quotients.
* `Grid.exists_tile_iff`: there is a tile at a place exactly if its column and row are counted.
* `Grid.mapTiles_eq`, `Grid.exists_mapTiles`: what is made of the tiles is made at each place of that
  many columns and rows. -/

namespace IiifRules

open Numeric

/-! ### Strips -/

/-- **Just enough strips** of width `step` to cover `length`. -/
structure Covering (n step length : ℤ) : Prop where
  pos : 0 < n
  step_pos : 0 < step
  last_lt : (n - 1) * step < length
  le_mul : length ≤ n * step

namespace Covering

variable {n step length i p : ℤ}

theorem mul_lt (h : Covering n step length) (hi : i < n) : i * step < length :=
  lt_of_le_of_lt (mul_le_mul_of_nonneg_right (by omega) h.step_pos.le) h.last_lt

/-- **The strips that begin within the length** are those before the last one and the last one. -/
theorem mul_lt_iff (h : Covering n step length) : i * step < length ↔ i < n :=
  ⟨fun hlt => lt_of_mul_lt_mul_right (hlt.trans_le h.le_mul) h.step_pos.le, h.mul_lt⟩

/-- The strip of a point is one of those counted. -/
theorem ediv_lt (h : Covering n step length) (hp : p < length) : p / step < n := by
  rw [Int.ediv_lt_iff_lt_mul h.step_pos]
  exact lt_of_lt_of_le hp h.le_mul

theorem le_length (h : Covering n step length) : n ≤ length := by
  have hmul : n - 1 ≤ (n - 1) * step := le_mul_of_one_le_right (by linarith [h.pos]) h.step_pos
  have hlast := h.last_lt
  omega

theorem le_of_le_mul {m : ℤ} (h : Covering n step length) (hm : length ≤ m * step) : n ≤ m := by
  have hlt := lt_of_mul_lt_mul_right (h.last_lt.trans_le hm) h.step_pos.le
  omega

theorem unique {m : ℤ} (hm : Covering m step length) (hn : Covering n step length) : m = n :=
  le_antisymm (hm.le_of_le_mul hn.le_mul) (hn.le_of_le_mul hm.le_mul)

/-- **The exact quotient, rounded up**, is just enough. -/
theorem ceil (hl : 0 < length) (hs : 0 < step) : Covering ⌈(length / step : ℚ)⌉ step length := by
  have hs' : (0 : ℚ) < step := by exact_mod_cast hs
  refine ⟨Int.ceil_pos.mpr (div_pos (by exact_mod_cast hl) hs'), hs, ?_, ?_⟩
  · have := Int.ceil_lt_add_one (length / step : ℚ)
    rw [← sub_lt_iff_lt_add, lt_div_iff₀ hs'] at this
    exact_mod_cast this
  · have := Int.le_ceil (length / step : ℚ)
    rw [div_le_iff₀ hs'] at this
    exact_mod_cast this

/-- Strips of strips: as many wide ones as are needed for the narrow ones. -/
theorem trans {m wide : ℤ} (hm : Covering m step length) (hn : Covering n wide m) :
    Covering n (wide * step) length where
  pos := hn.pos
  step_pos := mul_pos hn.step_pos hm.step_pos
  last_lt := by
    rw [← mul_assoc]
    exact hm.mul_lt hn.last_lt
  le_mul := by
    rw [← mul_assoc]
    exact hm.le_mul.trans (mul_le_mul_of_nonneg_right hn.le_mul hm.step_pos.le)

/-- Wide strips are just enough for the narrow ones that they are made of. -/
theorem of_trans {m wide : ℤ} (hm : Covering m step length)
    (hn : Covering n (wide * step) length) : Covering n wide m where
  pos := hn.pos
  step_pos := pos_of_mul_pos_left hn.step_pos hm.step_pos.le
  last_lt := hm.mul_lt_iff.mp (by rw [mul_assoc]; exact hn.last_lt)
  le_mul := hm.le_of_le_mul (by rw [mul_assoc]; exact hn.le_mul)

/-- **A point lies in exactly one strip**, clipped to the length: that of its quotient. -/
theorem mem_strip_iff (hstep : 0 < step) (hp : p < length) :
    (i * step ≤ p ∧ p < i * step + min step (length - i * step)) ↔ i = p / step := by
  have hdiv : i = p / step ↔ i * step ≤ p ∧ p < (i + 1) * step := by
    rw [← Int.le_ediv_iff_mul_le hstep, ← Int.ediv_lt_iff_lt_mul hstep]
    omega
  rw [hdiv, add_mul, one_mul]
  omega

/-- **A quotient rounded up counts strips.** -/
theorem exists_ceilQuotient {length step : ℤ} (hl : 0 < length ∧ length ≤ 2 ^ 53)
    (hs : 0 < step ∧ step ≤ 2 ^ 53) :
    ∃ n, ceilQuotient length step = .ok n ∧ Covering n step length := by
  obtain ⟨n, hn, hpos, hlow, hhigh⟩ := Numeric.exists_ceilQuotient hl.1 hl.2 hs.1 hs.2
  exact ⟨n, hn, hpos, hs.1, hlow, hhigh⟩

/-- A length divided by a scale factor and then by the width of a tile, rounded up both times. -/
theorem exists_nested_ceilQuotient {length factor tile : ℤ} (hl : 0 < length ∧ length ≤ 2 ^ 53)
    (hf : 0 < factor ∧ factor ≤ 2 ^ 53) (ht : 0 < tile ∧ tile ≤ 2 ^ 53) :
    ∃ m n, ceilQuotient length factor = .ok m ∧ ceilQuotient m tile = .ok n ∧
      Covering n (tile * factor) length := by
  obtain ⟨m, hm, hmcover⟩ := exists_ceilQuotient hl hf
  obtain ⟨n, hn, hncover⟩ := exists_ceilQuotient ⟨hmcover.pos, hmcover.le_length.trans hl.2⟩ ht
  exact ⟨m, n, hm, hn, hmcover.trans hncover⟩

end Covering

namespace Grid

/-- Every quantity of the grid is positive. -/
structure Positive (g : Grid) : Prop where
  fullWidth : 0 < g.fullWidth
  fullHeight : 0 < g.fullHeight
  tileWidth : 0 < g.tileWidth
  tileHeight : 0 < g.tileHeight
  scaleFactor : 0 < g.scaleFactor

/-- **Every quantity of the grid is positive and at most `2^53`**, so that it is a binary64 number
itself. -/
structure Moderate (g : Grid) : Prop where
  fullWidth : 0 < g.fullWidth ∧ g.fullWidth ≤ 2 ^ 53
  fullHeight : 0 < g.fullHeight ∧ g.fullHeight ≤ 2 ^ 53
  tileWidth : 0 < g.tileWidth ∧ g.tileWidth ≤ 2 ^ 53
  tileHeight : 0 < g.tileHeight ∧ g.tileHeight ≤ 2 ^ 53
  scaleFactor : 0 < g.scaleFactor ∧ g.scaleFactor ≤ 2 ^ 53

variable {g : Grid} {columns rows column row : ℤ}

theorem Moderate.positive (hg : g.Moderate) : g.Positive :=
  ⟨hg.fullWidth.1, hg.fullHeight.1, hg.tileWidth.1, hg.tileHeight.1, hg.scaleFactor.1⟩

theorem require_eq_ok (hg : g.Positive) : g.require = .ok () := by
  have hpos : ∀ {name n}, 0 < n → requirePositive name n = .ok () := fun h => if_neg (by omega)
  unfold require
  rw [hpos hg.fullWidth, hpos hg.fullHeight, hpos hg.tileWidth, hpos hg.tileHeight,
    hpos hg.scaleFactor]
  rfl

theorem exists_require_eq_error (hg : ¬g.Positive) :
    ∃ name n, n ≤ 0 ∧ g.require = .error (.notPositive name n) := by
  have hstep : ∀ (name : String) (n : ℤ) (rest : Except Failure Unit),
      (0 < n → ∃ name n, n ≤ 0 ∧ rest = .error (.notPositive name n)) →
      ∃ name' n', n' ≤ 0 ∧ (do requirePositive name n; rest) = .error (.notPositive name' n') := by
    intro name n rest hrest
    unfold requirePositive
    by_cases hn : n ≤ 0
    · rw [if_pos hn]
      exact ⟨name, n, hn, rfl⟩
    · rw [if_neg hn, Outcome.ok_bind]
      exact hrest (by omega)
  unfold require
  refine hstep _ _ _ fun hw => hstep _ _ _ fun hh => hstep _ _ _ fun htw => hstep _ _ _ fun hth => ?_
  have hs : g.scaleFactor ≤ 0 := by
    by_contra hs
    exact hg ⟨hw, hh, htw, hth, by omega⟩
  exact ⟨_, _, hs, if_pos hs⟩

/-! ### The number of columns and rows -/

/-- **The counted columns and rows are just enough.** -/
theorem exists_count (hg : g.Moderate) : ∃ columns rows, g.count = .ok (columns, rows) ∧
    Covering columns (g.tileWidth * g.scaleFactor) g.fullWidth ∧
    Covering rows (g.tileHeight * g.scaleFactor) g.fullHeight := by
  obtain ⟨w, columns, hw, hcolumns, hcover⟩ :=
    Covering.exists_nested_ceilQuotient hg.fullWidth hg.scaleFactor hg.tileWidth
  obtain ⟨h, rows, hh, hrows, hcover'⟩ :=
    Covering.exists_nested_ceilQuotient hg.fullHeight hg.scaleFactor hg.tileHeight
  refine ⟨columns, rows, ?_, hcover, hcover'⟩
  unfold count
  rw [require_eq_ok hg.positive, hw, hh]
  simp only [Outcome.ok_bind]
  rw [hcolumns, hrows]
  rfl

/-! ### The places of tiles -/

theorem mem_places : (column, row) ∈ places columns rows ↔
    (0 ≤ column ∧ column < columns) ∧ 0 ≤ row ∧ row < rows := by
  simp only [places, List.mem_flatMap, List.mem_map, List.mem_range, Prod.mk.injEq]
  constructor
  · rintro ⟨r, hr, c, hc, rfl, rfl⟩
    omega
  · rintro ⟨⟨hc0, hc⟩, hr0, hr⟩
    exact ⟨row.toNat, by omega, column.toNat, by omega, by omega, by omega⟩

theorem length_places (columns rows : ℤ) :
    (places columns rows).length = columns.toNat * rows.toNat := by
  simp [places, List.length_flatMap, mul_comm]

/-- **The places are in row-major order.** -/
theorem pairwise_places (columns rows : ℤ) : (places columns rows).Pairwise
    fun p q => p.2 < q.2 ∨ p.2 = q.2 ∧ p.1 < q.1 := by
  unfold places
  rw [List.pairwise_flatMap]
  constructor
  · intro r _
    rw [List.pairwise_map]
    refine List.pairwise_lt_range.imp fun {c c'} hc => ?_
    right
    exact ⟨rfl, Int.ofNat_lt.mpr hc⟩
  · refine List.pairwise_lt_range.imp fun {r r'} hr => ?_
    simp only [List.mem_map, List.mem_range]
    rintro p ⟨c, -, rfl⟩ q ⟨c', -, rfl⟩
    left
    exact Int.ofNat_lt.mpr hr

/-! ### The tile at a place -/

/-- The tile at a column and a row, if it begins within the image. -/
def tileAt (g : Grid) (column row : ℤ) : Tile :=
  let x := column * g.tileWidth * g.scaleFactor
  let y := row * g.tileHeight * g.scaleFactor
  { x, y
    width := min (g.tileWidth * g.scaleFactor) (g.fullWidth - x)
    height := min (g.tileHeight * g.scaleFactor) (g.fullHeight - y)
    scaleFactor := g.scaleFactor }

theorem tile_eq_tileAt (hg : g.Positive) (hc : 0 ≤ column) (hr : 0 ≤ row)
    (hx : column * (g.tileWidth * g.scaleFactor) < g.fullWidth)
    (hy : row * (g.tileHeight * g.scaleFactor) < g.fullHeight) :
    g.tile column row = .ok (g.tileAt column row) := by
  rw [← mul_assoc] at hx hy
  unfold tile
  rw [require_eq_ok hg, Outcome.ok_bind, if_neg (by omega)]
  dsimp only [pure, Except.pure, bind, Except.bind]
  rw [if_neg (by omega)]
  rfl

/-- A place in front of the image or beyond it has no tile. -/
theorem tile_eq_error (hg : g.Positive)
    (h : (column < 0 ∨ row < 0) ∨ g.fullWidth ≤ column * (g.tileWidth * g.scaleFactor) ∨
      g.fullHeight ≤ row * (g.tileHeight * g.scaleFactor)) :
    ∃ failure, g.tile column row = .error failure ∧ failure.kind = .badValue := by
  rw [← mul_assoc, ← mul_assoc] at h
  unfold tile
  rw [require_eq_ok hg, Outcome.ok_bind]
  dsimp only [pure, Except.pure, bind, Except.bind]
  by_cases hneg : column < 0 ∨ row < 0
  · rw [if_pos hneg]
    exact ⟨_, rfl, rfl⟩
  · rw [if_neg hneg, if_pos (h.resolve_left hneg)]
    exact ⟨_, rfl, rfl⟩

/-- **There is a tile exactly at the counted places**; any other place is refused. -/
theorem exists_tile_iff (hg : g.Moderate) : ∃ columns rows, g.count = .ok (columns, rows) ∧
    ∀ column row : ℤ,
      ((∃ t, g.tile column row = .ok t) ↔
        (0 ≤ column ∧ column < columns) ∧ 0 ≤ row ∧ row < rows) ∧
      (¬((0 ≤ column ∧ column < columns) ∧ 0 ≤ row ∧ row < rows) →
        ∃ failure, g.tile column row = .error failure ∧ failure.kind = .badValue) := by
  obtain ⟨columns, rows, hcount, hcolumns, hrows⟩ := exists_count hg
  refine ⟨columns, rows, hcount, fun column row => ?_⟩
  have hrefused : ¬((0 ≤ column ∧ column < columns) ∧ 0 ≤ row ∧ row < rows) →
      ∃ failure, g.tile column row = .error failure ∧ failure.kind = .badValue := by
    intro hout
    refine tile_eq_error hg.positive ?_
    have hx := hcolumns.mul_lt_iff (i := column)
    have hy := hrows.mul_lt_iff (i := row)
    omega
  refine ⟨⟨?_, ?_⟩, hrefused⟩
  · rintro ⟨t, ht⟩
    by_contra hout
    obtain ⟨failure, herror, -⟩ := hrefused hout
    rw [ht] at herror
    cases herror
  · rintro ⟨⟨hc0, hc⟩, hr0, hr⟩
    exact ⟨_, tile_eq_tileAt hg.positive hc0 hr0 (hcolumns.mul_lt hc) (hrows.mul_lt hr)⟩

/-- Three columns of 100 pixels at scale factor 3 cover 900 pixels exactly, and four rows of 67
pixels are needed for one more than 603: there is a tile in the last row, and none in a fourth
column. -/
theorem exists_tile_iff_of_fit : (⟨900, 604, 100, 67, 3⟩ : Grid).count = .ok (3, 4) ∧
    (∃ t, (⟨900, 604, 100, 67, 3⟩ : Grid).tile 2 3 = .ok t) ∧
    ∃ failure, (⟨900, 604, 100, 67, 3⟩ : Grid).tile 3 0 = .error failure ∧
      failure.kind = .badValue := by
  obtain ⟨columns, rows, hcount, hplace⟩ := exists_tile_iff (g := ⟨900, 604, 100, 67, 3⟩)
    ⟨by decide, by decide, by decide, by decide, by decide⟩
  have hgrid : (⟨900, 604, 100, 67, 3⟩ : Grid).count = .ok (3, 4) := by decide +kernel
  rw [hgrid] at hcount
  cases hcount
  exact ⟨hgrid, (hplace 2 3).1.mpr (by decide), (hplace 3 0).2 (by decide)⟩

/-- **What is made of the tiles** is made at each place. -/
theorem mapTiles_eq {α : Type} (hg : g.Moderate) (hcount : g.count = .ok (columns, rows))
    (hcolumns : Covering columns (g.tileWidth * g.scaleFactor) g.fullWidth)
    (hrows : Covering rows (g.tileHeight * g.scaleFactor) g.fullHeight)
    (f : Tile → Except Failure α) :
    g.mapTiles f = (places columns rows).mapM fun p => f (g.tileAt p.1 p.2) := by
  unfold mapTiles
  rw [hcount, Outcome.ok_bind]
  dsimp only
  refine Outcome.mapM_congr ?_
  rintro ⟨column, row⟩ hmem
  obtain ⟨⟨hc0, hc⟩, hr0, hr⟩ := mem_places.mp hmem
  rw [tile_eq_tileAt hg.positive hc0 hr0 (hcolumns.mul_lt hc) (hrows.mul_lt hr), Outcome.ok_bind]

/-- **What can be made of every tile** is made of all of them. -/
theorem exists_mapTiles {α : Type} {f : Tile → Except Failure α} {P : α → Prop} (hg : g.Moderate)
    (h : ∀ columns rows column row, Covering columns (g.tileWidth * g.scaleFactor) g.fullWidth →
      Covering rows (g.tileHeight * g.scaleFactor) g.fullHeight →
      (column, row) ∈ places columns rows → ∃ a, f (g.tileAt column row) = .ok a ∧ P a) :
    ∃ as, g.mapTiles f = .ok as ∧ ∀ a ∈ as, P a := by
  obtain ⟨columns, rows, hcount, hcolumns, hrows⟩ := exists_count hg
  rw [mapTiles_eq hg hcount hcolumns hrows]
  obtain ⟨as, has, hall⟩ := Outcome.exists_mapM (P := fun _ a => P a)
    (f := fun p : ℤ × ℤ => f (g.tileAt p.1 p.2)) fun p hp => h columns rows p.1 p.2 hcolumns hrows hp
  refine ⟨as, has, fun a ha => ?_⟩
  obtain ⟨_, _, hP⟩ := Outcome.exists_of_forall₂ hall ha
  exact hP

end Grid

end IiifRules
