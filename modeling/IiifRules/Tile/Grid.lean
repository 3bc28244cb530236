import IiifRules.Request.Basic

/-! # Tile grids

An image divided into tiles at a scale factor. A tile covers `tileWidth * scaleFactor` by
`tileHeight * scaleFactor` pixels of the image, less at the right and the lower edge, and is
delivered at `tileWidth` by `tileHeight` pixels, again less at these edges.

* `Grid.count`: the number of columns and rows.
* `Grid.tile`: one tile; `Grid.tiles`: all of them, row by row.
* `Tile.outputSize`: the pixels of a delivered tile. -/

namespace IiifRules

open Numeric

/-- An image, a tile size and a scale factor. -/
structure Grid where
  fullWidth : Int
  fullHeight : Int
  tileWidth : Int
  tileHeight : Int
  scaleFactor : Int
deriving DecidableEq, Repr

/-- A rectangle of the image with the scale factor at which it is delivered. -/
structure Tile where
  x : Int
  y : Int
  width : Int
  height : Int
  scaleFactor : Int
deriving DecidableEq, Repr

def requirePositive (name : String) (n : Int) : Except Failure Unit :=
  if n ≤ 0 then .error (.notPositive name n) else .ok ()

namespace Grid

/-- Every quantity of a grid has to be positive. -/
def require (g : Grid) : Except Failure Unit := do
  requirePositive "full_width" g.fullWidth
  requirePositive "full_height" g.fullHeight
  requirePositive "tile_width" g.tileWidth
  requirePositive "tile_height" g.tileHeight
  requirePositive "scale_factor" g.scaleFactor

/-- **The number of columns and rows**: the scaled dimensions and then the tiles are rounded up. -/
def count (g : Grid) : Except Failure (Int × Int) := do
  g.require
  let width ← ceilQuotient g.fullWidth g.scaleFactor
  let height ← ceilQuotient g.fullHeight g.scaleFactor
  return (← ceilQuotient width g.tileWidth, ← ceilQuotient height g.tileHeight)

/-- **The tile at a column and a row**, clipped to the image. -/
def tile (g : Grid) (column row : Int) : Except Failure Tile := do
  g.require
  if column < 0 ∨ row < 0 then throw (.negativeTile column row)
  let x := column * g.tileWidth * g.scaleFactor
  let y := row * g.tileHeight * g.scaleFactor
  if g.fullWidth ≤ x ∨ g.fullHeight ≤ y then
    throw (.tileOutside column row g.fullWidth g.fullHeight)
  return {
    x, y
    width := min (g.tileWidth * g.scaleFactor) (g.fullWidth - x)
    height := min (g.tileHeight * g.scaleFactor) (g.fullHeight - y)
    scaleFactor := g.scaleFactor }

/-- The places of a number of columns and rows, row by row. -/
def places (columns rows : Int) : List (Int × Int) :=
  (List.range rows.toNat).flatMap fun row : Nat =>
    (List.range columns.toNat).map fun column : Nat => ((column : Int), (row : Int))

/-- What `f` makes of every tile, row by row. -/
def mapTiles {α : Type} (g : Grid) (f : Tile → Except Failure α) : Except Failure (List α) := do
  let (columns, rows) ← g.count
  (places columns rows).mapM fun (column, row) => do f (← g.tile column row)

/-- **All tiles**, row by row. -/
def tiles (g : Grid) : Except Failure (List Tile) := g.mapTiles .ok

end Grid

namespace Tile

/-- **Width and height of the delivered tile.** -/
def outputSize (t : Tile) : Except Failure (Int × Int) := do
  return (← ceilQuotient t.width t.scaleFactor, ← ceilQuotient t.height t.scaleFactor)

def request (t : Tile) (quality format : String) : Except Failure Request := do
  let (w, h) ← t.outputSize
  return {
    region := .region (.pixels t.x t.y t.width t.height)
    size := .size ⟨.exact w h, false⟩
    rotation := .rotation .none
    quality := .text quality
    format := .text format }

end Tile

end IiifRules
