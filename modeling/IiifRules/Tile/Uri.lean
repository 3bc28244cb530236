import IiifRules.Descriptor.Basic
import IiifRules.Tile.Grid
import IiifRules.Uri.Image

/-! # URIs of tiles

* `Tile.uri`: the URI of one tile; `Grid.uris`: those of all tiles of a grid.
* `Descriptor.tileUris`: those of the tiles that a service publishes, for each scale factor. -/

namespace IiifRules

def Tile.uri (base : String) (t : Tile) (quality format : String) : Except Failure String := do
  buildImageUri base (← t.request quality format)

/-- **The URIs of all tiles** of a grid, row by row. -/
def Grid.uris (base : String) (g : Grid) (quality format : String) : Except Failure (List String) :=
  g.mapTiles fun t => t.uri base quality format

/-- The grid of a tile layout at a scale factor. -/
def Descriptor.grid (d : Descriptor) (t : TileEntry) (scaleFactor : Int) : Grid where
  fullWidth := d.width
  fullHeight := d.height
  tileWidth := t.width
  tileHeight := t.tileHeight
  scaleFactor := scaleFactor

/-- The entries with the first occurrence of each factor. -/
def firstOccurrences (entries : List (Int × List String)) : List (Int × List String) :=
  entries.foldl (fun seen e => if seen.any (·.1 = e.1) then seen else seen ++ [e]) []

/-- **The URIs of the tiles of the first layout** of a service, for each scale factor at its first
occurrence; none if the service publishes no tiles. -/
def Descriptor.tileUris (d : Descriptor) (quality format : String) :
    Except Failure (List (Int × List String)) :=
  match d.tiles with
  | [] => .ok []
  | t :: _ => do
    let all ← t.scaleFactors.mapM fun factor => do
      return (factor, ← (d.grid t factor).uris d.id quality format)
    return firstOccurrences all

end IiifRules
