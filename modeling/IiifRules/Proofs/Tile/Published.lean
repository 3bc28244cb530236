import Mathlib
import IiifRules.Proofs.Descriptor.Shape
import IiifRules.Proofs.Tile.Request
import IiifRules.Proofs.Tile.Uri

/-! # The tiles that a service publishes are tiles that it delivers

* `mem_of_mem_firstOccurrences`, `exists_mem_firstOccurrences`: what is kept of a list of entries.
* `Descriptor.accepts_tile`: the URI of one tile is accepted by the service.
* `Descriptor.exists_uris`: so are those of all tiles of a grid.
* `Descriptor.tileUris_accepted`: so are all that are listed for a document of an accepted shape. -/

namespace IiifRules

open Numeric

/-- **The service accepts an image request URI**: it is one, and its request has no error. -/
def Descriptor.Accepts (d : Descriptor) (uri : String) : Prop :=
  ∃ u report, ImageUri.parse uri = .ok u ∧ u.request.check (some d) = .ok report ∧
    report.errors = []

/-! ### The first occurrences of factors -/

/-- One more entry: it is added unless its factor is there. -/
def keepFirst (seen : List (ℤ × List String)) (e : ℤ × List String) : List (ℤ × List String) :=
  if seen.any (·.1 = e.1) then seen else seen ++ [e]

section

variable {entries seen : List (ℤ × List String)} {e e' : ℤ × List String} {factor : ℤ}

theorem firstOccurrences_eq (entries : List (ℤ × List String)) :
    firstOccurrences entries = entries.foldl keepFirst [] := rfl

theorem mem_of_mem_keepFirst (h : e' ∈ keepFirst seen e) : e' ∈ seen ∨ e' = e := by
  unfold keepFirst at h
  split_ifs at h
  · left; exact h
  · simpa using h

theorem mem_factors_keepFirst (h : factor ∈ seen.map Prod.fst ∨ factor = e.1) :
    factor ∈ (keepFirst seen e).map Prod.fst := by
  unfold keepFirst
  split_ifs with hseen
  · rcases h with h | rfl
    · exact h
    · obtain ⟨e', he', heq⟩ := List.any_eq_true.mp hseen
      exact List.mem_map.mpr ⟨e', he', by simpa using heq⟩
  · rw [List.map_append, List.mem_append]
    rcases h with h | rfl
    · left; exact h
    · right; simp

theorem mem_of_mem_foldl (h : e ∈ entries.foldl keepFirst seen) : e ∈ seen ∨ e ∈ entries := by
  induction entries generalizing seen with
  | nil => left; exact h
  | cons e' entries ih =>
    rcases ih h with h | h
    · rcases mem_of_mem_keepFirst h with h | rfl
      · left; exact h
      · right; simp
    · right; simp [h]

theorem mem_factors_foldl (h : factor ∈ seen.map Prod.fst ∨ factor ∈ entries.map Prod.fst) :
    factor ∈ (entries.foldl keepFirst seen).map Prod.fst := by
  induction entries generalizing seen with
  | nil => simpa using h
  | cons e entries ih =>
    rw [List.map_cons, List.mem_cons] at h
    rcases h with h | h | h
    · exact ih (.inl (mem_factors_keepFirst (.inl h)))
    · exact ih (.inl (mem_factors_keepFirst (.inr h)))
    · exact ih (.inr h)

/-- **Only entries of the list are kept.** -/
theorem mem_of_mem_firstOccurrences (h : e ∈ firstOccurrences entries) : e ∈ entries := by
  rw [firstOccurrences_eq] at h
  rcases mem_of_mem_foldl h with h | h
  · cases h
  · exact h

/-- **Every factor keeps an entry.** -/
theorem exists_mem_firstOccurrences (h : factor ∈ entries.map Prod.fst) :
    ∃ uris, (factor, uris) ∈ firstOccurrences entries := by
  rw [firstOccurrences_eq]
  have hfactor : factor ∈ (entries.foldl keepFirst []).map Prod.fst := mem_factors_foldl (.inr h)
  obtain ⟨⟨_, uris⟩, hmem, rfl⟩ := List.mem_map.mp hfactor
  exact ⟨uris, hmem⟩

end

/-! ### The tiles of a service -/

namespace Descriptor

variable {d : Descriptor} {t : TileEntry} {factor : ℤ} {b : String}

/-- **A tile of a grid is accepted** if the service delivers images of the size of the layout. -/
theorem accepts_tile {columns rows column row : ℤ} (hg : (d.grid t factor).Moderate)
    (hbase : parseInfoUri (buildInfoUri d.id) = .ok b) (hd : d.Allows t.width t.tileHeight)
    (hcolumns : Covering columns (t.width * factor) d.width)
    (hrows : Covering rows (t.tileHeight * factor) d.height)
    (hplace : (column, row) ∈ Grid.places columns rows) :
    ∃ uri, ((d.grid t factor).tileAt column row).uri d.id Quality.default.name
      ImageFormat.jpg.name = .ok uri ∧ d.Accepts uri := by
  obtain ⟨hc, hr⟩ := Grid.mem_places.mp hplace
  have hin : ((d.grid t factor).tileAt column row).Inside d.width d.height :=
    Grid.tileAt_inside hcolumns hrows hc hr
  obtain ⟨uri, u, region, size, w, h, huri, hu, hrequest, hregion, hsize, hw, hh⟩ :=
    Tile.exists_uri hbase hin hg.fullWidth.2 hg.fullHeight.2 hg.scaleFactor .default .jpg
  obtain ⟨hwpos, hhpos, hx0, hy0, hx, hy⟩ := hin
  -- At a scale factor no tile is delivered larger than the layout says.
  have hwle : w ≤ t.width := hw.le_of_le_mul (min_le_left _ _)
  have hhle : h ≤ t.tileHeight := hh.le_of_le_mul (min_le_left _ _)
  obtain ⟨report, hreport, herrors⟩ := Request.check_of_pixels hregion hsize
    ⟨hwpos, by have := hg.fullWidth.2; simp only [grid] at this; omega⟩
    ⟨hhpos, by have := hg.fullHeight.2; simp only [grid] at this; omega⟩ hx hy hw.le_length
    hh.le_length (hd.mono hw.pos.le hwle hh.pos.le hhle)
  exact ⟨uri, huri, u, report, hu, by rw [hrequest]; exact hreport, herrors⟩

/-- **All tiles of a grid** are accepted. -/
theorem exists_uris (hg : (d.grid t factor).Moderate)
    (hbase : parseInfoUri (buildInfoUri d.id) = .ok b) (hd : d.Allows t.width t.tileHeight) :
    ∃ uris, (d.grid t factor).uris d.id Quality.default.name ImageFormat.jpg.name = .ok uris ∧
      ∀ uri ∈ uris, d.Accepts uri := by
  unfold Grid.uris
  exact Grid.exists_mapTiles hg fun _ _ _ _ hcolumns hrows hplace =>
    accepts_tile hg hbase hd hcolumns hrows hplace

/-- **All published tiles are accepted.** For a document of an accepted shape whose id is a usable
base, with lengths that binary64 holds exactly and limits that a complete tile does not exceed,
every scale factor of the first layout is listed, and every URI that is listed is accepted by the
service. -/
theorem tileUris_accepted {v : Json} {r : ShapeReport} (hshape : Shape.check v = .ok r)
    (hvalid : r.valid = true) (hread : Descriptor.ofJson v = .ok d)
    (hbase : parseInfoUri (buildInfoUri d.id) = .ok b) (hw : d.width ≤ 2 ^ 53)
    (hh : d.height ≤ 2 ^ 53)
    (hlengths : ∀ t ∈ d.tiles.head?, t.width ≤ 2 ^ 53 ∧ t.tileHeight ≤ 2 ^ 53 ∧
      ∀ factor ∈ t.scaleFactors, factor ≤ 2 ^ 53)
    (hlimits : ∀ t ∈ d.tiles.head?, d.Allows t.width t.tileHeight) :
    ∃ entries, d.tileUris Quality.default.name ImageFormat.jpg.name = .ok entries ∧
      (∀ t ∈ d.tiles.head?, ∀ factor ∈ t.scaleFactors, ∃ uris, (factor, uris) ∈ entries) ∧
      ∀ e ∈ entries, ∀ uri ∈ e.2, d.Accepts uri := by
  obtain ⟨hw0, hh0, hpositive⟩ := positive_of_shape hshape hvalid hread
  unfold tileUris
  cases htiles : d.tiles with
  | nil => exact ⟨[], rfl, by simp, by simp⟩
  | cons t ts =>
    rw [htiles] at hlengths hlimits hpositive
    obtain ⟨htw, hth, hfactors⟩ := hlengths t rfl
    obtain ⟨htw0, hth0, hfactors0⟩ := hpositive t (by simp)
    have hgrid : ∀ factor ∈ t.scaleFactors, (d.grid t factor).Moderate := fun factor hf =>
      ⟨⟨hw0, hw⟩, ⟨hh0, hh⟩, ⟨htw0, htw⟩, ⟨hth0, hth⟩, ⟨hfactors0 factor hf, hfactors factor hf⟩⟩
    have hentry : ∀ factor ∈ t.scaleFactors, ∃ e : ℤ × List String,
        (do return (factor, ← (d.grid t factor).uris d.id Quality.default.name
          ImageFormat.jpg.name) : Except Failure (ℤ × List String)) = .ok e ∧
          e.1 = factor ∧ ∀ uri ∈ e.2, d.Accepts uri := by
      intro factor hf
      obtain ⟨uris, huris, haccepts⟩ := exists_uris (hgrid factor hf) hbase (hlimits t rfl)
      exact ⟨(factor, uris), Outcome.bind_eq_ok.mpr ⟨uris, huris, rfl⟩, rfl, haccepts⟩
    obtain ⟨all, hall, hevery⟩ := Outcome.exists_mapM hentry
    refine ⟨firstOccurrences all, Outcome.bind_eq_ok.mpr ⟨all, hall, rfl⟩, ?_, ?_⟩
    · rintro t' ht' factor hf
      cases ht'
      obtain ⟨e, he, rfl, -⟩ := Outcome.exists_of_forall₂ (List.Forall₂.flip hevery) hf
      exact exists_mem_firstOccurrences (List.mem_map_of_mem he)
    · intro e he
      obtain ⟨factor, -, -, haccepts⟩ :=
        Outcome.exists_of_forall₂ hevery (mem_of_mem_firstOccurrences he)
      exact haccepts

/-- An image of 1000 by 800 pixels in tiles of 256 by 256, at two scale factors and by a service
that delivers no wider image. -/
theorem tileUris_accepted_of_level1 : ∃ (v : Json) (r : ShapeReport) (d : Descriptor)
    (entries : List (ℤ × List String)),
    Shape.check v = .ok r ∧ r.valid = true ∧ Descriptor.ofJson v = .ok d ∧
    d.tileUris Quality.default.name ImageFormat.jpg.name = .ok entries ∧
    (∃ uris, (2, uris) ∈ entries) ∧ ∀ e ∈ entries, ∀ uri ∈ e.2, d.Accepts uri := by
  let v : Json := .object [("@context", .text imageContext),
    ("id", .text "https://example.org/iiif/1/"), ("type", .text imageServiceType),
    ("protocol", .text imageProtocol), ("profile", .text "level1"), ("width", .int 1000),
    ("height", .int 800), ("maxWidth", .int 256),
    ("tiles", .array [.object [("width", .int 256), ("scaleFactors", .array [.int 1, .int 2])]])]
  let d : Descriptor := {
    context := .uri imageContext
    id := "https://example.org/iiif/1/"
    profile := .level1
    width := 1000
    height := 800
    maxWidth := some 256
    maxHeight := none
    maxArea := none
    sizes := []
    tiles := [⟨false, 256, none, [1, 2], []⟩]
    preferredFormats := []
    rights := none
    extraFeatures := []
    extraFormats := []
    extraQualities := []
    extras := [] }
  have hshape : Shape.check v = .ok ⟨[], [.trailingSlash]⟩ := by rfl
  have hread : Descriptor.ofJson v = .ok d := by rfl
  have hbase : parseInfoUri (buildInfoUri d.id) = .ok "https://example.org/iiif/1" := by
    decide +kernel
  obtain ⟨entries, hentries, hlisted, haccepts⟩ := tileUris_accepted hshape rfl hread
    hbase (by decide) (by decide) (by rintro t ⟨⟩; decide) (by
      rintro t ⟨⟩
      exact ⟨by rintro _ ⟨⟩; decide, by rintro _ ⟨⟩; decide, by rintro _ ⟨⟩⟩)
  exact ⟨v, _, d, entries, hshape, rfl, hread, hentries, hlisted _ rfl 2 (by decide), haccepts⟩

end Descriptor

end IiifRules
