import Mathlib
import IiifRules.Proofs.Segment.RoundTrip
import IiifRules.Proofs.Tile.Partition
import IiifRules.Proofs.Uri.ImageUri
import IiifRules.Tile.Uri

/-! # The URI of a tile

* `Tile.exists_outputSize`: a tile is delivered at as many pixels as strips of the scale factor
  cover it.
* `Tile.exists_segments`: what the URI of a tile is made of.
* `Tile.exists_uri`: the URI of a tile is accepted, and its segments are read as the region of the
  tile and the size at which it is delivered.
* `Grid.exists_uris`, `Grid.exists_uris_eq_error`: which grids have URIs of their tiles. -/

namespace IiifRules

open Numeric Text Segment.Token

/-! ### Segments of digits and commas -/

theorem Uri.isSegment_of_digits {cs : List Char} (hne : cs ≠ [])
    (h : ∀ c ∈ cs, c.isDigit = true ∨ c = ',') : Uri.IsSegment cs := by
  have hnot : ∀ c : Char, c.isDigit = false → c ≠ ',' → c ∉ cs := by
    intro c hd hc hmem
    rcases h c hmem with h | h
    · rw [hd] at h; cases h
    · exact hc h
  exact ⟨hne, hnot _ (by decide) (by decide), hnot _ (by decide) (by decide),
    hnot _ (by decide) (by decide)⟩

theorem exists_readNatural {n : ℤ} (h0 : 0 ≤ n) (h : n ≤ 2 ^ 53) :
    ∃ (m : ℕ) (cs : List Char), n = m ∧ readNatural cs = .ok (some m) := by
  obtain ⟨m, rfl⟩ := Int.eq_ofNat_of_zero_le h0
  exact ⟨m, _, rfl, readNatural_digits (writable_of_le (k := 53) (by omega) (by decide))⟩

theorem Quality.isSegment_name (q : Quality) :
    Uri.IsSegment q.name.toList ∧ '.' ∉ q.name.toList := by
  cases q <;> exact ⟨⟨by decide, by decide, by decide, by decide⟩, by decide⟩

theorem ImageFormat.isSegment_name (f : ImageFormat) :
    Uri.IsSegment f.name.toList ∧ '.' ∉ f.name.toList := by
  cases f <;> exact ⟨⟨by decide, by decide, by decide, by decide⟩, by decide⟩

/-- **The segment of a rectangle in pixels.** -/
theorem Region.exists_spells_pixels {x y w h : ℤ} (hx : 0 ≤ x ∧ x ≤ 2 ^ 53)
    (hy : 0 ≤ y ∧ y ≤ 2 ^ 53) (hw : 0 < w ∧ w ≤ 2 ^ 53) (hh : 0 < h ∧ h ≤ 2 ^ 53) :
    ∃ cs, Spells cs (.pixels x y w h) ∧ Uri.IsSegment cs := by
  obtain ⟨x, cx, rfl, hcx⟩ := exists_readNatural hx.1 hx.2
  obtain ⟨y, cy, rfl, hcy⟩ := exists_readNatural hy.1 hy.2
  obtain ⟨w, cw, rfl, hcw⟩ := exists_readNatural hw.1.le hw.2
  obtain ⟨h, ch, rfl, hch⟩ := exists_readNatural hh.1.le hh.2
  refine ⟨_, .pixels hcx hcy hcw hch (by omega) (by omega), Uri.isSegment_of_digits ?_ ?_⟩
  · rw [join_cons (by simp)]
    simp
  · intro c hc
    rcases mem_join hc with hcomma | ⟨f, hf, hcf⟩
    · right
      exact hcomma
    · left
      simp only [List.mem_cons, List.not_mem_nil, or_false] at hf
      rcases hf with rfl | rfl | rfl | rfl
      · exact isDigit_of_readNatural hcx c hcf
      · exact isDigit_of_readNatural hcy c hcf
      · exact isDigit_of_readNatural hcw c hcf
      · exact isDigit_of_readNatural hch c hcf

/-- **The segment of a width and a height.** -/
theorem SizeForm.exists_spells_exact {w h : ℤ} (hw : 0 < w ∧ w ≤ 2 ^ 53)
    (hh : 0 < h ∧ h ≤ 2 ^ 53) : ∃ cs, Spells cs (.exact w h) ∧ Uri.IsSegment cs := by
  obtain ⟨w, cw, rfl, hcw⟩ := exists_readNatural hw.1.le hw.2
  obtain ⟨h, ch, rfl, hch⟩ := exists_readNatural hh.1.le hh.2
  refine ⟨_, .exact hcw hch (by omega) (by omega), Uri.isSegment_of_digits (by simp) ?_⟩
  intro c hc
  rw [List.mem_append, List.mem_cons] at hc
  rcases hc with hc | hc | hc
  · left
    exact isDigit_of_readNatural hcw c hc
  · right
    exact hc
  · left
    exact isDigit_of_readNatural hch c hc

/-- The path of a request for a region at a size, without rotation. -/
theorem Request.path_of_spells {region size : List Char} {r : Region} {form : SizeForm}
    (hr : Region.Spells region r) (hs : SizeForm.Spells size form) (quality format : String) :
    (⟨.region r, .size ⟨form, false⟩, .rotation .none, .text quality, .text format⟩ :
      Request).path = .ok (String.ofList (join '/'
        [region, size, ['0'], quality.toList ++ '.' :: format.toList])) := by
  have hregion : r.format = .ok (String.ofList region) := by
    rw [Region.format, Region.formatChars_of_spells hr]
    rfl
  have hsize : Size.format ⟨form, false⟩ = .ok (String.ofList size) := by
    rw [Size.format, Size.formatChars, Size.formChars_of_spells hs]
    rfl
  have hrotation : Rotation.none.format = "0" := by decide +kernel
  simp only [path, Segment.regionText, Segment.asRegion, Segment.sizeText, Segment.asSize,
    Segment.rotationText, Segment.asRotation, Segment.shown, Outcome.ok_bind, hregion, hsize,
    hrotation]
  refine congrArg Except.ok (String.toList_inj.mp ?_)
  simp [join]

/-! ### One tile -/

namespace Tile

variable {t : Tile} {fullWidth fullHeight : ℤ}

/-- **A tile is delivered** at as many pixels as strips of the scale factor cover it. -/
theorem exists_outputSize (hin : t.Inside fullWidth fullHeight) (hw : fullWidth ≤ 2 ^ 53)
    (hh : fullHeight ≤ 2 ^ 53) (hs : 0 < t.scaleFactor ∧ t.scaleFactor ≤ 2 ^ 53) :
    ∃ w h, t.outputSize = .ok (w, h) ∧ Covering w t.scaleFactor t.width ∧
      Covering h t.scaleFactor t.height := by
  obtain ⟨hwpos, hhpos, hx0, hy0, hx, hy⟩ := hin
  have hw53 : 0 < t.width ∧ t.width ≤ 2 ^ 53 := ⟨hwpos, by omega⟩
  have hh53 : 0 < t.height ∧ t.height ≤ 2 ^ 53 := ⟨hhpos, by omega⟩
  obtain ⟨w, hwq, hwcover⟩ := Covering.exists_ceilQuotient hw53 hs
  obtain ⟨h, hhq, hhcover⟩ := Covering.exists_ceilQuotient hh53 hs
  refine ⟨w, h, ?_, hwcover, hhcover⟩
  unfold outputSize
  rw [hwq, hhq]
  rfl

/-- **The URI of a tile** is the base without slashes at its end and four segments: those of the
region of the tile, of the size at which it is delivered, of no rotation, and of the quality and the
format. -/
theorem exists_segments (hin : t.Inside fullWidth fullHeight) (hw : fullWidth ≤ 2 ^ 53)
    (hh : fullHeight ≤ 2 ^ 53) (hs : 0 < t.scaleFactor ∧ t.scaleFactor ≤ 2 ^ 53) :
    ∃ region size w h, Region.Spells region (.pixels t.x t.y t.width t.height) ∧
      Uri.IsSegment region ∧ SizeForm.Spells size (.exact w h) ∧ Uri.IsSegment size ∧
      Covering w t.scaleFactor t.width ∧ Covering h t.scaleFactor t.height ∧
      ∀ base quality format, t.uri base quality format = .ok (Uri.trimBase base ++ "/" ++
        String.ofList (join '/' [region, size, ['0'], quality.toList ++ '.' :: format.toList])) := by
  obtain ⟨w, h, hsize, hwcover, hhcover⟩ := exists_outputSize hin hw hh hs
  obtain ⟨hwpos, hhpos, hx0, hy0, hx, hy⟩ := hin
  have hwle := hwcover.le_length
  have hhle := hhcover.le_length
  obtain ⟨region, hregion, hregionSegment⟩ := Region.exists_spells_pixels
    (x := t.x) (y := t.y) (w := t.width) (h := t.height)
    ⟨hx0, by omega⟩ ⟨hy0, by omega⟩ ⟨hwpos, by omega⟩ ⟨hhpos, by omega⟩
  obtain ⟨size, hsizeSpells, hsizeSegment⟩ := SizeForm.exists_spells_exact
    (w := w) (h := h) ⟨hwcover.pos, by omega⟩ ⟨hhcover.pos, by omega⟩
  refine ⟨region, size, w, h, hregion, hregionSegment, hsizeSpells, hsizeSegment, hwcover, hhcover,
    fun base quality format => ?_⟩
  unfold uri request
  rw [hsize]
  simp only [Outcome.ok_bind, pure_bind, buildImageUri]
  rw [Request.path_of_spells hregion hsizeSpells]
  rfl

/-- **The URI of a tile is accepted**, and it asks for the region of the tile at the size at which
the tile is delivered. -/
theorem exists_uri {base b : String} (hbase : parseInfoUri (buildInfoUri base) = .ok b)
    (hin : t.Inside fullWidth fullHeight) (hw : fullWidth ≤ 2 ^ 53) (hh : fullHeight ≤ 2 ^ 53)
    (hs : 0 < t.scaleFactor ∧ t.scaleFactor ≤ 2 ^ 53) (q : Quality) (f : ImageFormat) :
    ∃ uri u region size w h, t.uri base q.name f.name = .ok uri ∧ ImageUri.parse uri = .ok u ∧
      u.request = .ofTexts region size "0" q.name f.name ∧
      Region.parse region = .ok (.ok (.pixels t.x t.y t.width t.height)) ∧
      Size.parse size = .ok (.ok ⟨.exact w h, false⟩) ∧
      Covering w t.scaleFactor t.width ∧ Covering h t.scaleFactor t.height := by
  obtain ⟨region, size, w, h, hregion, hregionSegment, hsizeSpells, hsizeSegment, hwcover, hhcover,
    huri⟩ := exists_segments hin hw hh hs
  obtain ⟨scheme, segments, hscheme, hlength, hsegments, hspell⟩ :=
    Uri.exists_segments_of_parseInfoUri hbase
  have htext : (Uri.trimBase base ++ "/" ++ String.ofList (join '/'
      [region, size, ['0'], q.name.toList ++ '.' :: f.name.toList])).toList = Uri.spell scheme
        (segments ++ [region, size, ['0'], q.name.toList ++ '.' :: f.name.toList]) := by
    rw [Uri.spell_append (List.ne_nil_of_length_pos (by omega)) (by simp), ← hspell]
    simp
  have hzero : Uri.IsSegment ['0'] := ⟨by decide, by decide, by decide, by decide⟩
  obtain ⟨u, hu, hrequest⟩ := ImageUri.parse_of_segments hscheme hlength hsegments hregionSegment
    hsizeSegment hzero q.isSegment_name.1 f.isSegment_name.1 q.isSegment_name.2 f.isSegment_name.2
    htext
  rw [String.ofList_toList, String.ofList_toList] at hrequest
  exact ⟨_, u, String.ofList region, String.ofList size, w, h, huri base q.name f.name, hu, hrequest,
    Region.parse_of_spells (by rwa [String.toList_ofList]),
    Size.parse_of_spells (by rw [String.toList_ofList]; rfl) hsizeSpells, hwcover, hhcover⟩

end Tile

/-! ### All tiles of a grid -/

namespace Grid

variable {g : Grid}

/-- **The URIs of all tiles** are there for a grid of moderate size, at any base. -/
theorem exists_uris (hg : g.Moderate) (base quality format : String) :
    ∃ uris, g.uris base quality format = .ok uris := by
  unfold uris
  obtain ⟨uris, huris, -⟩ := exists_mapTiles (P := fun _ => True)
    (f := fun t => t.uri base quality format) hg
    fun columns rows column row hcolumns hrows hplace => by
      obtain ⟨hc, hr⟩ := mem_places.mp hplace
      obtain ⟨_, _, _, _, -, -, -, -, -, -, huri⟩ := Tile.exists_segments
        (tileAt_inside hcolumns hrows hc hr) hg.fullWidth.2 hg.fullHeight.2 hg.scaleFactor
      exact ⟨_, huri base quality format, trivial⟩
  exact ⟨uris, huris⟩

/-- **A grid with a length that is not positive** has no URIs; that length is to blame. -/
theorem exists_uris_eq_error (hg : ¬g.Positive) (base quality format : String) :
    ∃ name n, n ≤ 0 ∧ g.uris base quality format = .error (.notPositive name n) := by
  obtain ⟨name, n, hn, hrequire⟩ := exists_require_eq_error hg
  refine ⟨name, n, hn, ?_⟩
  unfold uris mapTiles count
  rw [hrequire]
  rfl

end Grid

end IiifRules
