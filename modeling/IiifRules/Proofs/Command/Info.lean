import Mathlib
import IiifRules.Command.Run
import IiifRules.Proofs.Compliance.Customary
import IiifRules.Proofs.Json.Spelling

/-! # The commands for image information

`generate-info` prints a document, and `check-info` looks at what stands in a file. A generated
document is read back from the lines that it is printed on, so that `check-info` judges the document
itself.

* `Descriptor.isPlain_toJson`: documents that are read back from their text.
* `Command.Made`: what a generated descriptor holds; `made_of_generate` says that all of it holds.
* `Command.exists_check_of_made`: which generated documents pass the check of their shape.
* `Command.loadJson_generateInfo`: what `generate-info` prints is read back.
* `Command.checkInfo_generateInfo`: which of the printed documents `check-info` accepts. -/

namespace IiifRules

open Numeric Segment.Token
open Json (IsPlain)

/-! ### Documents that are read back -/

/-- Members that are there have names of the list, in its order. -/
theorem Json.map_fst_present_sublist (fs : List (String × Option Json)) :
    ((Json.present fs).map Prod.fst).Sublist (fs.map Prod.fst) := by
  induction fs with
  | nil => exact .slnil
  | cons f fs ih =>
    obtain ⟨name, _ | v⟩ := f
    · exact ih.cons name
    · exact ih.cons_cons name

theorem Json.isPlain_present {n : ℕ} {fs : List (String × Option Json)}
    (hnames : (fs.map Prod.fst).Nodup) (h : ∀ f ∈ fs, ∀ v ∈ f.2, IsPlain n v) :
    IsPlain (n + 1) (.object (Json.present fs)) :=
  .object (hnames.sublist (Json.map_fst_present_sublist fs)) fun _ hm =>
    h _ (Json.mem_present.mp hm) _ rfl

theorem SizeEntry.isPlain_toJson {n : ℕ} {s : SizeEntry} (hextras : s.extras = [])
    (hwidth : Numeral.writable s.width = true) (hheight : Numeral.writable s.height = true) :
    IsPlain (n + 1) s.toJson := by
  have hgiven : givenMembers s.extras = [] := by rw [hextras]; rfl
  rw [toJson_eq, hgiven, List.append_nil]
  refine Json.isPlain_present (by simp [ownFields]) ?_
  simp only [ownFields, List.forall_mem_cons]
  refine ⟨fun v hv => ?_, fun v hv => ?_, fun v hv => ?_, by simp⟩
  · split at hv
    · cases hv; exact .text _
    · cases hv
  · cases hv; exact .int hwidth
  · cases hv; exact .int hheight

theorem TileEntry.isPlain_toJson {n : ℕ} {t : TileEntry} (hextras : t.extras = [])
    (hwidth : Numeral.writable t.width = true)
    (hheight : ∀ k ∈ t.height, Numeral.writable k = true)
    (hfactors : ∀ k ∈ t.scaleFactors, Numeral.writable k = true) :
    IsPlain (n + 2) t.toJson := by
  have hgiven : givenMembers t.extras = [] := by rw [hextras]; rfl
  rw [toJson_eq, hgiven, List.append_nil]
  refine Json.isPlain_present (by simp [ownFields]) ?_
  simp only [ownFields, List.forall_mem_cons]
  refine ⟨fun v hv => ?_, fun v hv => ?_, fun v hv => ?_, fun v hv => ?_, by simp⟩
  · split at hv
    · cases hv; exact .text _
    · cases hv
  · cases hv; exact .int hwidth
  · obtain ⟨k, hk, rfl⟩ := Option.mem_map.mp hv
    exact .int (hheight k hk)
  · cases hv
    refine .array fun w hw => ?_
    obtain ⟨k, hk, rfl⟩ := List.mem_map.mp hw
    exact .int (hfactors k hk)

namespace Descriptor

variable {d : Descriptor} {n : ℕ}

/-- **A descriptor that can be printed**: none of its numbers has too many digits, nothing in it is
nested deeply, and it holds nothing beside its fields. -/
structure Printable (n : ℕ) (d : Descriptor) : Prop where
  context : ∃ s, d.context = .uri s
  width : Numeral.writable d.width = true
  height : Numeral.writable d.height = true
  maxWidth : ∀ k ∈ d.maxWidth, Numeral.writable k = true
  maxHeight : ∀ k ∈ d.maxHeight, Numeral.writable k = true
  maxArea : ∀ k ∈ d.maxArea, Numeral.writable k = true
  sizes : ∀ s ∈ d.sizes, IsPlain n s.toJson
  tiles : ∀ t ∈ d.tiles, IsPlain n t.toJson
  extras : d.extras = []

theorem isPlain_map_int {n? : Option ℤ} (h : ∀ k ∈ n?, Numeral.writable k = true) :
    ∀ v ∈ n?.map Json.int, IsPlain n v := by
  intro v hv
  obtain ⟨k, hk, rfl⟩ := Option.mem_map.mp hv
  exact .int (h k hk)

theorem isPlain_map {α : Type} {f : α → Json} {as : List α} (h : ∀ a ∈ as, IsPlain n (f a)) :
    ∀ v ∈ some (Json.array (as.map f)), IsPlain (n + 1) v := by
  rintro _ ⟨⟩
  exact .array (List.forall_mem_map.mpr h)

/-- **A document is read back** from its text. -/
theorem isPlain_toJson (h : d.Printable n) : IsPlain (n + 2) d.toJson := by
  have hall : ∀ f ∈ d.allFields, ∀ v ∈ f.2, IsPlain (n + 1) v := by
    obtain ⟨uri, hcontext⟩ := h.context
    have hid : ∀ s, ∀ v ∈ some (Json.text s), IsPlain (n + 1) v := by
      rintro s _ ⟨⟩
      exact .text s
    have hint : ∀ {k}, Numeral.writable k = true → ∀ v ∈ some (Json.int k), IsPlain (n + 1) v := by
      rintro k hk _ ⟨⟩
      exact .int hk
    have hrights : ∀ v ∈ d.rights.map Json.text, IsPlain (n + 1) v := by
      intro v hv
      obtain ⟨s, -, rfl⟩ := Option.mem_map.mp hv
      exact .text s
    simp only [allFields, List.forall_mem_cons, hcontext]
    exact ⟨hid uri, hid _, hid _, hid _, hid _, hint h.width, hint h.height,
      isPlain_map_int h.maxWidth, isPlain_map_int h.maxHeight, isPlain_map_int h.maxArea,
      isPlain_map h.sizes, isPlain_map h.tiles, isPlain_map fun _ _ => .text _, hrights,
      isPlain_map fun _ _ => .text _, isPlain_map fun _ _ => .text _,
      isPlain_map fun _ _ => .text _, by simp⟩
  rw [toJson, toMembers_eq, writtenExtras_eq_nil h.extras, List.append_nil]
  refine Json.isPlain_present ?_ ?_
  · rw [map_fst_ownFields]
    decide
  · intro f hf v hv
    obtain ⟨g, hg, rfl⟩ := List.mem_map.mp hf
    obtain ⟨w, hw, hne⟩ := Option.bind_eq_some_iff.mp hv
    unfold Json.unlessEmpty at hne
    split at hne
    · cases hne
    · cases hne
      exact hall g hg v hw

end Descriptor

/-! ### What is generated -/

/-- The scale factors that are meant. -/
def GenerateOptions.factors (o : GenerateOptions) : List ℤ :=
  if o.scaleFactors.isEmpty then customaryScaleFactors else o.scaleFactors

namespace Command

variable {o : GenerateOptions} {d : Descriptor} {s : Sources} {path logLevel : String}
  {threshold : ℤ}

/-- The plan of a descriptor with given sizes and tiles. -/
def plan (o : GenerateOptions) (sizes : List SizeEntry) (tiles : List TileEntry) :
    DescriptorPlan where
  id := .text o.id
  width := o.width
  height := o.height
  level := .text o.level.name
  sizes := sizes.map SizeEntry.toJson
  tiles := tiles.map TileEntry.toJson
  maxWidth := o.maxWidth
  maxHeight := none
  maxArea := none
  extraFeatures := o.features.map .text
  extraFormats := []
  extraQualities := []
  preferredFormats := []
  rights := .null

/-- **What a generated descriptor holds**: customary entries, and beside them what was asked for. -/
structure Made (o : GenerateOptions) (d : Descriptor) : Prop where
  makes : (plan o d.sizes d.tiles).Makes d
  sizes : o.level = .level0 → standardSizes o.width o.height customaryWidths = .ok d.sizes
  noSizes : o.level ≠ .level0 → d.sizes = []
  tiles : standardTiles o.tileWidth o.factors = .ok d.tiles

theorem Made.width_pos (h : Made o d) : 0 < o.width :=
  lt_of_lt_of_eq h.makes.width_pos h.makes.width

theorem Made.height_pos (h : Made o d) : 0 < o.height :=
  lt_of_lt_of_eq h.makes.height_pos h.makes.height

/-- **A descriptor is made of its plan**: the entries of the plan are those of the descriptor. -/
theorem made_of_plan {sizes : List SizeEntry} {tiles : List TileEntry}
    (h : Descriptor.generate (plan o sizes tiles) = .ok d) (hsizes : ∀ s ∈ sizes, s.extras = [])
    (htiles : ∀ t ∈ tiles, t.extras = []) :
    (plan o d.sizes d.tiles).Makes d ∧ d.sizes = sizes ∧ d.tiles = tiles := by
  have hm := DescriptorPlan.makes_of_generate h
  have hs : d.sizes = sizes := eq_of_forall₂_map hm.sizes fun s hs =>
    SizeEntry.ofJson_toJson_of_extras_eq_nil (hsizes s hs)
  have ht : d.tiles = tiles := eq_of_forall₂_map hm.tiles fun t ht =>
    TileEntry.ofJson_toJson_of_extras_eq_nil (htiles t ht)
  rw [hs, ht]
  exact ⟨hm, rfl, rfl⟩

theorem made_of_generate (h : generate o = .ok d) : Made o d := by
  have htile : ∀ {tiles}, standardTiles o.tileWidth o.factors = .ok tiles →
      ∀ t ∈ tiles, t.extras = [] := by
    intro tiles htiles t ht
    rw [(standardTiles_eq_ok htiles).1, List.mem_singleton] at ht
    rw [ht]
  unfold generate at h
  dsimp only at h
  split at h
  · rename_i hlevel
    obtain ⟨sizes, hsizes, h⟩ := Outcome.bind_eq_ok.mp h
    obtain ⟨tiles, htiles, h⟩ := Outcome.bind_eq_ok.mp h
    obtain ⟨hm, rfl, rfl⟩ := made_of_plan h (fun s hs => by
      obtain ⟨w, -, n, -, rfl⟩ := Outcome.exists_of_forall₂ (forall₂_of_standardSizes hsizes) hs
      rfl) (htile htiles)
    exact ⟨hm, fun _ => hsizes, absurd hlevel, htiles⟩
  · rename_i hlevel
    obtain ⟨sizes, hsizes, h⟩ := Outcome.bind_eq_ok.mp h
    obtain ⟨tiles, htiles, h⟩ := Outcome.bind_eq_ok.mp h
    cases hsizes
    obtain ⟨hm, hs, rfl⟩ := made_of_plan h (by simp) (htile htiles)
    exact ⟨hm, fun h => absurd h hlevel, fun _ => hs, htiles⟩

/-- Customary entries hold nothing beside their fields. -/
theorem Made.extras_eq_nil (h : Made o d) :
    (∀ s ∈ d.sizes, s.extras = []) ∧ ∀ t ∈ d.tiles, t.extras = [] := by
  constructor
  · by_cases hlevel : o.level = .level0
    · intro s hs
      obtain ⟨w, -, n, -, hnil⟩ :=
        Outcome.exists_of_forall₂ (forall₂_of_standardSizes (h.sizes hlevel)) hs
      rw [hnil]
    · simp [h.noSizes hlevel]
  · intro t ht
    rw [(standardTiles_eq_ok h.tiles).1, List.mem_singleton] at ht
    rw [ht]

/-- **What is generated** is written. -/
theorem write_of_made (h : Made o d) : d.write = .ok d.toJson := by
  obtain ⟨hsizes, htiles⟩ := h.extras_eq_nil
  exact Descriptor.write_of_makes h.makes (fun s hs => by simp [hsizes s hs])
    fun t ht => by simp [htiles t ht]

/-- **Which generated documents pass the check of the shape**: all but those at level 0 of an image
that is more than 150 times as wide as it is high. -/
theorem exists_check_of_made (h : Made o d) (hid : Shape.AcceptsId (.text o.id))
    (hw : o.width ≤ 2 ^ 31) (hh : o.height ≤ 2 ^ 31) :
    ∃ r, Shape.check d.toJson = .ok r ∧
      (r.errors = [] ↔ (o.level = .level0 → o.width ≤ 150 * o.height)) := by
  obtain ⟨r, hr, hiff, -⟩ := Descriptor.exists_check_of_makes h.makes hid
  refine ⟨r, hr, hiff.trans ?_⟩
  have ht : ∀ t ∈ d.tiles, t.Positive ∧ t.scaleFactors ≠ [] := by
    obtain ⟨htiles, hpos, hne, hfactors⟩ := standardTiles_eq_ok h.tiles
    intro t ht
    rw [htiles, List.mem_singleton] at ht
    subst ht
    exact ⟨⟨hpos, hpos, hfactors⟩, hne⟩
  rw [and_iff_left ht]
  by_cases hlevel : o.level = .level0
  · rw [standardSizes_pos_iff h.width_pos hw h.height_pos hh (by decide) (h.sizes hlevel)]
    simp only [customaryWidths, List.forall_mem_cons, hlevel, true_imp_iff]
    have hpos := h.height_pos
    constructor
    · rintro ⟨hfirst, -⟩
      omega
    · intro hle
      exact ⟨fun _ => hle, fun _ => by omega, fun _ => by omega, by simp⟩
  · simp [h.noSizes hlevel, hlevel]

/-- **The numbers that are given** have no more digits than a numeral may have. -/
structure Writable (o : GenerateOptions) : Prop where
  tileWidth : Numeral.writable o.tileWidth = true
  scaleFactors : ∀ n ∈ o.scaleFactors, Numeral.writable n = true
  maxWidth : ∀ n ∈ o.maxWidth, Numeral.writable n = true

theorem writable_of_nonneg {n : ℤ} (h0 : 0 ≤ n) (h : n ≤ 2 ^ 31) : Numeral.writable n = true := by
  obtain ⟨k, rfl⟩ := Int.eq_ofNat_of_zero_le h0
  exact writable_of_le (k := 31) (by exact_mod_cast h) (by decide)

theorem Writable.factors (h : Writable o) : ∀ n ∈ o.factors, Numeral.writable n = true := by
  unfold GenerateOptions.factors
  split
  · decide
  · exact h.scaleFactors

/-- **What is generated** can be printed. -/
theorem printable_of_made {n : ℕ} (h : Made o d) (hwritable : Writable o) (hw : o.width ≤ 2 ^ 31)
    (hh : o.height ≤ 2 ^ 31) : d.Printable (n + 2) := by
  have hm := h.makes
  have hwidth : d.width = o.width := hm.width
  have hheight : d.height = o.height := hm.height
  refine {
    context := ⟨_, hm.context⟩
    width := hwidth ▸ writable_of_nonneg h.width_pos.le hw
    height := hheight ▸ writable_of_nonneg h.height_pos.le hh
    maxWidth := hm.maxWidth ▸ hwritable.maxWidth
    maxHeight := by simp [hm.maxHeight, plan]
    maxArea := by simp [hm.maxArea, plan]
    sizes := ?_
    tiles := ?_
    extras := hm.extras }
  · by_cases hlevel : o.level = .level0
    · intro s hs
      obtain ⟨hws, hhs⟩ :=
        standardSizes_le h.width_pos hw h.height_pos hh (by decide) (h.sizes hlevel) s hs
      exact SizeEntry.isPlain_toJson (h.extras_eq_nil.1 s hs)
        (writable_of_nonneg hws.1 (hws.2.trans hw)) (writable_of_nonneg hhs.1 (hhs.2.trans hh))
    · simp [h.noSizes hlevel]
  · intro t ht
    rw [(standardTiles_eq_ok h.tiles).1, List.mem_singleton] at ht
    subst ht
    exact TileEntry.isPlain_toJson rfl hwritable.tileWidth (by simp) hwritable.factors

/-! ### One command -/

/-- **What `generate-info` prints** is read back. -/
theorem loadJson_generateInfo (h : generate o = .ok d) (hwritable : Writable o)
    (hw : o.width ≤ 2 ^ 31) (hh : o.height ≤ 2 ^ 31) :
    loadJson (some (runGenerateInfo o).output) = .ok d.toJson := by
  have hplain : IsPlain Json.depthLimit d.toJson :=
    Descriptor.isPlain_toJson (printable_of_made (made_of_generate h) hwritable hw hh)
  have hrun : (runGenerateInfo o).output = Outcome.lines [d.toJson.pretty] := by
    unfold runGenerateInfo
    rw [h]
    dsimp only
    rw [write_of_made (made_of_generate h)]
    rfl
  rw [hrun, Json.loadJson_pretty hplain]

/-- **`check-info` succeeds** for a document in which the check of the shape finds no error. -/
theorem exitCode_checkInfo {v : Json} {r : Report ShapeError ShapeWarning}
    (hlevel : Log.threshold logLevel = .ok threshold) (hv : readDocument s path = .ok v)
    (hr : Shape.check v = .ok r) :
    (runCheckInfo path none logLevel s).exitCode = 0 ↔ r.errors = [] := by
  unfold runCheckInfo
  rw [hlevel]
  dsimp only
  rw [hv]
  dsimp only
  rw [hr]
  dsimp only
  rw [← List.isEmpty_iff]
  change _ ↔ r.valid = true
  split_ifs with hvalid
  · simp [hvalid, Outcome.after, Outcome.success, Outcome.exit]
  · simp [hvalid, Outcome.after, Outcome.exit]

/-! ### One command after the other -/

/-- **Which generated documents are accepted.** A document that is generated passes the check of its
shape, and `check-info` accepts the file to which `generate-info` printed it, unless it is at level
0 and of an image that is more than 150 times as wide as it is high. -/
theorem checkInfo_generateInfo (h : generate o = .ok d) (hid : Shape.AcceptsId (.text o.id))
    (hw : o.width ≤ 2 ^ 31) (hh : o.height ≤ 2 ^ 31) :
    (∃ r, Shape.check d.toJson = .ok r ∧
      (r.errors = [] ↔ (o.level = .level0 → o.width ≤ 150 * o.height))) ∧
    (Writable o → ∀ s path logLevel threshold, Log.threshold logLevel = .ok threshold →
      s.text path = .ok (runGenerateInfo o).output →
      ((runCheckInfo path none logLevel s).exitCode = 0 ↔
        (o.level = .level0 → o.width ≤ 150 * o.height))) := by
  obtain ⟨r, hr, hiff⟩ := exists_check_of_made (made_of_generate h) hid hw hh
  refine ⟨⟨r, hr, hiff⟩, fun hwritable s path logLevel threshold hlevel htext => ?_⟩
  have hread : readDocument s path = .ok d.toJson := by
    unfold readDocument
    rw [htext, Outcome.ok_bind, loadJson_generateInfo h hwritable hw hh]
  exact (exitCode_checkInfo hlevel hread hr).trans hiff

/-- A service of level 0 for an image of some width and height, with tiles and nothing else asked
for. -/
def bareOptions (width height : ℤ) : GenerateOptions where
  id := "https://example.org/iiif/1"
  width := width
  height := height
  level := .level0
  tileWidth := 512
  scaleFactors := [1, 2, 4, 8]
  maxWidth := none
  features := []

/-- What such a service says of itself. -/
def bareService (width height : ℤ) (sizes : List SizeEntry) : Descriptor where
  context := .uri imageContext
  id := "https://example.org/iiif/1"
  profile := .level0
  width := width
  height := height
  maxWidth := none
  maxHeight := none
  maxArea := none
  sizes := sizes
  tiles := [⟨false, 512, none, [1, 2, 4, 8], []⟩]
  preferredFormats := []
  rights := none
  extraFeatures := []
  extraFormats := []
  extraQualities := []
  extras := []

theorem checkInfo_generateInfo_of_photograph :
    ∃ d r, generate (bareOptions 4000 3000) = .ok d ∧ Shape.check d.toJson = .ok r ∧
      r.errors = [] ∧ (runCheckInfo "info.json" none "WARNING"
        ⟨fun _ => .ok (runGenerateInfo (bareOptions 4000 3000)).output, ""⟩).exitCode = 0 := by
  have hsizes : standardSizes 4000 3000 customaryWidths =
      .ok [⟨false, 150, 112, []⟩, ⟨false, 600, 450, []⟩, ⟨false, 1200, 900, []⟩] :=
    standardSizes_customary (by decide) (by decide) (by decide +kernel) (by decide +kernel)
      (by decide +kernel)
  have hd : generate (bareOptions 4000 3000) = .ok (bareService 4000 3000
      [⟨false, 150, 112, []⟩, ⟨false, 600, 450, []⟩, ⟨false, 1200, 900, []⟩]) :=
    Outcome.bind_eq_ok.mpr ⟨_, hsizes, rfl⟩
  have hid : Shape.AcceptsId (.text (bareOptions 4000 3000).id) := ⟨⟨[], []⟩, by rfl, rfl⟩
  have hwritable : Writable (bareOptions 4000 3000) :=
    ⟨by decide, by simp only [bareOptions]; decide, by simp [bareOptions]⟩
  have hratio : (bareOptions 4000 3000).level = .level0 →
      (bareOptions 4000 3000).width ≤ 150 * (bareOptions 4000 3000).height := fun _ => by decide
  obtain ⟨⟨r, hr, hiff⟩, hcheck⟩ := checkInfo_generateInfo hd hid (by decide) (by decide)
  have hlevel : Log.threshold "WARNING" = .ok 30 := by decide +kernel
  exact ⟨_, r, hd, hr, hiff.mpr hratio,
    (hcheck hwritable _ "info.json" "WARNING" 30 hlevel rfl).mpr hratio⟩

/-- The sizes that are generated for a panorama have no height. -/
theorem not_check_of_panorama : ¬ ∀ (o : GenerateOptions) (d : Descriptor),
    Shape.AcceptsId (.text o.id) → 0 < o.width ∧ o.width ≤ 2 ^ 31 →
    0 < o.height ∧ o.height ≤ 2 ^ 31 → 0 < o.tileWidth →
    (o.scaleFactors ≠ [] ∧ ∀ n ∈ o.scaleFactors, 0 < n) → (∀ n ∈ o.maxWidth, 0 < n) →
    generate o = .ok d → ∃ r, Shape.check d.toJson = .ok r ∧ r.errors = [] := by
  intro h
  have hsizes : standardSizes 4000 1 customaryWidths =
      .ok [⟨false, 150, 0, []⟩, ⟨false, 600, 0, []⟩, ⟨false, 1200, 0, []⟩] :=
    standardSizes_customary (by decide) (by decide) (by decide +kernel) (by decide +kernel)
      (by decide +kernel)
  have hd : generate (bareOptions 4000 1) = .ok (bareService 4000 1
      [⟨false, 150, 0, []⟩, ⟨false, 600, 0, []⟩, ⟨false, 1200, 0, []⟩]) :=
    Outcome.bind_eq_ok.mpr ⟨_, hsizes, rfl⟩
  obtain ⟨r, hr, hnone⟩ := h _ _ ⟨⟨[], []⟩, by rfl, rfl⟩ (by decide) (by decide) (by decide)
    (by simp only [bareOptions]; decide) (by simp [bareOptions]) hd
  have herrors : Shape.check (bareService 4000 1
      [⟨false, 150, 0, []⟩, ⟨false, 600, 0, []⟩, ⟨false, 1200, 0, []⟩]).toJson =
      .ok ⟨[.notPositive (.entry "sizes" 0 "height"), .notPositive (.entry "sizes" 1 "height"),
        .notPositive (.entry "sizes" 2 "height")], []⟩ := by
    rfl
  obtain rfl := Except.ok.inj (hr.symm.trans herrors)
  cases hnone

end Command

end IiifRules
