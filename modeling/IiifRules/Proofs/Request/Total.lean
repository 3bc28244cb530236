import Mathlib
import IiifRules.Proofs.Descriptor.Shape
import IiifRules.Proofs.Request.Accepted
import IiifRules.Proofs.Segment.Reading
import IiifRules.Proofs.Segment.RoundTrip
import IiifRules.Uri.Image

/-! # Requests that are judged at all

Judging a request of texts is a failure only if a run of digits is too long, or a number leaves the
range of binary64. The rules stop most numbers before anything is computed from them: a size without
a caret that names more pixels than the region has is refused. They do not stop a confined size, nor
any with a caret if the service enlarges regions (`Descriptor.LeavesOpen`).

* `Segment.exists_checkRegion`, …, `Segment.exists_checkFormat`: each axis is judged.
* `Descriptor.exists_deliveryErrors`: what is delivered is compared with the limits.
* `ImageUri.exists_report`: the request of a URI is judged, if its numbers are in range. -/

namespace IiifRules

open Numeric Segment.Token

/-! ### Each axis is judged -/

namespace Segment

variable {text : String} {width? height? : Option ℤ}

theorem exists_checkRegion (h : ShortRuns text.toList) (width? height? : Option ℤ) :
    ∃ j, (Segment.text text).checkRegion width? height? = .ok j := by
  obtain ⟨p, hp⟩ := Region.exists_parse h
  unfold checkRegion
  refine Outcome.exists_bind ⟨_, Outcome.bind_eq_ok.mpr ⟨p, hp, rfl⟩⟩ fun value _ => ?_
  cases value with
  | error e => exact ⟨_, rfl⟩
  | ok v =>
    dsimp only
    split
    · split_ifs <;> exact ⟨_, rfl⟩
    · exact ⟨_, rfl⟩

theorem exists_checkSize (h : ShortRuns text.toList) (width? height? : Option ℤ)
    (upscaling : Bool) : ∃ j, (Segment.text text).checkSize width? height? upscaling = .ok j := by
  unfold checkSize
  refine Outcome.exists_bind (Size.exists_parse h) fun p _ => ?_
  cases p <;> exact ⟨_, rfl⟩

theorem exists_checkRotation (h : ShortRuns text.toList) (arbitrary mirroring : Bool) :
    ∃ j, (Segment.text text).checkRotation arbitrary mirroring = .ok j := by
  unfold checkRotation
  refine Outcome.exists_bind (Rotation.exists_parse h) fun p _ => ?_
  cases p <;> exact ⟨_, rfl⟩

/-- A text is shown as it is, so that its refusal can be worded. -/
theorem exists_checkQuality (text : String) (supported : List Quality) :
    ∃ j, (Segment.text text).checkQuality supported = .ok j := by
  unfold checkQuality
  split
  · exact ⟨_, rfl⟩
  · split_ifs <;> exact ⟨_, rfl⟩

theorem exists_checkFormat (text : String) (supported : List ImageFormat) :
    ∃ j, (Segment.text text).checkFormat supported = .ok j := by
  unfold checkFormat
  split
  · exact ⟨_, rfl⟩
  · split_ifs <;> exact ⟨_, rfl⟩

end Segment

/-! ### Warnings are worded -/

namespace Descriptor

variable {text : String} {d : Descriptor} {width? height? : Option ℤ}

/-- **What was read can be written**, so that a warning about it can be worded. -/
theorem exists_regionWarnings {region : Judged Segment}
    (h : (Segment.text text).checkRegion width? height? = .ok region) :
    ∃ ws, d.regionWarnings region = .ok ws := by
  cases region with
  | error e => exact ⟨_, rfl⟩
  | ok v =>
    obtain ⟨r, hr, rfl⟩ := Segment.checkRegion_eq_ok h
    unfold regionWarnings
    dsimp only
    split
    · split_ifs
      · exact ⟨_, rfl⟩
      · rw [Region.format_of_parse hr]
        exact ⟨_, rfl⟩
    · exact ⟨_, rfl⟩

theorem exists_sizeWarnings {upscaling : Bool} {size : Judged Size}
    (h : (Segment.text text).checkSize width? height? upscaling = .ok size) :
    ∃ ws, d.sizeWarnings size = .ok ws := by
  cases size with
  | error e => exact ⟨_, rfl⟩
  | ok s =>
    have hs : Size.parse text = .ok (.ok s) := (Segment.checkSize_eq_ok_iff.mp h).1
    unfold sizeWarnings
    dsimp only
    split
    · split_ifs
      · exact ⟨_, rfl⟩
      · rw [Size.format_of_parse hs]
        exact ⟨_, rfl⟩
    · exact ⟨_, rfl⟩

end Descriptor

/-! ### What is delivered is compared with the limits -/

namespace Descriptor

/-- **No rule bounds the numbers that the size names**: it has a caret and the service enlarges
regions, or it is confined. -/
def LeavesOpen (d : Descriptor) (s : Size) : Prop :=
  if s.upscale then d.hasFeature .sizeUpscaling = true else ∃ w h, s.form = .confined w h

/-- **The lengths of the service** can be computed with: its image has at most `2 ^ m` pixels on each
side, and its limits have no more digits than a numeral may have. -/
structure InRange (d : Descriptor) (m : ℕ) : Prop where
  width_le : d.width ≤ 2 ^ m
  height_le : d.height ≤ 2 ^ m
  maxWidth : ∀ limit ∈ d.maxWidth, Numeral.writable limit = true
  maxHeight : ∀ limit ∈ d.maxHeight, Numeral.writable limit = true
  maxArea : ∀ limit ∈ d.maxArea, Numeral.writable limit = true

variable {d : Descriptor} {m n : ℕ}

theorem InRange.heightLimit (hd : d.InRange m) :
    ∀ limit ∈ d.heightLimit, Numeral.writable limit = true := by
  have hheight := hd.maxHeight
  unfold Descriptor.heightLimit
  generalize d.maxHeight = limit? at hheight ⊢
  cases limit? with
  | none => exact hd.maxWidth
  | some limit => exact hheight

theorem exists_limitError (error : ℤ → ℤ → RequestError) {a : ℤ} {limit? : Option ℤ}
    (ha : Numeral.writable a = true) (h : ∀ limit ∈ limit?, Numeral.writable limit = true) :
    ∃ es, limitError error a limit? = .ok es := by
  unfold limitError
  cases limit? with
  | none => exact ⟨_, rfl⟩
  | some limit =>
    dsimp only
    rw [ha, h limit rfl, if_pos (Bool.and_self true)]
    split_ifs <;> exact ⟨_, rfl⟩

/-- The limits are compared with a width and a height in range, and with their product. -/
theorem exists_limitErrors (hd : d.InRange m) {w h : ℤ} (hw : 0 ≤ w ∧ w ≤ 2 ^ 1023)
    (hh : 0 ≤ h ∧ h ≤ 2 ^ 1023) : ∃ es, d.limitErrors w h = .ok es := by
  have hwritable : ∀ {a : ℤ} {k : ℕ}, 0 ≤ a → a ≤ 2 ^ k → k < Numeral.digitLimit →
      Numeral.writable a = true := by
    intro a k h0 ha hk
    obtain ⟨b, rfl⟩ := Int.eq_ofNat_of_zero_le h0
    exact writable_of_le (by exact_mod_cast ha) hk
  have harea : w * h ≤ 2 ^ (1023 + 1023) := by
    rw [pow_add]
    exact mul_le_mul hw.2 hh.2 hh.1 (by positivity)
  unfold limitErrors
  refine Outcome.exists_bind (exists_limitError _ (hwritable hw.1 hw.2 (by decide)) hd.maxWidth)
    fun _ _ => ?_
  refine Outcome.exists_bind (exists_limitError _ (hwritable hh.1 hh.2 (by decide)) hd.heightLimit)
    fun _ _ => ?_
  refine Outcome.exists_bind
    (exists_limitError _ (hwritable (mul_nonneg hw.1 hh.1) harea (by decide)) hd.maxArea)
    fun _ _ => ?_
  exact ⟨_, rfl⟩

/-- A form that is not confined and names no more than the region has. -/
theorem atMost_of_within {form : SizeForm} {rw rh bound : ℤ} (h : form.Within rw rh)
    (hrw : rw ≤ bound) (hrh : rh ≤ bound) (hform : ¬∃ w h, form = .confined w h) :
    form.AtMost bound := by
  cases form with
  | max => trivial
  | width w => exact h.trans hrw
  | height h' => exact h.trans hrh
  | percent p => trivial
  | exact w h' => exact ⟨h.1.trans hrw, h.2.trans hrh⟩
  | confined w h' => exact absurd ⟨w, h', rfl⟩ hform

/-- **A size in order names few pixels**: those of the region bound them unless they are left
open. -/
theorem exists_atMost {s : Size} {rw rh : ℤ} (hm : m ≤ 511) (hmn : m + n ≤ 1022) (hrw : rw ≤ 2 ^ m)
    (hrh : rh ≤ 2 ^ m) (hcheck : s.check (some rw) (some rh) (d.hasFeature .sizeUpscaling) = .ok s)
    (hopen : d.LeavesOpen s → s.form.AtMost (2 ^ n)) :
    ∃ k, m + k ≤ 1022 ∧ s.form.AtMost (2 ^ k) := by
  by_cases hs : d.LeavesOpen s
  · exact ⟨n, hmn, hopen hs⟩
  · refine ⟨m, by omega, ?_⟩
    have hrule := (Size.check_eq_ok_iff.mp hcheck).2
    unfold LeavesOpen at hs
    split_ifs at hrule hs
    · exact absurd hrule hs
    · exact atMost_of_within hrule.within hrw hrh hs

/-- **What is delivered comes to dimensions**, and they are compared with the limits. -/
theorem exists_deliveryErrors (hd : d.InRange m) (hm : m ≤ 511) (hmn : m + n ≤ 1022)
    {text : String} {rw rh : ℤ} {size : Judged Size} (hrw : 0 ≤ rw ∧ rw ≤ 2 ^ m)
    (hrh : 0 ≤ rh ∧ rh ≤ 2 ^ m)
    (hsize : (Segment.text text).checkSize (some rw) (some rh) (d.hasFeature .sizeUpscaling) =
      .ok size)
    (hopen : ∀ s, Size.parse text = .ok (.ok s) → d.LeavesOpen s → s.form.AtMost (2 ^ n)) :
    ∃ es, d.deliveryErrors (some (rw, rh)) size = .ok es := by
  cases size with
  | error e => exact ⟨_, rfl⟩
  | ok s =>
    obtain ⟨hparse, hcheck⟩ := Segment.checkSize_eq_ok_iff.mp hsize
    obtain ⟨cs, -, hspells⟩ := Size.spells_of_parse hparse
    obtain ⟨k, hmk, hform⟩ := exists_atMost hm hmn hrw.2 hrh.2 hcheck (hopen s hparse)
    unfold deliveryErrors
    dsimp only
    split_ifs with hempty
    · exact ⟨_, rfl⟩
    · rw [not_or, not_or] at hempty
      obtain ⟨ow, oh, hdelivered, how, hoh⟩ := Size.exists_delivered hspells hform
        (by omega) hrw.2 (by omega) hrh.2 hm hmk
      rw [hdelivered, Outcome.ok_bind]
      exact exists_limitErrors hd how hoh

end Descriptor

/-! ### The whole request -/

namespace Request

/-- A region in order comes to dimensions that are not larger than the image. -/
theorem exists_regionDimensions {text : String} {region : Judged Segment} {width height : ℤ}
    {m : ℕ} (h : (Segment.text text).checkRegion (some width) (some height) = .ok region)
    (hw0 : 0 < width) (hw : width ≤ 2 ^ m) (hh0 : 0 < height) (hh : height ≤ 2 ^ m) (hm : m ≤ 511) :
    (∃ e, region = .error e ∧ regionDimensions region (some width) (some height) = .ok none) ∨
    ∃ rw rh, regionDimensions region (some width) (some height) = .ok (some (rw, rh)) ∧
      (0 ≤ rw ∧ rw ≤ 2 ^ m) ∧ 0 ≤ rh ∧ rh ≤ 2 ^ m := by
  cases region with
  | error e => exact .inl ⟨e, rfl, rfl⟩
  | ok v =>
    right
    obtain ⟨r, hr, rfl⟩ := Segment.checkRegion_eq_ok h
    obtain ⟨rw, rh, hdim, ⟨hrw0, hrw⟩, hrh0, hrh⟩ :=
      Region.exists_dimensions (Region.spells_of_parse hr) hw0 hw hh0 hh (by omega)
    exact ⟨rw, rh, Outcome.map_eq_ok.mpr ⟨(rw, rh), hdim, rfl⟩, ⟨hrw0, hrw.trans hw⟩, hrh0,
      hrh.trans hh⟩

/-- **From the region to the limits**: the size is judged against the dimensions of the region, which
are known where the region is in order, and so is what is delivered. -/
theorem exists_delivery {d : Descriptor} {m n : ℕ} {text sizeText : String}
    {region : Judged Segment} (hd : d.InRange m) (hw0 : 0 < d.width) (hh0 : 0 < d.height)
    (hm : m ≤ 511) (hmn : m + n ≤ 1022)
    (hregion : (Segment.text text).checkRegion (some d.width) (some d.height) = .ok region)
    (hsize : ShortRuns sizeText.toList)
    (hopen : ∀ s, Size.parse sizeText = .ok (.ok s) → d.LeavesOpen s → s.form.AtMost (2 ^ n)) :
    ∃ dimensions? size es,
      regionDimensions region (some d.width) (some d.height) = .ok dimensions? ∧
      (Segment.text sizeText).checkSize (dimensions?.map Prod.fst) (dimensions?.map Prod.snd)
        (d.hasFeature .sizeUpscaling) = .ok size ∧
      d.deliveryErrors dimensions? size = .ok es := by
  rcases exists_regionDimensions hregion hw0 hd.width_le hh0 hd.height_le hm with
    ⟨e, rfl, hdim⟩ | ⟨rw, rh, hdim, hrw, hrh⟩
  · obtain ⟨size, hs⟩ := Segment.exists_checkSize hsize none none (d.hasFeature .sizeUpscaling)
    refine ⟨none, size, [], hdim, hs, ?_⟩
    cases size <;> rfl
  · obtain ⟨size, hs⟩ :=
      Segment.exists_checkSize hsize (some rw) (some rh) (d.hasFeature .sizeUpscaling)
    obtain ⟨es, hes⟩ := Descriptor.exists_deliveryErrors hd hm hmn hrw hrh hs hopen
    exact ⟨some (rw, rh), size, es, hdim, hs, hes⟩

end Request

namespace ImageUri

variable {u : ImageUri} {d : Descriptor} {v : Json} {r : ShapeReport} {m n : ℕ}

/-- **The request of a URI is judged** against every service whose document has an accepted shape, if
no run of digits is too long and the numbers are in range: the sides of the image, and the pixels
that the size names where no rule bounds them. -/
theorem exists_report (hshape : Shape.check v = .ok r) (hvalid : r.valid = true)
    (hread : Descriptor.ofJson v = .ok d) (hd : d.InRange m) (hm : m ≤ 511) (hmn : m + n ≤ 1022)
    (hregion : ShortRuns u.region.toList) (hsize : ShortRuns u.size.toList)
    (hrotation : ShortRuns u.rotation.toList)
    (hopen : ∀ s, Size.parse u.size = .ok (.ok s) → d.LeavesOpen s → s.form.AtMost (2 ^ n)) :
    ∃ report, u.request.check (some d) = .ok report := by
  obtain ⟨hw0, hh0, -⟩ := Descriptor.positive_of_shape hshape hvalid hread
  obtain ⟨region, hr⟩ := Segment.exists_checkRegion hregion (some d.width) (some d.height)
  obtain ⟨dimensions?, size, es, hdim, hs, hes⟩ :=
    Request.exists_delivery hd hw0 hh0 hm hmn hr hsize hopen
  obtain ⟨rotation, hrot⟩ :=
    Segment.exists_checkRotation hrotation (d.hasFeature .rotationArbitrary) d.mirrors
  obtain ⟨quality, hq⟩ := Segment.exists_checkQuality u.quality d.qualities
  obtain ⟨format, hf⟩ := Segment.exists_checkFormat u.format d.formats
  obtain ⟨regionWarnings, hrw⟩ := Descriptor.exists_regionWarnings (d := d) hr
  obtain ⟨sizeWarnings, hsw⟩ := Descriptor.exists_sizeWarnings (d := d) hs
  have hjudge : u.request.judge (.ofDescriptor d) =
      .ok ⟨region, dimensions?, size, rotation, quality, format⟩ := by
    unfold ImageUri.request Request.ofTexts Request.judge Terms.ofDescriptor
    dsimp only
    rw [hr, Outcome.ok_bind, hdim, Outcome.ok_bind, hs, Outcome.ok_bind, hrot, Outcome.ok_bind, hq,
      Outcome.ok_bind, hf]
    rfl
  refine ⟨_, Outcome.bind_eq_ok.mpr ⟨_, hjudge, Outcome.bind_eq_ok.mpr ⟨_, hrw,
    Outcome.bind_eq_ok.mpr ⟨_, hsw, Outcome.bind_eq_ok.mpr ⟨_, hes, rfl⟩⟩⟩⟩⟩

/-- The document of a service of level 2 for an image of this width and height. -/
def level2Document (width height : ℤ) : Json :=
  .object [("@context", .text imageContext), ("id", .text "https://example.org/iiif/1"),
    ("type", .text imageServiceType), ("protocol", .text imageProtocol),
    ("profile", .text "level2"), ("width", .int width), ("height", .int height)]

/-- A confined size that is larger than its region. -/
theorem exists_report_of_confined : ∃ (u : ImageUri) (r : ShapeReport) (d : Descriptor),
    parse "https://example.org/iiif/1/pct:10,10,50.5,20/!5000,6000/90/color.png" = .ok u ∧
    Shape.check (level2Document 4000 3000) = .ok r ∧ r.valid = true ∧
    Descriptor.ofJson (level2Document 4000 3000) = .ok d ∧
    ∃ report, u.request.check (some d) = .ok report := by
  obtain ⟨u, hu⟩ : ∃ u, u = (⟨"https://example.org/iiif/1", "1", "pct:10,10,50.5,20",
    "!5000,6000", "90", "color", "png"⟩ : ImageUri) := ⟨_, rfl⟩
  have hparse : parse "https://example.org/iiif/1/pct:10,10,50.5,20/!5000,6000/90/color.png" =
      .ok u := by rw [hu]; decide +kernel
  have hsize : Size.parse u.size = .ok (.ok ⟨.confined 5000 6000, false⟩) := by
    rw [hu]; decide +kernel
  have hshape : Shape.check (level2Document 4000 3000) = .ok ⟨[], []⟩ := by rfl
  refine ⟨u, _, _, hparse, hshape, rfl, rfl, exists_report (m := 12) (n := 13) hshape rfl rfl
    ⟨by decide, by decide, by rintro _ ⟨⟩, by rintro _ ⟨⟩, by rintro _ ⟨⟩⟩ (by decide) (by decide)
    ?_ ?_ ?_ ?_⟩
  · rw [hu]; exact shortRuns_of_length (by decide)
  · rw [hu]; exact shortRuns_of_length (by decide)
  · rw [hu]; exact shortRuns_of_length (by decide)
  · intro s hs _
    rw [hsize] at hs
    cases hs
    exact ⟨by decide, by decide⟩

/-- The aspect of a very wide image is zero, and the height of a size is divided by it. -/
theorem not_exists_report_of_wide : ¬ ∀ (uri : String) (u : ImageUri) (v : Json) (r : ShapeReport)
    (d : Descriptor), parse uri = .ok u → Shape.check v = .ok r → r.valid = true →
      Descriptor.ofJson v = .ok d → ∃ report, u.request.check (some d) = .ok report := by
  intro h
  have hparse : parse "https://example.org/iiif/1/full/,1/0/default.jpg" =
      .ok ⟨"https://example.org/iiif/1", "1", "full", ",1", "0", "default", "jpg"⟩ := by
    decide +kernel
  have hshape : Shape.check (level2Document (10 ^ 400) 1) = .ok ⟨[], []⟩ := by rfl
  obtain ⟨d, hd, hfail⟩ : ∃ d, Descriptor.ofJson (level2Document (10 ^ 400) 1) = .ok d ∧
      (Request.ofTexts "full" ",1" "0" "default" "jpg").check (some d) =
        .error .floatDivisionByZero := ⟨_, rfl, by decide +kernel⟩
  obtain ⟨report, hreport⟩ := h _ _ _ _ d hparse hshape rfl hd
  exact absurd (hfail.symm.trans hreport) nofun

end ImageUri

end IiifRules
