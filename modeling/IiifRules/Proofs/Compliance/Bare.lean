import Mathlib
import IiifRules.Proofs.Request.Monotone

/-! # What compliance with a level promises

A service complies with a level if nothing that the level requires is lacking. It then stands in for
the bare service of that level, one that declares the level and offers nothing beyond it, except
that level 2 grants mirroring to those who declare it and does not require it of the others.

* `Descriptor.compliant_iff`: compliance, as a statement about the tables.
* `Descriptor.covers_bare`: a service that complies with a level does what the bare one does.
* `Request.passes_iff_of_compliant`: which requests in order for the bare service it refuses. -/

namespace IiifRules

namespace Descriptor

variable {d : Descriptor} {level : ComplianceLevel}

/-- **The bare service of a level** for the image and with the limits of `d`. -/
def bare (d : Descriptor) (level : ComplianceLevel) : Descriptor :=
  { d with profile := level, extraFeatures := [], extraFormats := [], extraQualities := [] }

@[simp]
theorem hasFeature_bare (f : Feature) :
    (d.bare level).hasFeature f = true ↔ f ∈ level.features := by
  simp [bare, hasFeature]

@[simp]
theorem hasFormat_bare (f : ImageFormat) :
    (d.bare level).hasFormat f = true ↔ f ∈ level.formats := by
  simp [bare, hasFormat]

@[simp]
theorem hasQuality_bare (q : Quality) :
    (d.bare level).hasQuality q = true ↔ q ∈ level.qualities := by
  simp [bare, hasQuality]

/-- **A service complies with a level** if it has all that the level's tables list. -/
theorem compliant_iff : (d.checkLevel level).compliant = true ↔
    (∀ f ∈ level.features, d.hasFeature f = true) ∧
    (∀ f ∈ level.formats, d.hasFormat f = true) ∧
    (∀ q ∈ level.qualities, d.hasQuality q = true) := by
  simp [checkLevel, ComplianceReport.compliant, List.filter_eq_nil_iff, and_assoc]

/-- **A service that complies with a level** does what the bare service of the level does. -/
theorem covers_bare (h : (d.checkLevel level).compliant = true) : d.Covers (d.bare level) := by
  obtain ⟨hfeatures, hformats, hqualities⟩ := compliant_iff.mp h
  exact {
    width_eq := rfl
    height_eq := rfl
    hasFeature := fun f hf => hfeatures f ((hasFeature_bare f).mp hf)
    hasFormat := fun f hf => hformats f ((hasFormat_bare f).mp hf)
    hasQuality := fun q hq => hqualities q ((hasQuality_bare q).mp hq)
    allows := fun _ _ hallows => ⟨hallows.width_le, hallows.height_le, hallows.area_le⟩ }

end Descriptor

namespace Request

open Descriptor

variable {r : Request} {d : Descriptor} {level : ComplianceLevel}

/-- **A service that complies with a level** takes every request that the bare service of the level
takes, but for one that mirrors if it does not do so itself. -/
theorem passes_iff_of_compliant (hd : (d.checkLevel level).compliant = true)
    (h : r.Passes (some (d.bare level))) :
    r.Passes (some d) ↔ (r.Mirrors → d.mirrors = true) :=
  ⟨Passes.mirrors, fun hm => h.of_covers (covers_bare hd) fun hr _ => hm hr⟩

/-- What level 2 requires beyond level 1. -/
def beyondLevel1 : List Feature := [.regionByPct, .sizeByConfinedWh, .sizeByPct, .rotationBy90s]

/-- A service of level 1 that complies with level 2. -/
def completed : Descriptor :=
  { bounded 1000 .level1 beyondLevel1 with
    extraFormats := [.png]
    extraQualities := [.color, .gray, .bitonal] }

theorem passes_completed_of_quarterTurn :
    let r := ofTexts "pct:0,0,50,50" "!300,300" "90" "gray" "png"
    (completed.checkLevel .level2).compliant = true ∧ r.Passes (some (completed.bare .level2)) ∧
      r.Passes (some completed) := by
  intro r
  have hd : (completed.checkLevel .level2).compliant = true := by decide
  have h : r.Passes (some (completed.bare .level2)) := ⟨⟨[], []⟩, by decide +kernel, rfl⟩
  refine ⟨hd, h, (passes_iff_of_compliant hd h).mpr ?_⟩
  rintro ⟨v, hv, hm⟩
  have hread : r.rotation.readRotation = .ok (.ok ⟨.ofInt 90, false⟩) := by decide +kernel
  rw [hread] at hv
  cases hv
  cases hm

/-- It does not stand in for a bare service of level 2, which mirrors. -/
theorem completed_not_bare : ¬ ∀ (d : Descriptor) (level : ComplianceLevel) (r : Request),
    (d.checkLevel level).compliant = true → r.Passes (some (d.bare level)) →
      r.Passes (some d) := by
  intro h
  let r := ofTexts "full" "max" "!0" "default" "jpg"
  obtain ⟨report, hreport, hvalid⟩ := h completed .level2 r (by decide)
    ⟨⟨[], []⟩, by decide +kernel, rfl⟩
  have hrefused : r.check (some completed) = .ok ⟨[.mirroringUnsupported], []⟩ := by
    decide +kernel
  rw [hrefused] at hreport
  cases hreport
  cases hvalid

end Request

end IiifRules
