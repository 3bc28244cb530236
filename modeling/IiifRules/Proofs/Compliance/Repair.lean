import Mathlib
import IiifRules.Proofs.Compliance.Bare

/-! # What is lacking, as a list of repairs

A report on compliance lists what a service lacks. To offer more takes exactly what is offered out
of that list, for every level, so that the list is what has to be offered and no entry of it can be
left out.

* `Capability`, `ComplianceReport.missing`: the three lists of a report as one.
* `Descriptor.offering`: the service with more extras at the end of its lists.
* `Descriptor.missing_offering`: what is lacking once more is offered.
* `Descriptor.missing_repairs`: the list of what is lacking is the list of repairs. -/

namespace IiifRules

/-- One thing that a level can require. -/
inductive Capability
  | feature (f : Feature)
  | format (f : ImageFormat)
  | quality (q : Quality)
deriving DecidableEq

namespace Capability

def feature? : Capability → Option Feature
  | feature f => some f
  | _ => none

def format? : Capability → Option ImageFormat
  | format f => some f
  | _ => none

def quality? : Capability → Option Quality
  | quality q => some q
  | _ => none

variable {c : Capability}

@[simp]
theorem feature?_eq_some_iff {f : Feature} : c.feature? = some f ↔ c = feature f := by
  cases c <;> simp [feature?]

@[simp]
theorem format?_eq_some_iff {f : ImageFormat} : c.format? = some f ↔ c = format f := by
  cases c <;> simp [format?]

@[simp]
theorem quality?_eq_some_iff {q : Quality} : c.quality? = some q ↔ c = quality q := by
  cases c <;> simp [quality?]

end Capability

/-- What a level requires, in the order of its tables. -/
def ComplianceLevel.requirements (level : ComplianceLevel) : List Capability :=
  level.features.map .feature ++ level.formats.map .format ++ level.qualities.map .quality

namespace ComplianceLevel

variable (level : ComplianceLevel)

theorem nodup_features : level.features.Nodup := by cases level <;> decide

theorem nodup_formats : level.formats.Nodup := by cases level <;> decide

theorem nodup_qualities : level.qualities.Nodup := by cases level <;> decide

theorem nodup_requirements : level.requirements.Nodup := by cases level <;> decide

end ComplianceLevel

/-- **All that is lacking**, in the order of a report. -/
def ComplianceReport.missing (r : ComplianceReport) : List Capability :=
  r.missingFeatures.map .feature ++ r.missingFormats.map .format ++
    r.missingQualities.map .quality

theorem ComplianceReport.compliant_iff_missing {r : ComplianceReport} :
    r.compliant = true ↔ r.missing = [] := by
  simp [compliant, missing, and_assoc]

/-- Without one of its items a list without repetitions covers all of them but that one. -/
theorem filter_notMem_erase {α : Type*} [DecidableEq α] {l : List α} {x : α} (h : l.Nodup)
    (hx : x ∈ l) : l.filter (· ∉ l.erase x) = [x] := by
  have hrest : ∀ y ∈ l, decide (y ∉ l.erase x) = decide (y = x) := by
    intro y hy
    rw [decide_eq_decide, h.mem_erase_iff]
    tauto
  rw [List.filter_congr hrest, List.filter_eq, List.count_eq_one_of_mem h hx]
  rfl

namespace Descriptor

variable {d : Descriptor} {level : ComplianceLevel} {cs : List Capability} {c : Capability}

/-- Whether the service has what a level can require. -/
def has (d : Descriptor) : Capability → Bool
  | .feature f => d.hasFeature f
  | .format f => d.hasFormat f
  | .quality q => d.hasQuality q

/-- **The service with more extras**, each at the end of its list. -/
def offering (d : Descriptor) (cs : List Capability) : Descriptor :=
  { d with
    extraFeatures := d.extraFeatures ++ cs.filterMap Capability.feature?
    extraFormats := d.extraFormats ++ cs.filterMap Capability.format?
    extraQualities := d.extraQualities ++ cs.filterMap Capability.quality? }

/-! ### What is lacking -/

/-- **What is lacking** is what the service has not got of the requirements. -/
theorem missing_checkLevel :
    (d.checkLevel level).missing = level.requirements.filter fun c => !d.has c := by
  simp only [ComplianceReport.missing, checkLevel, ComplianceLevel.requirements,
    List.filter_append, List.filter_map]
  rfl

theorem nodup_missing : (d.checkLevel level).missing.Nodup := by
  rw [missing_checkLevel]
  exact level.nodup_requirements.filter _

/-- What is offered in addition is had in addition. -/
theorem has_offering : (d.offering cs).has c = (d.has c || decide (c ∈ cs)) := by
  rw [Bool.eq_iff_iff, Bool.or_eq_true, decide_eq_true_eq]
  cases c with
  | feature f => simp [has, hasFeature, offering, or_assoc]
  | format f => simp [has, hasFormat, offering, or_assoc]
  | quality q => simp [has, hasQuality, offering, or_assoc]

/-- **What is offered is taken out** of what is lacking, and nothing is put in. -/
theorem missing_offering : ((d.offering cs).checkLevel level).missing =
    (d.checkLevel level).missing.filter (· ∉ cs) := by
  rw [missing_checkLevel, missing_checkLevel, List.filter_filter]
  refine List.filter_congr fun c _ => ?_
  rw [has_offering, Bool.not_or, Bool.and_comm, decide_not]

/-- To offer all that is lacking is to append the three lists of the report. -/
theorem offering_missing (d : Descriptor) (r : ComplianceReport) : d.offering r.missing =
    { d with
      extraFeatures := d.extraFeatures ++ r.missingFeatures
      extraFormats := d.extraFormats ++ r.missingFormats
      extraQualities := d.extraQualities ++ r.missingQualities } := by
  simp [offering, ComplianceReport.missing, List.filterMap_append, List.filterMap_map,
    Function.comp_def, Capability.feature?, Capability.format?, Capability.quality?]

/-- **The list of what is lacking is the list of repairs.** It is what the level requires and the
service has not got. To offer all of it makes a service comply; to offer all but one of it leaves
exactly that one lacking; it follows the tables of the level, without repetitions; and to offer
anything more lets nothing else be lacking. -/
theorem missing_repairs (d : Descriptor) (level : ComplianceLevel) :
    let r := d.checkLevel level
    (∀ c, c ∈ r.missing ↔ c ∈ level.requirements ∧ d.has c = false) ∧
    (({ d with
        extraFeatures := d.extraFeatures ++ r.missingFeatures
        extraFormats := d.extraFormats ++ r.missingFormats
        extraQualities := d.extraQualities ++ r.missingQualities } : Descriptor).checkLevel
      level).compliant = true ∧
    (∀ c ∈ r.missing, ((d.offering (r.missing.erase c)).checkLevel level).missing = [c]) ∧
    (r.missingFeatures.Sublist level.features ∧ r.missingFeatures.Nodup) ∧
    (r.missingFormats.Sublist level.formats ∧ r.missingFormats.Nodup) ∧
    (r.missingQualities.Sublist level.qualities ∧ r.missingQualities.Nodup) ∧
    ∀ (cs : List Capability) (level' : ComplianceLevel),
      ((d.offering cs).checkLevel level').missing.Sublist (d.checkLevel level').missing := by
  intro r
  have hfeatures : r.missingFeatures.Sublist level.features := List.filter_sublist
  have hformats : r.missingFormats.Sublist level.formats := List.filter_sublist
  have hqualities : r.missingQualities.Sublist level.qualities := List.filter_sublist
  refine ⟨fun c => ?_, ?_, fun c hc => ?_, ⟨hfeatures, level.nodup_features.sublist hfeatures⟩,
    ⟨hformats, level.nodup_formats.sublist hformats⟩,
    ⟨hqualities, level.nodup_qualities.sublist hqualities⟩, fun cs level' => ?_⟩
  · rw [missing_checkLevel, List.mem_filter, Bool.not_eq_true']
  · rw [← offering_missing, ComplianceReport.compliant_iff_missing, missing_offering,
      List.filter_eq_nil_iff]
    simp [r]
  · rw [missing_offering]
    exact filter_notMem_erase nodup_missing hc
  · rw [missing_offering]
    exact List.filter_sublist

/-- A service of level 1 lacks eight of the things that level 2 requires. -/
theorem missing_repairs_of_level1 :
    let d := bounded 1000 .level1 []
    let lacking : List Capability :=
      [.feature .regionByPct, .feature .sizeByConfinedWh, .feature .sizeByPct,
       .feature .rotationBy90s, .format .png, .quality .color, .quality .gray, .quality .bitonal]
    (d.checkLevel .level2).missing = lacking ∧
      ((d.offering (lacking.erase (.format .png))).checkLevel .level2).missing =
        [.format .png] := by
  intro d lacking
  have hlacking : (d.checkLevel .level2).missing = lacking := by decide
  have hmem : Capability.format .png ∈ (d.checkLevel .level2).missing := by
    rw [hlacking]
    decide
  have hleft := (missing_repairs d .level2).2.2.1 _ hmem
  rw [hlacking] at hleft
  exact ⟨hlacking, hleft⟩

end Descriptor

end IiifRules
