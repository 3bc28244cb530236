import Mathlib
import IiifRules.Proofs.Outcome
import IiifRules.Request.Check

/-! # Requests in order

A request is in order if judging it comes to a report without errors. Each of its axes then has a
value, and the rules that the value had to meet can be read off.

* `Segment.checkSize_eq_ok_iff`, …, `Segment.checkFormat_eq_ok_iff`: one axis.
* `Request.JudgedAs`: the values of all axes of a request in order.
* `Request.passes_none_iff`, `Request.passes_some_iff`: what a request in order is. -/

namespace IiifRules

open Numeric

/-! ### One axis -/

/-- A form that does not enlarge a region as far as its dimensions are known. -/
def SizeForm.Fits (width? height? : Option ℤ) : SizeForm → Prop
  | max => True
  | width w => ∀ width ∈ width?, w ≤ width
  | height h => ∀ height ∈ height?, h ≤ height
  | percent n => Binary64.lt (.ofInt 100) n = false
  | exact w h => ∀ width ∈ width?, ∀ height ∈ height?, w ≤ width ∧ h ≤ height
  | confined _ _ => True

/-- A form that fits a region fits where none is known. -/
theorem SizeForm.Fits.none {form : SizeForm} {width? height? : Option ℤ}
    (h : form.Fits width? height?) : form.Fits none none := by
  cases form with
  | percent n => exact h
  | _ => simp [Fits]

/-- **A size in order** is kept; it fits the region, or it has a caret and the service enlarges
regions. -/
theorem Size.check_eq_ok_iff {s s' : Size} {width? height? : Option ℤ} {upscaling : Bool} :
    s.check width? height? upscaling = .ok s' ↔
      s' = s ∧ if s.upscale then upscaling = true else s.form.Fits width? height? := by
  obtain ⟨form, upscale⟩ := s
  unfold check
  cases upscale with
  | true => cases upscaling <;> simp [eq_comm]
  | false =>
    rw [if_neg (by simp), if_neg (by simp)]
    cases form with
    | max => simp [SizeForm.Fits, eq_comm]
    | width w => cases width? <;> simp [SizeForm.Fits, Outcome.ite_error_eq_ok, @eq_comm _ s']
    | height h => cases height? <;> simp [SizeForm.Fits, Outcome.ite_error_eq_ok, @eq_comm _ s']
    | percent n => simp [SizeForm.Fits, Outcome.ite_error_eq_ok, @eq_comm _ s']
    | exact w h =>
      cases width? <;> cases height? <;>
        simp [SizeForm.Fits, Outcome.ite_error_eq_ok, @eq_comm _ s']
    | confined w h => simp [SizeForm.Fits, eq_comm]

/-- **A rotation in order** is kept; it mirrors only if the service does, lies in its range, and is
one by quarters unless the service takes any. -/
theorem Rotation.check_eq_ok_iff {r r' : Rotation} {arbitrary mirroring : Bool} :
    r.check arbitrary mirroring = .ok r' ↔ r' = r ∧ (r.mirror = true → mirroring = true) ∧
      (Binary64.le .zero r.degrees && Binary64.le r.degrees (.ofInt 360)) = true ∧
      (arbitrary = false → r.degrees.isMultipleOf 90 = true) := by
  unfold check
  generalize (Binary64.le .zero r.degrees && Binary64.le r.degrees (.ofInt 360)) = inRange
  generalize r.degrees.isMultipleOf 90 = quarter
  cases hm : r.mirror <;> cases mirroring <;> cases inRange <;> cases arbitrary <;>
    cases quarter <;> simp [eq_comm]

namespace Segment

variable {s v : Segment} {width? height? : Option ℤ}

/-- A region in order within an image is in order without one. -/
theorem checkRegion_none (h : s.checkRegion width? height? = .ok (.ok v)) :
    s.checkRegion none none = .ok (.ok v) := by
  obtain ⟨value, hvalue, h⟩ := Outcome.bind_eq_ok.mp h
  refine Outcome.bind_eq_ok.mpr ⟨value, hvalue, ?_⟩
  cases value with
  | error e => cases h
  | ok w =>
    dsimp only at h ⊢
    split at h
    · split_ifs at h
      · cases h
      · exact h
    · split
      · contradiction
      · exact h

/-- **An axis that is read and then checked** by a rule that keeps what it takes. -/
theorem checked_eq_ok_iff {α : Type} {read : Except Failure (Parsed α)}
    {judge : Parsed α → Except Failure (Judged α)} {check : α → Judged α} {a : α}
    (hok : ∀ b, judge (.ok b) = .ok (check b))
    (herror : ∀ e, judge (.error e) = .ok (.error (.grammar e)))
    (hkeep : ∀ b, check b = .ok a → a = b) :
    (read >>= judge) = .ok (.ok a) ↔ read = .ok (.ok a) ∧ check a = .ok a := by
  rw [Outcome.bind_eq_ok]
  constructor
  · rintro ⟨parsed, hread, h⟩
    cases parsed with
    | error e =>
      rw [herror] at h
      cases h
    | ok b =>
      rw [hok] at h
      injection h with h
      obtain rfl := hkeep b h
      exact ⟨hread, h⟩
  · rintro ⟨hread, h⟩
    exact ⟨_, hread, (hok a).trans (congrArg Except.ok h)⟩

theorem checkSize_eq_ok_iff {upscaling : Bool} {v : Size} :
    s.checkSize width? height? upscaling = .ok (.ok v) ↔
      s.readSize = .ok (.ok v) ∧ v.check width? height? upscaling = .ok v :=
  checked_eq_ok_iff (fun _ => rfl) (fun _ => rfl) fun _ h => (Size.check_eq_ok_iff.mp h).1

theorem checkRotation_eq_ok_iff {arbitrary mirroring : Bool} {v : Rotation} :
    s.checkRotation arbitrary mirroring = .ok (.ok v) ↔
      s.readRotation = .ok (.ok v) ∧ v.check arbitrary mirroring = .ok v :=
  checked_eq_ok_iff (fun _ => rfl) (fun _ => rfl) fun _ h => (Rotation.check_eq_ok_iff.mp h).1

theorem checkQuality_eq_ok_iff {supported : List Quality} {q : Quality} :
    s.checkQuality supported = .ok (.ok q) ↔ s.term? Quality = some q ∧ q ∈ supported := by
  unfold checkQuality
  constructor
  · intro h
    split at h
    · obtain ⟨shown, -, h⟩ := Outcome.bind_eq_ok.mp h
      cases h
    · rename_i q' hterm
      split_ifs at h with hmem
      · cases h
        exact ⟨hterm, List.contains_iff_mem.mp hmem⟩
      · cases h
  · rintro ⟨hterm, hmem⟩
    rw [hterm]
    dsimp only
    rw [if_pos (List.contains_iff_mem.mpr hmem)]
    rfl

theorem checkFormat_eq_ok_iff {supported : List ImageFormat} {f : ImageFormat} :
    s.checkFormat supported = .ok (.ok f) ↔ s.term? ImageFormat = some f ∧ f ∈ supported := by
  unfold checkFormat
  constructor
  · intro h
    split at h
    · obtain ⟨shown, -, h⟩ := Outcome.bind_eq_ok.mp h
      cases h
    · rename_i f' hterm
      split_ifs at h with hmem
      · cases h
        exact ⟨hterm, List.contains_iff_mem.mp hmem⟩
      · cases h
  · rintro ⟨hterm, hmem⟩
    rw [hterm]
    dsimp only
    rw [if_pos (List.contains_iff_mem.mpr hmem)]
    rfl

end Segment

/-! ### All axes -/

theorem Judged.errors_eq_nil {α : Type} {j : Judged α} (h : j.errors = []) : ∃ a, j = .ok a := by
  cases j with
  | error e => cases h
  | ok a => exact ⟨a, rfl⟩

namespace Request

/-- The values of the axes of a request in order, and the dimensions of its region as far as they
are known. -/
structure Values where
  region : Segment
  dimensions? : Option (ℤ × ℤ)
  size : Size
  rotation : Rotation
  quality : Quality
  format : ImageFormat

/-- **All axes of a request are in order** and have these values. -/
structure JudgedAs (r : Request) (t : Terms) (a : Values) : Prop where
  region : r.region.checkRegion t.width? t.height? = .ok (.ok a.region)
  dimensions : regionDimensions (.ok a.region) t.width? t.height? = .ok a.dimensions?
  size : r.size.checkSize (a.dimensions?.map Prod.fst) (a.dimensions?.map Prod.snd) t.upscaling =
    .ok (.ok a.size)
  rotation : r.rotation.checkRotation t.arbitraryRotation t.mirroring = .ok (.ok a.rotation)
  quality : r.quality.checkQuality t.qualities = .ok (.ok a.quality)
  format : r.format.checkFormat t.formats = .ok (.ok a.format)

/-- The values of the axes, judged. -/
def Values.judged (a : Values) : JudgedRequest :=
  ⟨.ok a.region, a.dimensions?, .ok a.size, .ok a.rotation, .ok a.quality, .ok a.format⟩

variable {r : Request} {t : Terms} {d : Descriptor} {j : JudgedRequest} {a : Values}

theorem judgedAs_iff : r.JudgedAs t a ↔ r.judge t = .ok a.judged := by
  constructor
  · rintro ⟨hregion, hdimensions, hsize, hrotation, hquality, hformat⟩
    unfold judge
    rw [hregion, Outcome.ok_bind, hdimensions, Outcome.ok_bind, hsize, Outcome.ok_bind, hrotation,
      Outcome.ok_bind, hquality, Outcome.ok_bind, hformat]
    rfl
  · intro h
    obtain ⟨region, hregion, h⟩ := Outcome.bind_eq_ok.mp h
    obtain ⟨dimensions?, hdimensions, h⟩ := Outcome.bind_eq_ok.mp h
    obtain ⟨size, hsize, h⟩ := Outcome.bind_eq_ok.mp h
    obtain ⟨rotation, hrotation, h⟩ := Outcome.bind_eq_ok.mp h
    obtain ⟨quality, hquality, h⟩ := Outcome.bind_eq_ok.mp h
    obtain ⟨format, hformat, h⟩ := Outcome.bind_eq_ok.mp h
    cases h
    exact ⟨hregion, hdimensions, hsize, hrotation, hquality, hformat⟩

/-- **No axis is at fault** if all of them have values. -/
theorem errors_eq_nil_iff : j.errors = [] ↔ ∃ a : Values, j = a.judged := by
  constructor
  · intro h
    simp only [JudgedRequest.errors, List.append_eq_nil_iff] at h
    obtain ⟨⟨⟨⟨hregion, hsize⟩, hrotation⟩, hquality⟩, hformat⟩ := h
    obtain ⟨region, hregion⟩ := Judged.errors_eq_nil hregion
    obtain ⟨size, hsize⟩ := Judged.errors_eq_nil hsize
    obtain ⟨rotation, hrotation⟩ := Judged.errors_eq_nil hrotation
    obtain ⟨quality, hquality⟩ := Judged.errors_eq_nil hquality
    obtain ⟨format, hformat⟩ := Judged.errors_eq_nil hformat
    refine ⟨⟨region, j.dimensions?, size, rotation, quality, format⟩, ?_⟩
    rw [Values.judged, ← hregion, ← hsize, ← hrotation, ← hquality, ← hformat]
  · rintro ⟨a, rfl⟩
    rfl

/-- **The request is in order**: judging it comes to a report without errors. -/
def Passes (r : Request) (d? : Option Descriptor) : Prop :=
  ∃ report, r.check d? = .ok report ∧ report.valid = true

theorem passes_none_iff : r.Passes none ↔ ∃ a, r.JudgedAs .grammar a := by
  constructor
  · rintro ⟨report, h, hvalid⟩
    obtain ⟨j, hj, h⟩ := Outcome.bind_eq_ok.mp h
    cases h
    obtain ⟨a, rfl⟩ := errors_eq_nil_iff.mp (List.isEmpty_iff.mp hvalid)
    exact ⟨a, judgedAs_iff.mpr hj⟩
  · rintro ⟨a, ha⟩
    exact ⟨_, Outcome.bind_eq_ok.mpr ⟨_, judgedAs_iff.mp ha, rfl⟩, rfl⟩

/-- **A request in order for a service** has values, their warnings can be worded, and what is
delivered exceeds no limit. -/
theorem passes_some_iff : r.Passes (some d) ↔ ∃ a, r.JudgedAs (.ofDescriptor d) a ∧
    (∃ ws, d.regionWarnings (.ok a.region) = .ok ws) ∧
    (∃ ws, d.sizeWarnings (.ok a.size) = .ok ws) ∧
    d.deliveryErrors a.dimensions? (.ok a.size) = .ok [] := by
  constructor
  · rintro ⟨report, h, hvalid⟩
    obtain ⟨j, hj, h⟩ := Outcome.bind_eq_ok.mp h
    obtain ⟨regionWarnings, hregion, h⟩ := Outcome.bind_eq_ok.mp h
    obtain ⟨sizeWarnings, hsize, h⟩ := Outcome.bind_eq_ok.mp h
    obtain ⟨limits, hlimits, h⟩ := Outcome.bind_eq_ok.mp h
    cases h
    obtain ⟨herrors, rfl⟩ := List.append_eq_nil_iff.mp (List.isEmpty_iff.mp hvalid)
    obtain ⟨a, rfl⟩ := errors_eq_nil_iff.mp herrors
    exact ⟨a, judgedAs_iff.mpr hj, ⟨_, hregion⟩, ⟨_, hsize⟩, hlimits⟩
  · rintro ⟨a, ha, ⟨regionWarnings, hregion⟩, ⟨sizeWarnings, hsize⟩, hlimits⟩
    exact ⟨_, Outcome.bind_eq_ok.mpr ⟨_, judgedAs_iff.mp ha, Outcome.bind_eq_ok.mpr
      ⟨_, hregion, Outcome.bind_eq_ok.mpr ⟨_, hsize, Outcome.bind_eq_ok.mpr ⟨_, hlimits, rfl⟩⟩⟩⟩,
      rfl⟩

/-- The quality of a request in order is a known one. -/
theorem Passes.exists_quality {d? : Option Descriptor} (h : r.Passes d?) :
    ∃ q, r.quality.term? Quality = some q := by
  have hquality : ∃ t a, r.JudgedAs t a := by
    cases d? with
    | none =>
      obtain ⟨a, ha⟩ := passes_none_iff.mp h
      exact ⟨_, a, ha⟩
    | some d =>
      obtain ⟨a, ha, -⟩ := passes_some_iff.mp h
      exact ⟨_, a, ha⟩
  obtain ⟨t, a, ha⟩ := hquality
  exact ⟨a.quality, (Segment.checkQuality_eq_ok_iff.mp ha.quality).1⟩

end Request

end IiifRules
