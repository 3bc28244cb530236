import Mathlib
import IiifRules.Compliance.Level
import IiifRules.Proofs.Descriptor.Sound
import IiifRules.Proofs.Interleaved
import IiifRules.Request.Check

/-! # Unknown names change no decision

Values that name no term may be inserted anywhere into the lists of terms of a document. The
document is read to the same descriptor, or with the same faults, so that whatever is decided from
it is decided alike; the check of its shape finds the same errors, and the same warnings with one
more for each value that was inserted into a list that it looks at.

* `Insertion`, `Insertion.Applied`: values that name no term, and a document with them inserted.
* `Insertion.Applied.rel_get?`: what is found under a name in the two documents.
* `Insertion.Applied.read_eq`: the document that is read.
* `Insertion.Applied.widens_check`: the shape that is checked.
* `Insertion.Applied.same_decisions`: all of it. -/

namespace IiifRules

open Json (Members)

/-! ### Insertions -/

/-- **Values to be inserted** into the lists of terms of a document, of which none names a term of
its list. -/
structure Insertion where
  features : List Json
  formats : List Json
  qualities : List Json
  preferred : List Json
  features_unknown : ∀ v ∈ features, ∀ t : Feature, v ≠ .text (Vocabulary.name t)
  formats_unknown : ∀ v ∈ formats, ∀ t : ImageFormat, v ≠ .text (Vocabulary.name t)
  qualities_unknown : ∀ v ∈ qualities, ∀ t : Quality, v ≠ .text (Vocabulary.name t)
  preferred_unknown : ∀ v ∈ preferred, ∀ t : ImageFormat, v ≠ .text (Vocabulary.name t)

/-- A value names no term exactly if it is the name of none. -/
theorem Json.term?_eq_none {α : Type} [Vocabulary α] [Vocabulary.Lawful α] {v : Json} :
    v.term? α = none ↔ ∀ t : α, v ≠ .text (Vocabulary.name t) := by
  simp only [Option.eq_none_iff_forall_ne_some, ne_eq, Json.term?_eq_some]

theorem Json.ne_text_name_of_all {α : Type} [Vocabulary α] [Vocabulary.Lawful α] {vs : List Json}
    (h : (vs.all fun v => (v.term? α).isNone) = true) :
    ∀ v ∈ vs, ∀ t : α, v ≠ .text (Vocabulary.name t) := fun v hv =>
  Json.term?_eq_none.mp (Option.isNone_iff_eq_none.mp (List.all_eq_true.mp h v hv))

namespace Insertion

variable {i : Insertion} {ms ms' : Members} {name : String}

/-- The lists into which values are inserted. -/
def listNames : List String :=
  ["extraFeatures", "extraFormats", "extraQualities", "preferredFormats"]

/-- The values that are inserted into the array under a name. -/
def under (i : Insertion) (name : String) : List Json :=
  if name = "extraFeatures" then i.features
  else if name = "extraFormats" then i.formats
  else if name = "extraQualities" then i.qualities
  else if name = "preferredFormats" then i.preferred
  else []

theorem under_eq_nil (h : name ∉ listNames) : i.under name = [] := by
  simp only [listNames, List.mem_cons, List.not_mem_nil, or_false, not_or] at h
  unfold under
  rw [if_neg h.1, if_neg h.2.1, if_neg h.2.2.1, if_neg h.2.2.2]

/-- **A value with others inserted**: an array with its items among them, and any other value only
if there are none. -/
inductive InValue (zs : List Json) : Json → Json → Prop
  | same (v : Json) (h : zs = []) : InValue zs v v
  | array {xs ys : List Json} (h : Interleaved xs zs ys) : InValue zs (.array xs) (.array ys)

theorem InValue.eq_of_nil {v v' : Json} (h : InValue [] v v') : v' = v := by
  cases h with
  | same => rfl
  | array h => rw [h.eq_of_nil]

/-- **The members `ms'` are the members `ms` with the values inserted**, into arrays that are
there. -/
structure Applied (i : Insertion) (ms ms' : Members) : Prop where
  members : List.Forall₂ (fun m m' => m.1 = m'.1 ∧ InValue (i.under m.1) m.2 m'.2) ms ms'
  has : ∀ name, i.under name ≠ [] → Json.has ms name = true

/-! ### Looking up -/

namespace Applied

/-- **What is found under a name** is the same value with others inserted. -/
theorem rel_get? (h : i.Applied ms ms') (name : String) :
    Option.Rel (InValue (i.under name)) (Json.get? ms name) (Json.get? ms' name) := by
  obtain ⟨hmembers, -⟩ := h
  unfold Json.get?
  induction hmembers with
  | nil => exact .none
  | @cons m m' ms ms' hm hms ih =>
    obtain ⟨n, v⟩ := m
    obtain ⟨n', v'⟩ := m'
    obtain ⟨rfl, hv⟩ := hm
    rw [List.lookup_cons, List.lookup_cons]
    by_cases hn : name = n
    · subst hn
      simpa using Option.Rel.some hv
    · simpa [beq_eq_false_iff_ne.mpr hn] using ih

theorem get?_eq (h : i.Applied ms ms') (name : String) (hname : name ∉ listNames) :
    Json.get? ms' name = Json.get? ms name := by
  have hrel := h.rel_get? name
  rw [under_eq_nil hname] at hrel
  generalize Json.get? ms name = v? at hrel
  generalize Json.get? ms' name = v'? at hrel
  cases hrel with
  | none => rfl
  | some hv => rw [hv.eq_of_nil]

theorem has_eq (h : i.Applied ms ms') (name : String) : Json.has ms' name = Json.has ms name := by
  have hrel := h.rel_get? name
  unfold Json.has
  generalize Json.get? ms name = v? at hrel
  generalize Json.get? ms' name = v'? at hrel
  cases hrel with
  | none => rfl
  | some => rfl

theorem used?_eq (h : i.Applied ms ms') (f : FieldName) : f.used? ms' = f.used? ms := by
  unfold FieldName.used?
  rw [h.has_eq, h.has_eq]

/-- **A field is found under the same name**, with the same value but for the inserted ones. -/
theorem rel_find? (h : i.Applied ms ms') (f : FieldName) :
    Option.Rel (fun p p' => p.1 = p'.1 ∧ (p.1 = f.own ∨ p.1 = f.second) ∧
      InValue (i.under p.1) p.2 p'.2) (f.find? ms) (f.find? ms') := by
  have hused : ∀ name, f.used? ms = some name → name = f.own ∨ name = f.second := by
    intro name hname
    unfold FieldName.used? at hname
    split_ifs at hname
    · left
      exact (Option.some.inj hname).symm
    · right
      exact (Option.some.inj hname).symm
  unfold FieldName.find?
  rw [h.used?_eq]
  cases hname : f.used? ms with
  | none => exact .none
  | some name =>
    have hrel := h.rel_get? name
    simp only [Option.bind_eq_bind, Option.bind_some]
    generalize Json.get? ms name = v? at hrel
    generalize Json.get? ms' name = v'? at hrel
    cases hrel with
    | none => exact .none
    | some hv => exact .some ⟨rfl, hused name hname, hv⟩

/-- A field into which nothing is inserted is found with its value. -/
theorem find?_eq (h : i.Applied ms ms') {f : FieldName}
    (hf : f.own ∉ listNames ∧ f.second ∉ listNames) : f.find? ms' = f.find? ms := by
  have hrel := h.rel_find? f
  generalize f.find? ms = p? at hrel
  generalize f.find? ms' = p'? at hrel
  cases hrel with
  | none => rfl
  | @some p p' hp =>
    obtain ⟨name, v⟩ := p
    obtain ⟨name', v'⟩ := p'
    obtain ⟨rfl, hname, hv⟩ := hp
    dsimp only at hname hv ⊢
    have hnil : i.under name = [] := by
      rcases hname with rfl | rfl
      · exact under_eq_nil hf.1
      · exact under_eq_nil hf.2
    rw [hnil] at hv
    rw [hv.eq_of_nil]

/-! ### Reading -/

variable {α : Type} {f : FieldName} {read : Json → Checked α}

theorem withDefault_eq (h : i.Applied ms ms') {value : α}
    (hf : f.own ∉ listNames ∧ f.second ∉ listNames) :
    f.withDefault ms' value read = f.withDefault ms value read := by
  unfold FieldName.withDefault
  rw [h.find?_eq hf]

theorem required_eq (h : i.Applied ms ms') (hf : f.own ∉ listNames ∧ f.second ∉ listNames) :
    f.required ms' read = f.required ms read := by
  unfold FieldName.required
  rw [h.find?_eq hf]

/-- **A list of terms** is read to the terms that it had. -/
theorem readTerms_eq [Vocabulary α] (h : i.Applied ms ms')
    (hunknown : ∀ v ∈ i.under f.own, v.term? α = none) (hf : f.second ∉ listNames) :
    Descriptor.readTerms α f ms' = Descriptor.readTerms α f ms := by
  have hrel := h.rel_find? f
  unfold Descriptor.readTerms FieldName.withDefault
  generalize f.find? ms = p? at hrel
  generalize f.find? ms' = p'? at hrel
  cases hrel with
  | none => rfl
  | @some p p' hp =>
    obtain ⟨name, v⟩ := p
    obtain ⟨name', v'⟩ := p'
    obtain ⟨rfl, hname, hv⟩ := hp
    have hnone : ∀ z ∈ i.under name, z.term? α = none := by
      rcases hname with rfl | rfl
      · exact hunknown
      · rw [under_eq_nil hf]
        exact nofun
    cases hv with
    | same => rfl
    | array hv => simp only [Checked.knownTerms, hv.filterMap_eq hnone]

/-- Members among which none of a list is kept are the same. -/
theorem filter_eq {p : String → Bool}
    (h : List.Forall₂ (fun m m' => m.1 = m'.1 ∧ InValue (i.under m.1) m.2 m'.2) ms ms')
    (hp : ∀ m ∈ ms, m.1 ∈ listNames → p m.1 = false) :
    ms'.filter (fun m => p m.1) = ms.filter fun m => p m.1 := by
  induction h with
  | nil => rfl
  | @cons m m' ms ms' hm hms ih =>
    obtain ⟨n, v⟩ := m
    obtain ⟨n', v'⟩ := m'
    obtain ⟨rfl, hv⟩ := hm
    dsimp only at hv
    have hrest := ih fun m hm => hp m (List.mem_cons_of_mem _ hm)
    cases hpn : p n with
    | false => simpa [hpn] using hrest
    | true =>
      have hnil : i.under n = [] := under_eq_nil fun hname =>
        absurd hpn (Bool.eq_false_iff.mp (hp (n, v) List.mem_cons_self hname))
      rw [hnil] at hv
      rw [hv.eq_of_nil]
      simpa [hpn] using hrest

/-- **The members that give no field** are the same: a list that is there gives one. -/
theorem extrasOf_eq (h : i.Applied ms ms') :
    extrasOf Field.ofDocument ms' = extrasOf Field.ofDocument ms := by
  have hgives : ∀ m ∈ ms, m.1 ∈ listNames →
      (!Field.ofDocument.any fun f => f.used? ms == some m.1) = false := by
    intro m hm hname
    have hused : ∀ f : FieldName, f.own = m.1 → (f.used? ms == some m.1) = true := by
      intro f hf
      unfold FieldName.used?
      rw [hf, if_pos (Json.has_iff.mpr ⟨m, hm, rfl⟩)]
      exact beq_self_eq_true _
    rw [Bool.not_eq_false', List.any_eq_true]
    simp only [listNames, List.mem_cons, List.not_mem_nil, or_false] at hname
    rcases hname with hname | hname | hname | hname
    · exact ⟨Field.extraFeatures, by simp [Field.ofDocument], hused _ hname.symm⟩
    · exact ⟨Field.extraFormats, by simp [Field.ofDocument], hused _ hname.symm⟩
    · exact ⟨Field.extraQualities, by simp [Field.ofDocument], hused _ hname.symm⟩
    · exact ⟨Field.preferredFormats, by simp [Field.ofDocument], hused _ hname.symm⟩
  unfold extrasOf
  simp only [h.used?_eq]
  exact @filter_eq i ms ms' (fun n => !Field.ofDocument.any fun f => f.used? ms == some n)
    h.members hgives

/-- **The document is read alike**, to the same descriptor or with the same faults. -/
theorem read_eq (h : i.Applied ms ms') :
    Descriptor.read (.object ms') = Descriptor.read (.object ms) := by
  have hpreferred : Descriptor.readTerms ImageFormat Field.preferredFormats ms' =
      Descriptor.readTerms ImageFormat Field.preferredFormats ms :=
    h.readTerms_eq (fun v hv => Json.term?_eq_none.mpr (i.preferred_unknown v hv)) (by decide)
  have hfeatures : Descriptor.readTerms Feature Field.extraFeatures ms' =
      Descriptor.readTerms Feature Field.extraFeatures ms :=
    h.readTerms_eq (fun v hv => Json.term?_eq_none.mpr (i.features_unknown v hv)) (by decide)
  have hformats : Descriptor.readTerms ImageFormat Field.extraFormats ms' =
      Descriptor.readTerms ImageFormat Field.extraFormats ms :=
    h.readTerms_eq (fun v hv => Json.term?_eq_none.mpr (i.formats_unknown v hv)) (by decide)
  have hqualities : Descriptor.readTerms Quality Field.extraQualities ms' =
      Descriptor.readTerms Quality Field.extraQualities ms :=
    h.readTerms_eq (fun v hv => Json.term?_eq_none.mpr (i.qualities_unknown v hv)) (by decide)
  show Descriptor.ofMembers ms' = Descriptor.ofMembers ms
  unfold Descriptor.ofMembers Descriptor.readFixed Descriptor.readLimit
  rw [hpreferred, hfeatures, hformats, hqualities, h.extrasOf_eq]
  rw [h.withDefault_eq (f := Field.context) (by decide), h.required_eq (f := Field.id) (by decide),
    h.withDefault_eq (f := Field.type) (by decide),
    h.withDefault_eq (f := Field.protocol) (by decide),
    h.required_eq (f := Field.profile) (by decide), h.required_eq (f := Field.width) (by decide),
    h.required_eq (f := Field.height) (by decide),
    h.withDefault_eq (f := Field.maxWidth) (by decide),
    h.withDefault_eq (f := Field.maxHeight) (by decide),
    h.withDefault_eq (f := Field.maxArea) (by decide),
    h.withDefault_eq (f := Field.sizes) (by decide),
    h.withDefault_eq (f := Field.tiles) (by decide),
    h.withDefault_eq (f := Field.rights) (by decide)]

/-! ### Checking the shape -/

section Other

variable (h : i.Applied ms ms') (name : String) (hname : name ∉ listNames)
include h

theorem given?_eq (hname : name ∉ listNames) : Shape.given? ms' name = Shape.given? ms name := by
  unfold Shape.given?
  rw [h.get?_eq name hname]

theorem checkContext_eq : Shape.checkContext ms' = Shape.checkContext ms := by
  unfold Shape.checkContext
  rw [h.given?_eq _ (by decide)]

theorem checkProfile_eq : Shape.checkProfile ms' = Shape.checkProfile ms := by
  unfold Shape.checkProfile
  rw [h.given?_eq _ (by decide)]

theorem checkLevelZero_eq : Shape.checkLevelZero ms' = Shape.checkLevelZero ms := by
  unfold Shape.checkLevelZero
  rw [h.get?_eq "profile" (by decide), h.get?_eq "sizes" (by decide),
    h.get?_eq "tiles" (by decide)]

include hname

theorem checkConstant_eq (value : String) (missing wrong : ShapeError) :
    Shape.checkConstant ms' name value missing wrong =
      Shape.checkConstant ms name value missing wrong := by
  unfold Shape.checkConstant
  rw [h.get?_eq name hname]

theorem checkPositive_eq (place : ShapePlace) :
    Shape.checkPositive ms' name place = Shape.checkPositive ms name place := by
  unfold Shape.checkPositive
  rw [h.get?_eq name hname]

theorem checkPositiveIfThere_eq (place : ShapePlace) :
    Shape.checkPositiveIfThere ms' name place = Shape.checkPositiveIfThere ms name place := by
  unfold Shape.checkPositiveIfThere
  rw [h.has_eq, h.checkPositive_eq name hname]

theorem checkList_eq (check : ℕ → Json → List ShapeError) :
    Shape.checkList ms' name check = Shape.checkList ms name check := by
  unfold Shape.checkList
  rw [h.given?_eq name hname]

end Other

end Applied

/-- The warnings of the values that are inserted into lists that the check of a shape looks at. -/
def warnings (i : Insertion) : List ShapeWarning :=
  i.features.map (.unknownEntry "extraFeatures") ++ i.formats.map (.unknownEntry "extraFormats") ++
    i.qualities.map (.unknownEntry "extraQualities")

/-- **A report with more warnings**: the same errors, and the warnings with others inserted. -/
structure Widens (ws : List ShapeWarning) (r r' : ShapeReport) : Prop where
  errors : r'.errors = r.errors
  warnings : Interleaved r.warnings ws r'.warnings

theorem Widens.refl (r : ShapeReport) : Widens [] r r := ⟨rfl, .refl _⟩

theorem Widens.append {ws ws' : List ShapeWarning} {r r' s s' : ShapeReport} (h : Widens ws r r')
    (h' : Widens ws' s s') : Widens (ws ++ ws') (r ++ s) (r' ++ s') where
  errors := by rw [Report.errors_append, Report.errors_append, h.errors, h'.errors]
  warnings := h.warnings.append h'.warnings

/-- **A list with unknown entries inserted** has a warning for each of them. -/
theorem InValue.widens {α : Type} [Vocabulary α] {zs : List Json} {v v' : Json}
    (h : InValue zs v v') (hunknown : ∀ z ∈ zs, z.term? α = none) (name : String) :
    Widens (zs.map (.unknownEntry name)) (Shape.checkTerms α name v)
      (Shape.checkTerms α name v') := by
  cases h with
  | same v hzs =>
    rw [hzs]
    exact .refl _
  | array h =>
    have hall : zs.filter (fun z => (z.term? α).isNone) = zs := by
      rw [List.filter_eq_self]
      intro z hz
      rw [hunknown z hz]
      rfl
    have hfilter := h.filter fun z => (z.term? α).isNone
    rw [hall] at hfilter
    exact ⟨rfl, hfilter.map _⟩

namespace Applied

/-- A list that is not there has no values inserted. -/
theorem under_eq_nil_of_none (h : i.Applied ms ms') (name : String)
    (hnone : Json.get? ms name = none) : i.under name = [] := by
  by_contra hne
  have hhas := h.has name hne
  rw [Json.has, hnone] at hhas
  cases hhas

theorem widens_checkExtras {α : Type} [Vocabulary α] (h : i.Applied ms ms') (name : String)
    (hunknown : ∀ z ∈ i.under name, z.term? α = none) :
    Widens ((i.under name).map (.unknownEntry name)) (Shape.checkExtras α ms name)
      (Shape.checkExtras α ms' name) := by
  have hrel := h.rel_get? name
  have hnil := h.under_eq_nil_of_none name
  unfold Shape.checkExtras
  generalize Json.get? ms name = v? at hrel hnil
  generalize Json.get? ms' name = v'? at hrel
  cases hrel with
  | none =>
    rw [hnil rfl]
    exact .refl _
  | some hv => exact hv.widens hunknown name

/-- **The bound of enlarging** is asked for alike: no inserted value is the feature. -/
theorem checkUpscaling_eq (h : i.Applied ms ms') {v v' : Json} (hv : InValue i.features v v') :
    Shape.checkUpscaling ms' v' = Shape.checkUpscaling ms v := by
  cases hv with
  | same =>
    unfold Shape.checkUpscaling
    rw [h.has_eq, h.has_eq]
  | array hv =>
    have hnone : i.features.any (·.isText Feature.sizeUpscaling.name) = false := by
      rw [List.any_eq_false]
      intro z hz htext
      exact i.features_unknown z hz .sizeUpscaling (Json.isText_iff.mp htext)
    unfold Shape.checkUpscaling
    dsimp only
    rw [hv.any_eq, hnone, Bool.or_false, h.has_eq, h.has_eq]

theorem widens_checkFeatures (h : i.Applied ms ms') :
    Widens (i.features.map (.unknownEntry "extraFeatures")) (Shape.checkFeatures ms)
      (Shape.checkFeatures ms') := by
  have hrel : Option.Rel (InValue i.features) (Json.get? ms "extraFeatures")
      (Json.get? ms' "extraFeatures") := h.rel_get? "extraFeatures"
  have hnil : Json.get? ms "extraFeatures" = none → i.features = [] :=
    h.under_eq_nil_of_none "extraFeatures"
  have hunknown : ∀ z ∈ i.features, z.term? Feature = none := fun z hz =>
    Json.term?_eq_none.mpr (i.features_unknown z hz)
  have hcheck : ∀ {v v'}, InValue i.features v v' →
      Widens (i.features.map (.unknownEntry "extraFeatures"))
        (Shape.checkTerms Feature "extraFeatures" v ++ .ofErrors (Shape.checkUpscaling ms v))
        (Shape.checkTerms Feature "extraFeatures" v' ++
          .ofErrors (Shape.checkUpscaling ms' v')) := by
    intro v v' hv
    have hterms := (hv.widens hunknown "extraFeatures").append
      (Widens.refl (.ofErrors (Shape.checkUpscaling ms v)))
    rw [List.append_nil] at hterms
    rw [h.checkUpscaling_eq hv]
    exact hterms
  unfold Shape.checkFeatures Shape.given?
  generalize Json.get? ms "extraFeatures" = v? at hrel hnil
  generalize Json.get? ms' "extraFeatures" = v'? at hrel
  cases hrel with
  | none =>
    rw [hnil rfl]
    exact .refl _
  | @some v v' hv =>
    have hboth := hcheck hv
    cases hv with
    | same v hzs =>
      cases v with
      | null =>
        rw [hzs]
        exact .refl _
      | _ => exact hboth
    | array hv => exact hboth

/-- **The shape is checked alike**, but for a warning for each value that is inserted into a list
that the check looks at. -/
theorem widens_check (h : i.Applied ms ms') {r : ShapeReport}
    (hr : Shape.check (.object ms) = .ok r) :
    ∃ r', Shape.check (.object ms') = .ok r' ∧ Widens i.warnings r r' := by
  obtain ⟨id, hid, hr⟩ := Outcome.bind_eq_ok.mp hr
  cases hr
  have hid' : Shape.checkId ms' = .ok id :=
    (Shape.checkId_congr (h.get?_eq "id" (by decide))).trans hid
  refine ⟨_, Outcome.bind_eq_ok.mpr ⟨id, hid', rfl⟩, ?_⟩
  have hformats := h.widens_checkExtras (α := ImageFormat) "extraFormats" fun z hz =>
    Json.term?_eq_none.mpr (i.formats_unknown z hz)
  have hqualities := h.widens_checkExtras (α := Quality) "extraQualities" fun z hz =>
    Json.term?_eq_none.mpr (i.qualities_unknown z hz)
  -- The checks of all other members come first; nothing is inserted for them.
  refine ((@Widens.append [] _ _ _ _ _ ?_ h.widens_checkFeatures).append hformats).append hqualities
  rw [h.checkContext_eq, h.checkProfile_eq, h.checkLevelZero_eq,
    h.checkConstant_eq "type" (by decide), h.checkConstant_eq "protocol" (by decide),
    h.checkPositive_eq "width" (by decide), h.checkPositive_eq "height" (by decide),
    h.checkPositiveIfThere_eq "maxWidth" (by decide),
    h.checkPositiveIfThere_eq "maxHeight" (by decide),
    h.checkPositiveIfThere_eq "maxArea" (by decide), h.checkList_eq "sizes" (by decide),
    h.checkList_eq "tiles" (by decide)]
  exact .refl _

/-! ### Decisions -/

/-- **Unknown names change no decision.** With values inserted that name no term, a document is read
to the same descriptor or with the same faults; its compliance and every request are judged alike;
and its shape has the same errors and warnings, with one warning for each value that is inserted
into the extra features, formats and qualities. -/
theorem same_decisions (h : i.Applied ms ms') :
    Descriptor.read (.object ms') = Descriptor.read (.object ms) ∧
    (∀ level, (Descriptor.ofJson (.object ms')).map (·.checkLevel level) =
      (Descriptor.ofJson (.object ms)).map (·.checkLevel level)) ∧
    (∀ r : Request, (do r.check (some (← Descriptor.ofJson (.object ms')))) =
      (do r.check (some (← Descriptor.ofJson (.object ms))))) ∧
    ∀ r, Shape.check (.object ms) = .ok r →
      ∃ r', Shape.check (.object ms') = .ok r' ∧ r'.errors = r.errors ∧
        Interleaved r.warnings i.warnings r'.warnings := by
  have hjson : Descriptor.ofJson (.object ms') = Descriptor.ofJson (.object ms) :=
    congrArg (Except.mapError Failure.document) h.read_eq
  refine ⟨h.read_eq, fun level => by rw [hjson], fun r => by rw [hjson], fun r hr => ?_⟩
  obtain ⟨r', hr', hwidens⟩ := h.widens_check hr
  exact ⟨r', hr', hwidens.errors, hwidens.warnings⟩

/-- The members of a document with the given lists of terms. -/
def listing (features formats preferred : List Json) : Members :=
  [("@context", .text imageContext), ("id", .text "https://example.org/iiif/1"),
   ("type", .text imageServiceType), ("protocol", .text imageProtocol),
   ("profile", .text "level1"), ("width", .int 4000), ("height", .int 3000),
   ("extraFeatures", .array features), ("extraFormats", .array formats),
   ("preferredFormats", .array preferred)]

/-- A number, a name in capitals, and names of terms of other vocabularies. -/
def strayNames : Insertion where
  features := [.int 5, .text "SIZEUPSCALING"]
  formats := [.null, .text "sizeUpscaling"]
  qualities := []
  preferred := [.text "gray"]
  features_unknown := Json.ne_text_name_of_all rfl
  formats_unknown := Json.ne_text_name_of_all rfl
  qualities_unknown := nofun
  preferred_unknown := Json.ne_text_name_of_all rfl

theorem same_decisions_of_stray :
    strayNames.Applied (listing [.text "sizeUpscaling"] [.text "webp"] [])
      (listing [.int 5, .text "sizeUpscaling", .text "SIZEUPSCALING"]
        [.null, .text "sizeUpscaling", .text "webp"] [.text "gray"]) ∧
    Shape.check (.object (listing [.text "sizeUpscaling"] [.text "webp"] [])) =
      .ok ⟨[.upscalingWithoutLimit], []⟩ ∧
    ∃ r', Shape.check (.object (listing [.int 5, .text "sizeUpscaling", .text "SIZEUPSCALING"]
        [.null, .text "sizeUpscaling", .text "webp"] [.text "gray"])) = .ok r' ∧
      r'.errors = [.upscalingWithoutLimit] ∧ Interleaved [] strayNames.warnings r'.warnings := by
  have happlied : strayNames.Applied (listing [.text "sizeUpscaling"] [.text "webp"] [])
      (listing [.int 5, .text "sizeUpscaling", .text "SIZEUPSCALING"]
        [.null, .text "sizeUpscaling", .text "webp"] [.text "gray"]) := by
    have hsame : ∀ n v, strayNames.under n = [] → ((n, v).1 = (n, v).1 ∧
        InValue (strayNames.under (n, v).1) (n, v).2 (n, v).2) := fun n v hn => ⟨rfl, .same v hn⟩
    refine ⟨.cons (hsame _ _ rfl) <| .cons (hsame _ _ rfl) <| .cons (hsame _ _ rfl) <|
      .cons (hsame _ _ rfl) <| .cons (hsame _ _ rfl) <| .cons (hsame _ _ rfl) <|
      .cons (hsame _ _ rfl) <| .cons ⟨rfl, .array ?_⟩ <| .cons ⟨rfl, .array ?_⟩ <|
      .cons ⟨rfl, .array ?_⟩ .nil, fun name hname => ?_⟩
    · exact .inserted (.kept (.inserted .nil))
    · exact .inserted (.inserted (.kept .nil))
    · exact .inserted .nil
    · have hmem : name ∈ listNames := not_not.mp fun hnot => hname (under_eq_nil hnot)
      simp only [listNames, List.mem_cons, List.not_mem_nil, or_false] at hmem
      rcases hmem with rfl | rfl | rfl | rfl
      · rfl
      · rfl
      · exact absurd rfl hname
      · rfl
  have hid : Shape.checkId (listing [.text "sizeUpscaling"] [.text "webp"] []) = .ok ⟨[], []⟩ :=
    Shape.checkId_of_hasHttpAuthority rfl (by decide +kernel) (by decide) (by decide +kernel)
  have hcheck : Shape.check (.object (listing [.text "sizeUpscaling"] [.text "webp"] [])) =
      .ok ⟨[.upscalingWithoutLimit], []⟩ := by
    rw [Shape.check, Shape.checkMembers, hid]
    rfl
  obtain ⟨-, -, -, hshape⟩ := same_decisions happlied
  exact ⟨happlied, hcheck, hshape _ hcheck⟩

end Applied

end Insertion

end IiifRules
