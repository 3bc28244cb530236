import Mathlib
import IiifRules.Proofs.Descriptor.Accepted

/-! # Documents that are written as they were read

Reading a document drops the terms that it does not know, and writing one drops nulls and empty
lists and gives every field its first name. A document of an accepted shape in which there is
nothing of the kind is written as it was: only the order of its members is that of the fields, and
null stands for a number that is not finite. It is written unless what no field describes is nested
too deep.

* `Json.Same.of_fields`: an object is the same if its fields are, and it keeps the other members.
* `SizeEntry.same_toJson`, `TileEntry.same_toJson`: entries.
* `Descriptor.KnownOnly.exists_write_iff`: which documents are written.
* `Descriptor.exists_written_same`: documents. -/

namespace IiifRules

open Json (Members get? has Same)

/-! ### Fields and other members -/

namespace FieldName

variable {fields : List FieldName} {f : FieldName} {ms : Members}

/-- No member has the second name of a field. -/
def FirstNamed (fields : List FieldName) (ms : Members) : Prop :=
  ∀ m ∈ ms, ∀ f ∈ fields, f.own ≠ f.second → m.1 ≠ f.second

theorem FirstNamed.has_own (h : FirstNamed fields ms) (hf : f ∈ fields)
    (hsecond : has ms f.second = true) : has ms f.own = true := by
  by_cases hone : f.own = f.second
  · rwa [hone]
  · obtain ⟨m, hm, hname⟩ := Json.has_iff.mp hsecond
    exact absurd hname (h m hm f hf hone)

theorem FirstNamed.ownOnly (h : FirstNamed fields ms) (hf : f ∈ fields) : f.OwnOnly ms :=
  ownOnly_of_second (h.has_own hf)

/-- The second names of a document. -/
example : (Field.ofDocument.filter fun f => f.own ≠ f.second).map FieldName.second =
    ["context", "max_width", "max_height", "max_area", "preferred_formats", "extra_features",
     "extra_formats", "extra_qualities"] := by decide

/-- A member that no field is named like is left over. -/
theorem FirstNamed.get?_extrasOf (h : FirstNamed fields ms) {name : String}
    (hname : ∀ f ∈ fields, f.own ≠ name) : get? (extrasOf fields ms) name = get? ms name := by
  refine Json.get?_filter (p := fun n => !fields.any fun f => f.used? ms == some n) ?_
  simp only [Bool.not_eq_true', List.any_eq_false, beq_iff_eq]
  intro f hf hused
  unfold used? at hused
  split_ifs at hused with hown hsecond
  · exact hname f hf (Option.some.inj hused)
  · exact hown (h.has_own hf hsecond)

theorem OwnOnly.ifGiven {P : Json → Prop} (h : f.OwnOnly ms)
    (hgiven : get? ms f.own = none ∨ ∃ v, get? ms f.own = some v ∧ P v) : f.IfGiven ms P := by
  intro name v hfind
  rw [h, Option.map_eq_some_iff] at hfind
  obtain ⟨w, hw, heq⟩ := hfind
  cases heq
  rcases hgiven with hnone | ⟨u, hu, hP⟩
  · cases hnone.symm.trans hw
  · cases hu.symm.trans hw
    exact hP

end FieldName

/-- What is left over is what no field is named like. -/
theorem FieldName.FirstNamed.mem_extrasOf_iff {fields : List FieldName} {ms : Members}
    (h : FirstNamed fields ms) {m : String × Json} :
    m ∈ extrasOf fields ms ↔ m ∈ ms ∧ m.1 ∉ fields.map FieldName.own := by
  rw [List.mem_map, not_exists]
  constructor
  · intro hm
    exact ⟨List.mem_of_mem_filter hm, fun f ⟨hf, hname⟩ => (mem_extrasOf hm f hf).1 hname.symm⟩
  · rintro ⟨hm, hname⟩
    refine List.mem_filter.mpr ⟨hm, ?_⟩
    simp only [Bool.not_eq_true', List.any_eq_false, beq_iff_eq]
    intro f hf hused
    unfold used? at hused
    split_ifs at hused with hown hsecond
    · exact hname f ⟨hf, Option.some.inj hused⟩
    · exact hown (h.has_own hf hsecond)

/-- **An object is the same** if its fields are, and beside them it keeps the members that no field
is named like. -/
theorem Json.Same.of_fields {fields : List FieldName} {fs : List (String × Option Json)}
    {ms : Members} (hnames : fs.map Prod.fst ⊆ fields.map FieldName.own)
    (hfirst : FieldName.FirstNamed fields ms)
    (h : ∀ f ∈ fields, Option.Rel Same (get? (present fs) f.own)
      ((get? ms f.own).map standard)) :
    Same (.object (present fs ++ standardMembers (extrasOf fields ms)))
      (standard (.object ms)) := by
  rw [standard]
  refine .object fun name => ?_
  rw [get?_append, get?_standardMembers, get?_standardMembers]
  by_cases hname : ∃ f ∈ fields, f.own = name
  · obtain ⟨f, hf, rfl⟩ := hname
    have hnone : get? (extrasOf fields ms) f.own = none :=
      get?_eq_none_iff.mpr fun m hm => (mem_extrasOf hm f hf).1
    rw [hnone, Option.map_none, Option.or_none]
    exact h f hf
  · have hnone : get? (present fs) name = none := by
      refine get?_eq_none_iff.mpr fun m hm hm' => hname ?_
      obtain ⟨f, hf, hown⟩ := FieldName.exists_of_mem_present hnames m hm
      exact ⟨f, hf, hown.symm.trans hm'⟩
    rw [hnone, Option.none_or, hfirst.get?_extrasOf fun f hf hown => hname ⟨f, hf, hown⟩]
    exact rel_of_eq rfl rfl

/-- What is left over is written as standard JSON if there are no nulls. -/
theorem givenMembers_extrasOf {fields : List FieldName} {ms : Members}
    (hgiven : ∀ m ∈ ms, m.2 ≠ .null) :
    givenMembers (extrasOf fields ms) = Json.standardMembers (extrasOf fields ms) := by
  rw [givenMembers, List.filter_eq_self.mpr fun m hm => ?_]
  rw [Json.isNull_eq_false_iff.mpr (hgiven m (List.mem_of_mem_filter hm))]
  rfl

/-! ### The values of fields -/

/-- A length. -/
theorem FieldName.get?_of_integer {f : FieldName} {ms : Members} {a : ℤ}
    (h : ∃ n : ℤ, get? ms f.own = some (.int n) ∧ 0 < n)
    (hread : f.required ms Checked.integer = .ok a) : get? ms f.own = some (.int a) := by
  obtain ⟨n, hn, -⟩ := h
  have ha := (required_of_get? hn).mp hread
  cases ha
  exact hn

namespace FieldName.OwnOnly

variable {f : FieldName} {ms : Members}

/-- A value that is written only if there is one. -/
theorem get?_eq_of_nullable {α : Type} {read : Json → Checked α} {write : α → Json} {a? : Option α}
    (h : f.OwnOnly ms) (hgiven : get? ms f.own = none ∨ ∃ a, get? ms f.own = some (write a))
    (hwrite : ∀ a, Checked.nullable read (write a) = .ok (some a))
    (hread : f.withDefault ms none (Checked.nullable read) = .ok a?) :
    get? ms f.own = a?.map write := by
  obtain ⟨hsome, hnone⟩ := h.withDefault_iff.mp hread
  rcases hgiven with hv | ⟨a, hv⟩
  · rw [hv, ← hnone hv]
    rfl
  · have ha := (hwrite a).symm.trans (hsome _ hv)
    injection ha with ha
    rw [hv, ← ha]
    rfl

/-- A limit. -/
theorem get?_eq_of_limit {n? : Option ℤ} (h : f.OwnOnly ms)
    (hgiven : get? ms f.own = none ∨ ∃ n : ℤ, get? ms f.own = some (.int n) ∧ 0 < n)
    (hread : f.withDefault ms none (Checked.nullable Checked.integer) = .ok n?) :
    get? ms f.own = n?.map .int :=
  h.get?_eq_of_nullable (hgiven.imp_right fun ⟨n, hn, _⟩ => ⟨n, hn⟩) (fun _ => rfl) hread

/-- Terms that are all known. -/
theorem get?_eq_of_terms {α : Type} [Vocabulary α] [Vocabulary.Lawful α] {ts : List α}
    (h : f.OwnOnly ms)
    (hgiven : get? ms f.own = none ∨ ∃ us : List α, get? ms f.own = some (namesToJson us))
    (hempty : get? ms f.own ≠ some (.array []))
    (hread : Descriptor.readTerms α f ms = .ok ts) :
    get? ms f.own = (namesToJson ts).unlessEmpty := by
  obtain ⟨hsome, hnone⟩ := h.withDefault_iff.mp hread
  rcases hgiven with hv | ⟨us, hv⟩
  · rw [hv, ← hnone hv]
    rfl
  · have hts := (Checked.knownTerms_namesToJson us).symm.trans (hsome _ hv)
    injection hts with hts
    rw [hv, ← hts, Json.unlessEmpty_of_ne fun heq => hempty (hv.trans (heq ▸ rfl))]

/-- Entries of an accepted shape that are the same each. -/
theorem rel_of_entries {α : Type} {read : Json → Checked α} {write : α → Json} {as : List α}
    {Shaped : Json → Prop} (h : f.OwnOnly ms)
    (hgiven : get? ms f.own = none ∨ get? ms f.own = some .null ∨
      ∃ vs, get? ms f.own = some (.array vs) ∧ ∀ v ∈ vs, Shaped v)
    (hnull : get? ms f.own ≠ some .null) (hempty : get? ms f.own ≠ some (.array []))
    (hitem : ∀ vs, get? ms f.own = some (.array vs) → ∀ v ∈ vs, Shaped v →
      ∀ a, read v = .ok a → Same (write a) v.standard)
    (hread : f.withDefault ms [] (Checked.array read) = .ok as) :
    Option.Rel Same (Json.array (as.map write)).unlessEmpty
      ((get? ms f.own).map Json.standard) := by
  obtain ⟨hsome, hnone⟩ := h.withDefault_iff.mp hread
  rcases hgiven with hv | hv | ⟨vs, hv, hshaped⟩
  · rw [hv, ← hnone hv]
    exact .none
  · exact absurd hv hnull
  · have hall := Checked.forall₂_of_array (hsome _ hv)
    have hsame : List.Forall₂ Same (as.map write) (vs.map Json.standard) := by
      rw [List.forall₂_map_left_iff, List.forall₂_map_right_iff]
      exact ((List.forall₂_and_left vs as).mpr
        ⟨fun v hv' => hitem vs hv v hv' (hshaped v hv'), hall⟩).flip.imp
        fun a v ⟨hsame, ha⟩ => hsame a ha
    have has : as.map write ≠ [] := by
      intro has
      rw [has] at hsame
      cases vs with
      | nil => exact hempty hv
      | cons v vs => cases hsame
    rw [hv, Json.unlessEmpty_array, if_neg has, Option.map_some, Json.standard,
      Json.standardItems_eq_map]
    exact .some (.array hsame)

/-- **What holds of every entry** that is read, as far as it can be seen in the list. -/
theorem forall_entries_iff {α : Type} {read : Json → Checked α} {as : List α} {P : α → Prop}
    {Q : Json → Prop} (h : f.OwnOnly ms)
    (hread : f.withDefault ms [] (Checked.array read) = .ok as)
    (hitem : ∀ vs, get? ms f.own = some (.array vs) → ∀ v ∈ vs, ∀ a, read v = .ok a → (P a ↔ Q v)) :
    (∀ a ∈ as, P a) ↔ ∀ vs, get? ms f.own = some (.array vs) → ∀ v ∈ vs, Q v := by
  obtain ⟨hsome, hnone⟩ := h.withDefault_iff.mp hread
  cases hv : get? ms f.own with
  | none => simp [← hnone hv]
  | some v =>
    cases v with
    | array vs =>
      have hall := Checked.forall₂_of_array (hsome _ hv)
      simp only [Option.some.injEq, Json.array.injEq, forall_eq']
      constructor
      · intro hP v hv'
        obtain ⟨a, ha, hav⟩ := Outcome.exists_of_forall₂ hall.flip hv'
        exact (hitem vs hv v hv' a hav).mp (hP a ha)
      · intro hQ a ha
        obtain ⟨v, hv', hav⟩ := Outcome.exists_of_forall₂ hall ha
        exact (hitem vs hv v hv' a hav).mpr (hQ v hv')
    | _ => cases hsome _ hv

end FieldName.OwnOnly

/-! ### Entries -/

/-- **The members of an entry that is kept whole**: none is null, none has the second name of a
field, and the type is, if any, the one that there is. -/
structure Json.KnownEntry (fields : List FieldName) (name : String) (es : Members) : Prop where
  given : ∀ m ∈ es, m.2 ≠ .null
  first : FieldName.FirstNamed fields es
  type : get? es "type" = none ∨ get? es "type" = some (.text name)

theorem isStandard_of_mem_map {α : Type} {write : α → Json} (h : ∀ a, (write a).IsStandard)
    (a? : Option α) : ∀ u ∈ a?.map write, u.IsStandard := by
  rintro _ hu
  obtain ⟨a, -, rfl⟩ := Option.map_eq_some_iff.mp hu
  exact h a

theorem isStandard_integers (ns : List ℤ) : (Json.array (ns.map .int)).IsStandard := by
  rw [Json.isStandard_array_iff, List.forall_mem_map]
  exact fun n _ => Json.isStandard_int n

theorem isStandard_namesToJson {α : Type} [Vocabulary α] (ts : List α) :
    (namesToJson ts).IsStandard := by
  rw [namesToJson, Json.isStandard_array_iff, List.forall_mem_map]
  exact fun t _ => Json.isStandard_text _

theorem isStandard_unlessEmpty_names {α : Type} [Vocabulary α] {ts : List α} :
    ∀ u ∈ (namesToJson ts).unlessEmpty, u.IsStandard := by
  intro u hu
  unfold Json.unlessEmpty at hu
  split_ifs at hu
  · cases hu
  · cases hu
    exact isStandard_namesToJson ts

theorem isStandard_type {typed : Bool} {name : String} :
    ∀ u ∈ if typed then some (Json.text name) else none, u.IsStandard := by
  cases typed with
  | true => exact isStandard_of_mem_map Json.isStandard_text (some name)
  | false => nofun

/-- The type of an entry is stated where it was. -/
theorem get?_type_of_readTyped {name : String} {es : Members} {typed : Bool}
    (htype : get? es "type" = none ∨ get? es "type" = some (.text name))
    (hread : readTyped name es = .ok typed) :
    get? es "type" = if typed then some (.text name) else none := by
  rcases htype with hnone | hsome
  · have htyped := (FieldName.withDefault_single_of_none hnone).symm.trans hread
    cases htyped
    exact hnone
  · have htyped := (FieldName.withDefault_of_get? (f := Field.type) hsome).mp hread
    simp only [Checked.nullable, Checked.literal, Json.isText, beq_self_eq_true, if_true,
      Except.map] at htyped
    cases htyped
    exact hsome

/-- **An entry of `sizes`** that is kept whole is written as it was. -/
theorem SizeEntry.same_toJson {v : Json} {s : SizeEntry} {i : ℕ}
    (hshape : Shape.checkSize i v = [])
    (h : ∀ es, v = .object es → Json.KnownEntry Field.ofSize "Size" es)
    (hread : ofJson v = .ok s) : Same s.toJson v.standard := by
  obtain ⟨es, rfl, hwidth, hheight⟩ := Shape.checkSize_eq_nil.mp hshape
  obtain ⟨_, hobject, hfields⟩ := fields_of_ofJson hread
  cases hobject
  have hknown := h es rfl
  rw [toJson_eq, ← hfields.extras, givenMembers_extrasOf hknown.given]
  refine .of_fields (List.Subset.refl _) hknown.first ?_
  simp only [Field.ofSize, List.forall_mem_cons, get?_ownFields]
  exact ⟨Same.rel_standard rfl (get?_type_of_readTyped hknown.type hfields.typed) isStandard_type,
    Same.rel_standard rfl (Field.width.get?_of_integer hwidth hfields.width)
      (isStandard_of_mem_map Json.isStandard_int (some _)),
    Same.rel_standard rfl (Field.height.get?_of_integer hheight hfields.height)
      (isStandard_of_mem_map Json.isStandard_int (some _)), List.forall_mem_nil _⟩

/-- Scale factors, which are integers each. -/
theorem TileEntry.get?_of_scaleFactors {es : Members} {factors : List ℤ}
    (h : Shape.areScaleFactors (get? es "scaleFactors") = true)
    (hread : Field.scaleFactors.required es (Checked.array Checked.integer) = .ok factors) :
    get? es "scaleFactors" = some (.array (factors.map .int)) := by
  obtain ⟨vs, hvs, -, hpos⟩ := Shape.areScaleFactors_iff.mp h
  have hall := Checked.forall₂_of_array ((FieldName.required_of_get? hvs).mp hread)
  have heq : vs = factors.map .int := by
    rw [← List.forall₂_eq_eq_eq, List.forall₂_map_right_iff]
    refine ((List.forall₂_and_left _ _).mpr ⟨hpos, hall⟩).imp ?_
    rintro _ _ ⟨⟨n, rfl, -⟩, hn⟩
    cases hn
    rfl
  rw [hvs, heq]

/-- **An entry of `tiles`** likewise. -/
theorem TileEntry.same_toJson {v : Json} {t : TileEntry} {i : ℕ}
    (hshape : Shape.checkTile i v = [])
    (h : ∀ es, v = .object es → Json.KnownEntry Field.ofTile "Tile" es)
    (hread : ofJson v = .ok t) : Same t.toJson v.standard := by
  obtain ⟨es, rfl, hwidth, hheight, hfactors⟩ := Shape.checkTile_eq_nil.mp hshape
  obtain ⟨_, hobject, hfields⟩ := fields_of_ofJson hread
  cases hobject
  have hknown := h es rfl
  have howns : Field.height.OwnOnly es := hknown.first.ownOnly (by simp [Field.ofTile])
  have hscale := get?_of_scaleFactors hfactors hfields.scaleFactors
  rw [toJson_eq, ← hfields.extras, givenMembers_extrasOf hknown.given]
  refine .of_fields (List.Subset.refl _) hknown.first ?_
  simp only [Field.ofTile, List.forall_mem_cons, get?_ownFields]
  exact ⟨Same.rel_standard rfl (get?_type_of_readTyped hknown.type hfields.typed) isStandard_type,
    Same.rel_standard rfl (Field.width.get?_of_integer hwidth hfields.width)
      (isStandard_of_mem_map Json.isStandard_int (some _)),
    Same.rel_standard rfl (howns.get?_eq_of_limit hheight hfields.height)
      (isStandard_of_mem_map Json.isStandard_int t.height),
    Same.rel_standard rfl hscale (isStandard_of_mem_map isStandard_integers (some _)),
    List.forall_mem_nil _⟩

/-! ### Lists without warnings -/

namespace Shape

variable {ms : Members} {name : String}

/-- **Terms without a warning** are all known. -/
theorem exists_terms_of_checkTerms {α : Type} [Vocabulary α] [Vocabulary.Lawful α] {vs : List Json}
    (h : ∀ v, .unknownEntry name v ∉ (checkTerms α name (.array vs)).warnings) :
    ∃ ts : List α, .array vs = namesToJson ts := by
  have hterms : ∀ v ∈ vs, v ∈ Set.range fun t : α => Json.text (Vocabulary.name t) := by
    intro v hv
    by_contra hnot
    have hnone : v.term? α = none := by
      rw [Option.eq_none_iff_forall_ne_some]
      intro t ht
      exact hnot ⟨t, (Json.term?_eq_some.mp ht).symm⟩
    exact h v (List.mem_map.mpr ⟨v, List.mem_filter.mpr ⟨hv, by simp [hnone]⟩, rfl⟩)
  obtain ⟨ts, rfl⟩ : vs ∈ Set.range (List.map fun t : α => Json.text (Vocabulary.name t)) := by
    rw [Set.range_list_map]
    exact hterms
  exact ⟨ts, rfl⟩

theorem terms_of_checkExtras {α : Type} [Vocabulary α] [Vocabulary.Lawful α]
    (hlist : get? ms name = none ∨ ∃ vs, get? ms name = some (.array vs))
    (h : ∀ v, .unknownEntry name v ∉ (checkExtras α ms name).warnings) :
    get? ms name = none ∨ ∃ ts : List α, get? ms name = some (namesToJson ts) := by
  refine hlist.imp_right fun ⟨vs, hvs⟩ => ?_
  rw [checkExtras, hvs] at h
  obtain ⟨ts, hts⟩ := exists_terms_of_checkTerms h
  exact ⟨ts, hvs.trans (congrArg some hts)⟩

/-- The features are looked at like formats and qualities, unless they are null. -/
theorem warnings_checkFeatures (hnull : get? ms "extraFeatures" ≠ some .null) :
    (checkFeatures ms).warnings = (checkExtras Feature ms "extraFeatures").warnings := by
  have hgiven : given? ms "extraFeatures" = get? ms "extraFeatures" := by
    unfold given?
    split
    · contradiction
    · rfl
  unfold checkFeatures checkExtras
  rw [hgiven]
  cases get? ms "extraFeatures" with
  | none => rfl
  | some v => simp

/-- The warnings of the lists of terms are among those of the document. -/
theorem warnings_subset_of_checkMembers {r : ShapeReport} (h : checkMembers ms = .ok r) :
    (checkFeatures ms).warnings ⊆ r.warnings ∧
      (checkExtras ImageFormat ms "extraFormats").warnings ⊆ r.warnings ∧
      (checkExtras Quality ms "extraQualities").warnings ⊆ r.warnings := by
  obtain ⟨id, -, h⟩ := Outcome.bind_eq_ok.mp h
  injection h with h
  rw [← h]
  refine ⟨?_, ?_, ?_⟩ <;> · intro w hw; simp [hw]

/-- The terms of a document are all known. -/
structure KnownTerms (ms : Members) : Prop where
  features : get? ms "extraFeatures" = none ∨
    ∃ ts : List Feature, get? ms "extraFeatures" = some (namesToJson ts)
  formats : get? ms "extraFormats" = none ∨
    ∃ ts : List ImageFormat, get? ms "extraFormats" = some (namesToJson ts)
  qualities : get? ms "extraQualities" = none ∨
    ∃ ts : List Quality, get? ms "extraQualities" = some (namesToJson ts)

/-- **A document of an accepted shape without a warning of unknown terms** has none. -/
theorem Accepted.knownTerms {r : ShapeReport} (haccepted : Accepted ms)
    (h : checkMembers ms = .ok r) (hnull : get? ms "extraFeatures" ≠ some .null)
    (hwarnings : ∀ name v, .unknownEntry name v ∉ r.warnings) : KnownTerms ms := by
  obtain ⟨hfeatures, hformats, hqualities⟩ := warnings_subset_of_checkMembers h
  rw [warnings_checkFeatures hnull] at hfeatures
  exact {
    features := terms_of_checkExtras
      (haccepted.extraFeatures.imp_right fun hlist => hlist.resolve_left hnull)
      fun v hv => hwarnings _ v (hfeatures hv)
    formats := terms_of_checkExtras haccepted.extraFormats
      fun v hv => hwarnings _ v (hformats hv)
    qualities := terms_of_checkExtras haccepted.extraQualities
      fun v hv => hwarnings _ v (hqualities hv) }

end Shape

/-! ### Documents -/

theorem Context.toJson_of_ofJson {v : Json} {c : Context} (h : ofJson v = .ok c) :
    c.toJson = v.standard := by
  cases v with
  | text s => cases h; exact (Json.isStandard_text s).symm
  | array vs => cases h; rw [toJson, Json.standard]
  | _ => cases h

namespace Descriptor

variable {ms : Members} {d : Descriptor}

/-- **The members of a document that is kept whole.** None is null or an empty list, none has the
second name of a field, the entries of `sizes` and `tiles` are kept whole, the rights are a text,
and the preferred formats are known. -/
structure KnownOnly (ms : Members) : Prop where
  given : ∀ m ∈ ms, m.2 ≠ .null ∧ m.2 ≠ .array []
  first : FieldName.FirstNamed Field.ofDocument ms
  sizes : ∀ vs, get? ms "sizes" = some (.array vs) →
    ∀ es, .object es ∈ vs → Json.KnownEntry Field.ofSize "Size" es
  tiles : ∀ vs, get? ms "tiles" = some (.array vs) →
    ∀ es, .object es ∈ vs → Json.KnownEntry Field.ofTile "Tile" es
  rights : get? ms "rights" = none ∨ ∃ s, get? ms "rights" = some (.text s)
  preferredFormats : get? ms "preferredFormats" = none ∨
    ∃ ts : List ImageFormat, get? ms "preferredFormats" = some (namesToJson ts)

/-- No member that no field is named like has too many levels. -/
def FewLevelsBeside (fields : List FieldName) (ms : Members) : Prop :=
  ∀ m ∈ ms, m.1 ∉ fields.map FieldName.own → m.2.levels ≤ levelLimit

/-- **No value that no field describes has too many levels**: no item of the context, and no member
of the document or of one of its entries that no field is named like. -/
structure FewLevels (ms : Members) : Prop where
  context : ∀ vs, get? ms "@context" = some (.array vs) → ∀ v ∈ vs, v.levels ≤ levelLimit
  sizes : ∀ vs, get? ms "sizes" = some (.array vs) →
    ∀ es, .object es ∈ vs → FewLevelsBeside Field.ofSize es
  tiles : ∀ vs, get? ms "tiles" = some (.array vs) →
    ∀ es, .object es ∈ vs → FewLevelsBeside Field.ofTile es
  beside : FewLevelsBeside Field.ofDocument ms

theorem fewLevelsBeside_iff {fields : List FieldName} {es : Members}
    (h : FieldName.FirstNamed fields ms) (hes : extrasOf fields ms = es) :
    (∀ m ∈ es, m.2.levels ≤ levelLimit) ↔ FewLevelsBeside fields ms := by
  subst hes
  simp only [h.mem_extrasOf_iff, and_imp, FewLevelsBeside]

theorem forall_context_items_iff {P : Json → Prop} (h : Field.context.OwnOnly ms)
    (hread : Fields ms d) : (∀ v ∈ d.context.items, P v) ↔
      ∀ vs, get? ms "@context" = some (.array vs) → ∀ v ∈ vs, P v := by
  obtain ⟨hsome, hnone⟩ := h.withDefault_iff.mp hread.context
  cases hv : get? ms Field.context.own with
  | none =>
    rw [show get? ms "@context" = none from hv, ← hnone hv]
    simp [Context.items]
  | some v =>
    rw [show get? ms "@context" = some v from hv]
    cases v with
    | text s => rw [← Except.ok.inj (hsome _ hv)]; simp [Context.items]
    | array vs => rw [← Except.ok.inj (hsome _ hv)]; simp [Context.items]
    | _ => cases hsome _ hv

namespace KnownOnly

theorem ne_null (h : KnownOnly ms) {name : String} : get? ms name ≠ some .null :=
  fun hv => (h.given _ (Json.mem_of_get? hv)).1 rfl

theorem ne_empty (h : KnownOnly ms) {name : String} : get? ms name ≠ some (.array []) :=
  fun hv => (h.given _ (Json.mem_of_get? hv)).2 rfl

/-- **A document that is kept whole** is one that the reader takes. -/
theorem fitsBeyondShape (h : KnownOnly ms) (hshape : Shape.Accepted ms) : FitsBeyondShape ms := by
  have hlimit : ∀ f ∈ Field.ofDocument,
      (get? ms f.own = none ∨ ∃ n : ℤ, get? ms f.own = some (.int n) ∧ 0 < n) →
        f.IfGiven ms Json.IsLimit := fun f hf hgiven =>
    (h.first.ownOnly hf).ifGiven (hgiven.imp_right fun ⟨n, hn, _⟩ => ⟨_, hn, .inr ⟨n, rfl⟩⟩)
  have hlist : ∀ f ∈ Field.ofDocument,
      (get? ms f.own = none ∨ ∃ vs, get? ms f.own = some (.array vs)) →
        f.IfGiven ms Json.IsArray := fun f hf hgiven =>
    (h.first.ownOnly hf).ifGiven (hgiven.imp_right fun ⟨vs, hvs⟩ => ⟨_, hvs, vs, rfl⟩)
  have htype : ∀ {fields name es}, Json.KnownEntry fields name es →
      Field.type.IfGiven es (Json.IsTypeName name) := fun hknown =>
    (FieldName.ownOnly_of_second fun h => h).ifGiven (hknown.type.imp_right fun ht => ⟨_, ht, .inr rfl⟩)
  exact {
    maxWidth := hlimit _ (by simp [Field.ofDocument]) hshape.maxWidth
    maxHeight := hlimit _ (by simp [Field.ofDocument]) hshape.maxHeight
    maxArea := hlimit _ (by simp [Field.ofDocument]) hshape.maxArea
    sizes := fun vs hvs v hv es hes => htype (h.sizes vs hvs es (hes ▸ hv))
    tiles := fun vs hvs v hv es hes => htype (h.tiles vs hvs es (hes ▸ hv))
    preferredFormats := hlist _ (by simp [Field.ofDocument])
      (h.preferredFormats.imp_right fun ⟨_, hts⟩ => ⟨_, hts⟩)
    rights := (h.first.ownOnly (by simp [Field.ofDocument])).ifGiven
      (h.rights.imp_right fun ⟨s, hs⟩ => ⟨_, hs, .inr ⟨s, rfl⟩⟩)
    extraFeatures := hlist _ (by simp [Field.ofDocument])
      (hshape.extraFeatures.imp_right fun hfeatures => hfeatures.resolve_left h.ne_null)
    extraFormats := hlist _ (by simp [Field.ofDocument]) hshape.extraFormats
    extraQualities := hlist _ (by simp [Field.ofDocument]) hshape.extraQualities }

/-- Its members beside the fields are written as standard JSON. -/
theorem writtenExtras_eq (h : KnownOnly ms) (hread : Fields ms d) :
    d.writtenExtras = Json.standardMembers (extrasOf Field.ofDocument ms) := by
  rw [writtenExtras, ← hread.extras, givenMembers_extrasOf fun m hm => (h.given m hm).1]
  refine List.filter_eq_self.mpr fun m hm => ?_
  rw [Json.standardMembers_eq_map] at hm
  obtain ⟨m', hm', rfl⟩ := List.mem_map.mp hm
  rw [Json.isEmptyArray_standard,
    Json.isEmptyArray_eq_false_iff.mpr (h.given m' (List.mem_of_mem_filter hm')).2]
  rfl

theorem map_get?_context (h : KnownOnly ms) (hshape : Shape.Accepted ms) (hread : Fields ms d) :
    (get? ms "@context").map Json.standard = d.context.toJson.unlessEmpty := by
  obtain ⟨v, hv⟩ : ∃ v, get? ms "@context" = some v := by
    rcases hshape.context with hv | ⟨vs, hv, -⟩
    · exact ⟨_, hv⟩
    · exact ⟨_, hv⟩
  have hcontext := (FieldName.withDefault_of_get? (f := Field.context) hv).mp hread.context
  have hempty : v.standard.isEmptyArray = false := by
    rw [Json.isEmptyArray_standard, Json.isEmptyArray_eq_false_iff]
    exact fun heq => h.ne_empty (hv.trans (congrArg some heq))
  rw [Context.toJson_of_ofJson hcontext, hv, Json.unlessEmpty, hempty]
  rfl

/-- **A document that is kept whole** is written as it was, if its terms are all known. -/
theorem same_toJson (h : KnownOnly ms) (hshape : Shape.Accepted ms)
    (hterms : Shape.KnownTerms ms) (hread : Fields ms d) :
    Same d.toJson (Json.object ms).standard := by
  have hw : d.WrittenIn (Json.present d.ownFields) := writtenIn_of_get? fun _ _ => rfl
  obtain ⟨id, hid⟩ := hshape.id
  obtain ⟨level, hlevel⟩ := hshape.profile
  have howns : ∀ f ∈ Field.ofDocument, f.OwnOnly ms := fun f hf => h.first.ownOnly hf
  have hint : ∀ n? : Option ℤ, ∀ u ∈ n?.map Json.int, u.IsStandard :=
    isStandard_of_mem_map Json.isStandard_int
  have htext : ∀ s? : Option String, ∀ u ∈ s?.map Json.text, u.IsStandard :=
    isStandard_of_mem_map Json.isStandard_text
  rw [toJson, toMembers_eq, h.writtenExtras_eq hread]
  refine .of_fields (List.Subset.refl _) h.first ?_
  simp only [Field.ofDocument, List.forall_mem_cons] at howns ⊢
  obtain ⟨-, -, -, -, -, -, -, maxWidth, maxHeight, maxArea, sizes, tiles, preferredFormats, rights,
    extraFeatures, extraFormats, extraQualities, -⟩ := howns
  refine ⟨?context, ?id, ?type, ?protocol, ?profile, ?width, ?height, ?maxWidth, ?maxHeight,
    ?maxArea, ?sizes, ?tiles, ?preferredFormats, ?rights, ?extraFeatures, ?extraFormats,
    ?extraQualities, List.forall_mem_nil _⟩
  case context => exact Same.rel_of_eq hw.context (h.map_get?_context hshape hread)
  case id =>
    have hsame := Checked.text_eq_ok.mp ((FieldName.required_of_get? hid).mp hread.id)
    exact Same.rel_standard hw.id (hid.trans (congrArg some hsame)) (htext (some _))
  case type => exact Same.rel_standard hw.type hshape.type (htext (some _))
  case protocol => exact Same.rel_standard hw.protocol hshape.protocol (htext (some _))
  case profile =>
    have hprofile := (FieldName.required_of_get? (f := Field.profile) hlevel).mp hread.profile
    have hsame : level = d.profile := Except.ok.inj ((Checked.term_name level).symm.trans hprofile)
    exact Same.rel_standard hw.profile (hsame ▸ hlevel) (htext (some _))
  case width =>
    have hwidth := Field.width.get?_of_integer hshape.width hread.width
    exact Same.rel_standard hw.width hwidth (hint (some _))
  case height =>
    have hheight := Field.height.get?_of_integer hshape.height hread.height
    exact Same.rel_standard hw.height hheight (hint (some _))
  case maxWidth =>
    have hlimit := maxWidth.get?_eq_of_limit hshape.maxWidth hread.maxWidth
    exact Same.rel_standard hw.maxWidth hlimit (hint d.maxWidth)
  case maxHeight =>
    have hlimit := maxHeight.get?_eq_of_limit hshape.maxHeight hread.maxHeight
    exact Same.rel_standard hw.maxHeight hlimit (hint d.maxHeight)
  case maxArea =>
    have hlimit := maxArea.get?_eq_of_limit hshape.maxArea hread.maxArea
    exact Same.rel_standard hw.maxArea hlimit (hint d.maxArea)
  case sizes =>
    rw [show get? (Json.present d.ownFields) Field.sizes.own = _ from hw.sizes]
    refine sizes.rel_of_entries hshape.sizes h.ne_null h.ne_empty ?_ hread.sizes
    rintro vs hvs v hv ⟨i, hi⟩ s hs
    exact SizeEntry.same_toJson hi (fun es hes => h.sizes vs hvs es (hes ▸ hv)) hs
  case tiles =>
    rw [show get? (Json.present d.ownFields) Field.tiles.own = _ from hw.tiles]
    refine tiles.rel_of_entries hshape.tiles h.ne_null h.ne_empty ?_ hread.tiles
    rintro vs hvs v hv ⟨i, hi⟩ t ht
    exact TileEntry.same_toJson hi (fun es hes => h.tiles vs hvs es (hes ▸ hv)) ht
  case preferredFormats =>
    refine Same.rel_standard hw.preferredFormats ?_ isStandard_unlessEmpty_names
    exact preferredFormats.get?_eq_of_terms h.preferredFormats h.ne_empty hread.preferredFormats
  case rights =>
    refine Same.rel_standard hw.rights ?_ (htext d.rights)
    exact rights.get?_eq_of_nullable h.rights (fun _ => rfl) hread.rights
  case extraFeatures =>
    refine Same.rel_standard hw.extraFeatures ?_ isStandard_unlessEmpty_names
    exact extraFeatures.get?_eq_of_terms hterms.features h.ne_empty hread.extraFeatures
  case extraFormats =>
    refine Same.rel_standard hw.extraFormats ?_ isStandard_unlessEmpty_names
    exact extraFormats.get?_eq_of_terms hterms.formats h.ne_empty hread.extraFormats
  case extraQualities =>
    refine Same.rel_standard hw.extraQualities ?_ isStandard_unlessEmpty_names
    exact extraQualities.get?_eq_of_terms hterms.qualities h.ne_empty hread.extraQualities

/-- **A document that is kept whole is written** exactly if no value that no field describes has too
many levels. -/
theorem exists_write_iff (h : KnownOnly ms) (hread : Fields ms d) :
    (∃ y, d.write = .ok y) ↔ FewLevels ms := by
  have howns : ∀ f ∈ Field.ofDocument, f.OwnOnly ms := fun f hf => h.first.ownOnly hf
  have hcontext := forall_context_items_iff (P := fun v => v.levels ≤ levelLimit)
    (howns Field.context (by simp [Field.ofDocument])) hread
  have hsizes := (howns Field.sizes (by simp [Field.ofDocument])).forall_entries_iff
    (P := fun s => ∀ m ∈ s.extras, m.2.levels ≤ levelLimit)
    (Q := fun v => ∀ es, v = .object es → FewLevelsBeside Field.ofSize es) hread.sizes
    fun vs hvs v hv s hs => by
      obtain ⟨es, rfl, hfields⟩ := SizeEntry.fields_of_ofJson hs
      simpa using fewLevelsBeside_iff (h.sizes vs hvs es hv).first hfields.extras
  have htiles := (howns Field.tiles (by simp [Field.ofDocument])).forall_entries_iff
    (P := fun t => ∀ m ∈ t.extras, m.2.levels ≤ levelLimit)
    (Q := fun v => ∀ es, v = .object es → FewLevelsBeside Field.ofTile es) hread.tiles
    fun vs hvs v hv t ht => by
      obtain ⟨es, rfl, hfields⟩ := TileEntry.fields_of_ofJson ht
      simpa using fewLevelsBeside_iff (h.tiles vs hvs es hv).first hfields.extras
  have hbeside := fewLevelsBeside_iff h.first hread.extras
  have hwritten : (∃ y, d.write = .ok y) ↔ ∀ v ∈ d.undescribed, v.levels ≤ levelLimit := by
    simp [write_eq_ok_iff]
  rw [hwritten, forall_mem_undescribed, hcontext, hsizes, htiles, hbeside]
  constructor
  · rintro ⟨context, sizes, tiles, beside⟩
    exact ⟨context, fun vs hvs es hes => sizes vs hvs _ hes es rfl,
      fun vs hvs es hes => tiles vs hvs _ hes es rfl, beside⟩
  · rintro ⟨context, sizes, tiles, beside⟩
    exact ⟨context, fun vs hvs v hv es hes => sizes vs hvs es (hes ▸ hv),
      fun vs hvs v hv es hes => tiles vs hvs es (hes ▸ hv), beside⟩

/-- **It is read**, and the document of what is read is the same but for numbers that are not
finite. -/
theorem exists_ofJson {r : ShapeReport} (h : KnownOnly ms)
    (hshape : Shape.check (.object ms) = .ok r) (hvalid : r.valid = true)
    (hterms : ∀ name v, ShapeWarning.unknownEntry name v ∉ r.warnings) :
    ∃ d, ofJson (.object ms) = .ok d ∧ Fields ms d ∧ Same d.toJson (Json.object ms).standard := by
  have haccepted := Shape.accepted_of_checkMembers hshape (List.isEmpty_iff.mp hvalid)
  have hknown := haccepted.knownTerms hshape h.ne_null hterms
  obtain ⟨d, hd⟩ := (exists_ofJson_iff haccepted h.ne_null h.ne_null).mpr
    (h.fitsBeyondShape haccepted)
  obtain ⟨_, hobject, hfields⟩ := fields_of_ofJson hd
  cases hobject
  exact ⟨d, hd, hfields, h.same_toJson haccepted hknown hfields⟩

end KnownOnly

/-- An entry of `sizes` with its type. -/
def photographSize : Members :=
  [("height", .int 300), ("width", .int 400), ("type", .text "Size")]

/-- An entry of `tiles` with a member of its own. -/
def photographTile : Members :=
  [("scaleFactors", .array [.int 1, .int 2]), ("height", .int 512),
   ("label", .object [("en", .array [.null, .text "tiles"]), ("none", .null)]),
   ("width", .int 256)]

/-- A document with all kinds of members, in no particular order. -/
def photographMembers : Members :=
  [("tiles", .array [.object photographTile]), ("width", .int 4000),
   ("service", .array [.object [("profile", .null), ("extra_features", .array [])]]),
   ("height", .int 3000), ("id", .text "https://example.org/iiif/1"),
   ("type", .text imageServiceType), ("protocol", .text imageProtocol),
   ("profile", .text "level1"), ("maxWidth", .int 2000),
   ("sizes", .array [.object photographSize]),
   ("@context", .array [.text "http://www.w3.org/ns/anno.jsonld", .text imageContext]),
   ("extraQualities", .array [.text "color", .text "gray"]), ("maxArea", .int 4000000),
   ("extraFeatures", .array [.text "sizeUpscaling"]), ("extraFormats", .array [.text "webp"]),
   ("preferredFormats", .array [.text "webp", .text "jpg"]), ("rights", .text "")]

/-- The document with a note. -/
def noted (note : Json) : Members := ("note", note) :: photographMembers

variable {note : Json}

theorem check_noted : Shape.check (.object (noted note)) = .ok ⟨[], []⟩ := by
  have hid : Shape.checkId (noted note) = .ok ⟨[], []⟩ :=
    Shape.checkId_of_hasHttpAuthority rfl (by decide +kernel) (by decide) (by decide +kernel)
  rw [Shape.check, Shape.checkMembers, hid]
  rfl

theorem knownOnly_noted (hnull : note ≠ .null) (hempty : note ≠ .array []) :
    KnownOnly (noted note) := by
  have hsize : Json.KnownEntry Field.ofSize "Size" photographSize := {
    given := by simp [photographSize]
    first := by
      unfold FieldName.FirstNamed
      decide
    type := .inr rfl }
  have htile : Json.KnownEntry Field.ofTile "Tile" photographTile := {
    given := by simp [photographTile]
    first := by
      unfold FieldName.FirstNamed
      decide
    type := .inl rfl }
  have hname : ∀ f ∈ Field.ofDocument, f.own ≠ f.second → "note" ≠ f.second := by decide
  exact {
    given := List.forall_mem_cons.mpr ⟨⟨hnull, hempty⟩, by simp [photographMembers]⟩
    first := List.forall_mem_cons.mpr ⟨hname, by decide +kernel⟩
    sizes := by
      rintro _ ⟨⟩ es hes
      cases List.mem_singleton.mp hes
      exact hsize
    tiles := by
      rintro _ ⟨⟩ es hes
      cases List.mem_singleton.mp hes
      exact htile
    rights := .inr ⟨"", rfl⟩
    preferredFormats := .inr ⟨[.webp, .jpg], rfl⟩ }

theorem isStandard_noted (h : note.IsStandard) : (Json.object (noted note)).IsStandard := by
  refine Json.isStandard_object_iff.mpr (List.forall_mem_cons.mpr ⟨h, ?_⟩)
  simp [photographMembers, photographSize, photographTile, Json.IsStandard, Json.standard,
    Json.standardItems, Json.standardMembers]

theorem fewLevels_noted (h : note.levels ≤ levelLimit) : FewLevels (noted note) where
  context := by
    rintro _ ⟨⟩
    decide
  sizes := by
    rintro _ ⟨⟩ es hes
    cases List.mem_singleton.mp hes
    unfold FewLevelsBeside
    decide
  tiles := by
    rintro _ ⟨⟩ es hes
    cases List.mem_singleton.mp hes
    unfold FewLevelsBeside
    decide
  beside := List.forall_mem_cons.mpr ⟨fun _ => h, by decide +kernel⟩

/-- A value in so many arrays. -/
def nested : ℕ → Json
  | 0 => .bool true
  | n + 1 => .array [nested n]

theorem levels_nested (n : ℕ) : (nested n).levels = n + 1 := by
  induction n with
  | zero => rfl
  | succ n ih => simp [nested, Json.levels, Json.levelsOfItems, ih]

theorem isStandard_nested (n : ℕ) : (nested n).IsStandard := by
  induction n with
  | zero => simp [nested, Json.IsStandard, Json.standard]
  | succ n ih => exact Json.isStandard_array_iff.mpr (by simpa using ih)

theorem nested_ne (n : ℕ) : nested n ≠ .null ∧ nested n ≠ .array [] := by
  cases n <;> simp [nested]

end Descriptor

end IiifRules
