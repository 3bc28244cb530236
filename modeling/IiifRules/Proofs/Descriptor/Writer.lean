import Mathlib
import IiifRules.Proofs.Descriptor.Reader
import IiifRules.Proofs.Json.Members
import IiifRules.Proofs.Json.Term

/-! # Reading a descriptor that was written

A document is written as the members of its own fields and, after them, those that the Image API
does not name. Reading it finds each field among the former and leaves the latter over, so that it
gives the descriptor back as writing has left it.

* `FieldName.Beside`: what the members left over must not be named.
* `SizeEntry.ofJson_toJson`, `TileEntry.ofJson_toJson`, `Descriptor.ofJson_toJson`: a written value
  is read as itself, with standard JSON in the place of what is left over.
* `Descriptor.toJson_settled`: which is written as before.
* `Descriptor.write_eq_ok_iff`: which descriptors are written. -/

namespace IiifRules

open Json (Members get? has)

/-! ### Members of fields and others beside them -/

namespace FieldName

variable {fields : List FieldName} {f : FieldName} {ns es : Members} {v : Json}

/-- No field has the name of another as its second one. -/
def Distinct (fields : List FieldName) : Prop :=
  ∀ f ∈ fields, ∀ g ∈ fields, g.own = f.second → f.own = f.second

/-- Members `ns` are given under the names of fields, and members `es` beside them under names that
give no field: the second name of a field only if the first one is given. -/
structure Beside (fields : List FieldName) (ns es : Members) : Prop where
  named : ∀ m ∈ ns, ∃ f ∈ fields, m.1 = f.own
  own_ne : ∀ m ∈ es, ∀ f ∈ fields, m.1 ≠ f.own
  of_second : ∀ m ∈ es, ∀ f ∈ fields, m.1 = f.second → has ns f.own = true

theorem Beside.of_names {es' : Members} (h : Beside fields ns es)
    (hnames : ∀ m' ∈ es', ∃ m ∈ es, m.1 = m'.1) : Beside fields ns es' where
  named := h.named
  own_ne m' hm' f hf := by
    obtain ⟨m, hm, heq⟩ := hnames m' hm'
    exact heq ▸ h.own_ne m hm f hf
  of_second m' hm' f hf hsecond := by
    obtain ⟨m, hm, heq⟩ := hnames m' hm'
    exact h.of_second m hm f hf (heq.trans hsecond)

theorem Beside.get?_own (h : Beside fields ns es) (hf : f ∈ fields) :
    get? (ns ++ es) f.own = get? ns f.own := by
  rw [Json.get?_append, Json.get?_eq_none_iff.mpr fun m hm => h.own_ne m hm f hf, Option.or_none]

/-- **A field is given under its own name**, if at all, where members stand beside the fields. -/
theorem Beside.ownOnly (h : Beside fields ns es) (hd : Distinct fields) (hf : f ∈ fields) :
    f.OwnOnly (ns ++ es) := by
  refine ownOnly_of_second fun hsecond => ?_
  rw [has, h.get?_own hf, ← has]
  obtain ⟨m, hm, heq⟩ := Json.has_iff.mp hsecond
  rcases List.mem_append.mp hm with hm | hm
  · obtain ⟨g, hg, hname⟩ := h.named m hm
    have hsame := hd f hf g hg (hname.symm.trans heq)
    exact Json.has_iff.mpr ⟨m, hm, heq.trans hsame.symm⟩
  · exact h.of_second m hm f hf heq

variable {α : Type} {read : Json → Checked α} {a value : α}

theorem Beside.required_iff (h : Beside fields ns es) (hf : f ∈ fields)
    (hv : get? ns f.own = some v) : f.required (ns ++ es) read = .ok a ↔ read v = .ok a :=
  required_of_get? ((h.get?_own hf).trans hv)

theorem Beside.withDefault_iff (h : Beside fields ns es) (hd : Distinct fields) (hf : f ∈ fields) :
    f.withDefault (ns ++ es) value read = .ok a ↔
      (∀ v, get? ns f.own = some v → read v = .ok a) ∧ (get? ns f.own = none → value = a) := by
  rw [(h.ownOnly hd hf).withDefault_iff, h.get?_own hf]

/-- **What is left over** by the fields are the members beside them. -/
theorem Beside.extrasOf_eq (h : Beside fields ns es) : extrasOf fields (ns ++ es) = es := by
  have hns : ∀ m ∈ ns, ∃ f ∈ fields, f.used? (ns ++ es) = some m.1 := by
    intro m hm
    obtain ⟨f, hf, hname⟩ := h.named m hm
    have hown : has (ns ++ es) f.own = true :=
      Json.has_iff.mpr ⟨m, List.mem_append_left es hm, hname⟩
    refine ⟨f, hf, ?_⟩
    rw [used?, if_pos hown, hname]
  have hes : ∀ m ∈ es, ∀ f ∈ fields, f.used? (ns ++ es) ≠ some m.1 := by
    intro m hm f hf
    unfold used?
    split_ifs with hown hsecond
    · intro heq
      exact h.own_ne m hm f hf (Option.some.inj heq).symm
    · intro heq
      have := h.of_second m hm f hf (Option.some.inj heq).symm
      rw [has, h.get?_own hf, ← has] at hown
      exact hown this
    · intro heq
      cases heq
  unfold extrasOf
  rw [List.filter_append, List.filter_eq_nil_iff.mpr, List.filter_eq_self.mpr, List.nil_append]
  · simpa using hes
  · simpa using hns

end FieldName

/-- What is left over is named like no field, and like a second name only where the first is
given. -/
theorem mem_extrasOf {fields : List FieldName} {ms : Members} {m : String × Json}
    (hm : m ∈ extrasOf fields ms) : ∀ f ∈ fields,
      m.1 ≠ f.own ∧ (m.1 = f.second → has ms f.own = true) := by
  obtain ⟨hmem, hused⟩ := List.mem_filter.mp hm
  have hused : ∀ f ∈ fields, f.used? ms ≠ some m.1 := by simpa using hused
  intro f hf
  have := hused f hf
  unfold FieldName.used? at this
  constructor
  · intro heq
    rw [if_pos (Json.has_iff.mpr ⟨m, hmem, heq⟩)] at this
    exact this (heq ▸ rfl)
  · intro heq
    by_contra hown
    rw [if_neg hown, if_pos (Json.has_iff.mpr ⟨m, hmem, heq⟩)] at this
    exact this (heq ▸ rfl)

theorem isNonFinite_of_mem_extrasOf {fields : List FieldName} {ms : Members}
    (h : ∀ m ∈ ms, m.2.isNonFinite = false) : ∀ m ∈ extrasOf fields ms, m.2.isNonFinite = false :=
  fun m hm => h m (List.mem_of_mem_filter hm)

theorem FieldName.exists_of_mem_present {fields : List FieldName}
    {fs : List (String × Option Json)} (hnames : fs.map Prod.fst ⊆ fields.map FieldName.own) :
    ∀ m ∈ Json.present fs, ∃ f ∈ fields, m.1 = f.own := by
  intro m hm
  have : m.1 ∈ fs.map Prod.fst := List.mem_map.mpr ⟨_, Json.mem_present.mp hm, rfl⟩
  obtain ⟨f, hf, hname⟩ := List.mem_map.mp (hnames this)
  exact ⟨f, hf, hname.symm⟩

/-- **What is left over when members are read** stands beside the fields as they are written, if
those of two names are always written. -/
theorem FieldName.Beside.of_extrasOf {fields : List FieldName} {fs : List (String × Option Json)}
    {ms : Members} (hnames : fs.map Prod.fst ⊆ fields.map FieldName.own)
    (halways : ∀ f ∈ fields, f.own ≠ f.second → has (Json.present fs) f.own = true) :
    Beside fields (Json.present fs) (extrasOf fields ms) where
  named := exists_of_mem_present hnames
  own_ne _ hm f hf := (mem_extrasOf hm f hf).1
  of_second _ hm f hf heq :=
    halways f hf fun hone => (mem_extrasOf hm f hf).1 (heq.trans hone.symm)

theorem FieldName.Beside.nil {fields : List FieldName} {fs : List (String × Option Json)}
    (hnames : fs.map Prod.fst ⊆ fields.map FieldName.own) : Beside fields (Json.present fs) [] where
  named := exists_of_mem_present hnames
  own_ne := nofun
  of_second := nofun

theorem exists_of_mem_givenMembers {ms : Members} :
    ∀ m' ∈ givenMembers ms, ∃ m ∈ ms, m.1 = m'.1 := by
  intro m' hm'
  obtain ⟨m, hm, -, rfl⟩ := mem_givenMembers.mp hm'
  exact ⟨m, hm, rfl⟩

/-! ### Terms -/

theorem Checked.knownTerms_namesToJson {α : Type} [Vocabulary α] [Vocabulary.Lawful α]
    (ts : List α) : Checked.knownTerms α (namesToJson ts) = .ok ts := by
  simp [knownTerms, namesToJson, List.filterMap_map, Json.term?_name]

theorem Checked.term_name {α : Type} [Vocabulary α] [Vocabulary.Lawful α] (t : α) :
    Checked.term α (.text (Vocabulary.name t)) = .ok t := by
  rw [term, Json.term?_name]

/-! ### Reading written fields -/

theorem Checked.all_eq_ok {α : Type} {read : Json → Checked α} {i : ℕ} {vs : List Json}
    {as : List α} (h : List.Forall₂ (fun v a => read v = .ok a) vs as) :
    all read i vs = .ok as := by
  induction h generalizing i with
  | nil => rfl
  | cons hread _ ih =>
    rw [all, hread, ih]
    rfl

theorem Checked.array_map {α : Type} {read : Json → Checked α} {write : α → Json} {g : α → α}
    {as : List α} (h : ∀ a ∈ as, read (write a) = .ok (g a)) :
    array read (.array (as.map write)) = .ok (as.map g) := by
  refine all_eq_ok ?_
  rw [List.forall₂_map_left_iff, List.forall₂_map_right_iff, List.forall₂_same]
  exact h

theorem Checked.array_integer (ns : List ℤ) :
    array integer (.array (ns.map .int)) = .ok ns := by
  have hmap : array integer (.array (ns.map .int)) = .ok (ns.map id) :=
    array_map fun n _ => integer_int n
  rwa [List.map_id] at hmap

theorem readTyped_eq_ok {fields : List FieldName} {ns es : Members} {name : String} {typed : Bool}
    (h : FieldName.Beside fields ns es) (hd : FieldName.Distinct fields) (hf : Field.type ∈ fields)
    (hget : get? ns "type" = if typed then some (.text name) else none) :
    readTyped name (ns ++ es) = .ok typed := by
  refine (h.withDefault_iff hd hf).mpr ⟨fun v hv => ?_, fun hv => ?_⟩
  · rw [Field.type, FieldName.single, hget] at hv
    cases typed with
    | true =>
      injection hv with hv
      rw [← hv]
      simp [Checked.nullable, Checked.literal, Json.isText, Except.map]
    | false => cases hv
  · rw [Field.type, FieldName.single, hget] at hv
    cases typed with
    | true => cases hv
    | false => rfl

namespace FieldName

variable {fields : List FieldName} {ns es : Members} {f : FieldName}

/-- A value that is written only if there is one. -/
theorem Beside.readNullable_eq_ok {α : Type} {read : Json → Checked α} {write : α → Json}
    {a? : Option α} (h : Beside fields ns es) (hd : Distinct fields) (hf : f ∈ fields)
    (hget : get? ns f.own = a?.map write)
    (hread : ∀ a, Checked.nullable read (write a) = .ok (some a)) :
    f.withDefault (ns ++ es) none (Checked.nullable read) = .ok a? := by
  cases a? with
  | none =>
    exact (h.withDefault_iff hd hf).mpr ⟨by simp [hget], fun _ => rfl⟩
  | some a =>
    refine (h.withDefault_iff hd hf).mpr ⟨fun v hv => ?_, by simp [hget]⟩
    rw [hget] at hv
    injection hv with hv
    rw [← hv]
    exact hread a

/-- A text that is fixed. -/
theorem Beside.readFixed_eq_ok {s : String} (h : Beside fields ns es) (hd : Distinct fields)
    (hf : f ∈ fields) (hget : get? ns f.own = some (.text s)) :
    Descriptor.readFixed f (ns ++ es) s = .ok () := by
  refine (h.withDefault_iff hd hf).mpr ⟨fun v hv => ?_, fun _ => rfl⟩
  rw [hget] at hv
  injection hv with hv
  rw [← hv]
  simp [Checked.literal, Json.isText]

/-- An array that is written unless it is empty. -/
theorem Beside.readArray_eq_ok {α : Type} {read : Json → Checked (List α)} {vs : List Json}
    {as : List α} (h : Beside fields ns es) (hd : Distinct fields) (hf : f ∈ fields)
    (hget : get? ns f.own = (Json.array vs).unlessEmpty) (hread : read (.array vs) = .ok as)
    (hempty : vs = [] → as = []) : f.withDefault (ns ++ es) [] read = .ok as := by
  rw [Json.unlessEmpty_array] at hget
  by_cases hvs : vs = []
  · rw [if_pos hvs] at hget
    exact (h.withDefault_iff hd hf).mpr ⟨by simp [hget], fun _ => (hempty hvs).symm⟩
  · rw [if_neg hvs] at hget
    refine (h.withDefault_iff hd hf).mpr ⟨fun v hv => ?_, by simp [hget]⟩
    rw [hget] at hv
    injection hv with hv
    rw [← hv]
    exact hread

theorem Beside.readEntries_eq_ok {α : Type} {read : Json → Checked α} {write : α → Json} {g : α → α}
    {as : List α} (h : Beside fields ns es) (hd : Distinct fields) (hf : f ∈ fields)
    (hget : get? ns f.own = (Json.array (as.map write)).unlessEmpty)
    (hread : ∀ a ∈ as, read (write a) = .ok (g a)) :
    f.withDefault (ns ++ es) [] (Checked.array read) = .ok (as.map g) :=
  h.readArray_eq_ok hd hf hget (Checked.array_map hread) (by simp)

theorem Beside.readTerms_eq_ok {α : Type} [Vocabulary α] [Vocabulary.Lawful α] {ts : List α}
    (h : Beside fields ns es) (hd : Distinct fields) (hf : f ∈ fields)
    (hget : get? ns f.own = (namesToJson ts).unlessEmpty) :
    Descriptor.readTerms α f (ns ++ es) = .ok ts :=
  h.readArray_eq_ok hd hf hget (Checked.knownTerms_namesToJson ts) (by simp)

/-- A limit that is read is the one that was written. -/
theorem Beside.eq_of_readLimit {n? m? : Option ℤ} (h : Beside fields ns es) (hd : Distinct fields)
    (hf : f ∈ fields) (hget : get? ns f.own = n?.map .int)
    (hread : Descriptor.readLimit f (ns ++ es) = .ok m?) : m? = n? := by
  have hwritten : f.withDefault (ns ++ es) none (Checked.nullable Checked.integer) = .ok n? :=
    h.readNullable_eq_ok hd hf hget fun _ => rfl
  exact Except.ok.inj (hread.symm.trans hwritten)

/-- Terms that are read are those that were written. -/
theorem Beside.eq_of_readTerms {α : Type} [Vocabulary α] [Vocabulary.Lawful α] {ts us : List α}
    (h : Beside fields ns es) (hd : Distinct fields) (hf : f ∈ fields)
    (hget : get? ns f.own = some (namesToJson ts))
    (hread : Descriptor.readTerms α f (ns ++ es) = .ok us) : us = ts := by
  have := ((h.withDefault_iff hd hf).mp hread).1 _ hget
  exact Except.ok.inj (this.symm.trans (Checked.knownTerms_namesToJson ts))

end FieldName

/-! ### Entries -/

namespace SizeEntry

variable {s : SizeEntry}

/-- The members of the fields of an entry. -/
def ownFields (s : SizeEntry) : List (String × Option Json) :=
  [("type", if s.typed then some (.text "Size") else none), ("width", some (.int s.width)),
   ("height", some (.int s.height))]

/-- An entry as it is after it was written. -/
def settled (s : SizeEntry) : SizeEntry := { s with extras := givenMembers s.extras }

theorem toJson_eq (s : SizeEntry) :
    s.toJson = .object (Json.present s.ownFields ++ givenMembers s.extras) := by
  unfold toJson ownFields
  cases s.typed <;> rfl

theorem distinct_ofSize : FieldName.Distinct Field.ofSize := by
  intro f hf g _ _
  simp only [Field.ofSize, List.mem_cons, List.not_mem_nil, or_false] at hf
  rcases hf with rfl | rfl | rfl <;> rfl

theorem get?_ownFields {name : String} :
    get? (Json.present s.ownFields) name = (s.ownFields.lookup name).join :=
  Json.get?_present (by simp [ownFields])

theorem beside_of_ofJson {v : Json} (h : ofJson v = .ok s) :
    FieldName.Beside Field.ofSize (Json.present s.ownFields) s.extras := by
  obtain ⟨ms, -, hfields⟩ := fields_of_ofJson h
  rw [← hfields.extras]
  refine FieldName.Beside.of_extrasOf (List.Subset.refl _) fun f hf htwo => ?_
  simp only [Field.ofSize, List.mem_cons, List.not_mem_nil, or_false] at hf
  rcases hf with rfl | rfl | rfl <;> exact absurd rfl htwo

/-- **A written entry** is read as it was written. -/
theorem ofJson_toJson (h : FieldName.Beside Field.ofSize (Json.present s.ownFields) s.extras) :
    ofJson s.toJson = .ok s.settled := by
  have h' := h.of_names exists_of_mem_givenMembers
  rw [toJson_eq]
  refine ofJson_of_fields ⟨?_, ?_, ?_, h'.extrasOf_eq⟩
  · refine readTyped_eq_ok h' distinct_ofSize (by simp [Field.ofSize]) ?_
    rw [get?_ownFields]
    rfl
  · exact (h'.required_iff (by simp [Field.ofSize]) get?_ownFields).mpr rfl
  · exact (h'.required_iff (by simp [Field.ofSize]) get?_ownFields).mpr rfl

theorem toJson_settled (h : ∀ m ∈ s.extras, m.2.isNonFinite = false) :
    s.settled.toJson = s.toJson := by
  rw [toJson_eq, toJson_eq]
  dsimp only [settled]
  rw [givenMembers_of_written (fun _ hm => hm) h]
  rfl

end SizeEntry

namespace TileEntry

variable {t : TileEntry}

/-- The members of the fields of an entry. -/
def ownFields (t : TileEntry) : List (String × Option Json) :=
  [("type", if t.typed then some (.text "Tile") else none), ("width", some (.int t.width)),
   ("height", t.height.map .int), ("scaleFactors", some (.array (t.scaleFactors.map .int)))]

/-- An entry as it is after it was written. -/
def settled (t : TileEntry) : TileEntry := { t with extras := givenMembers t.extras }

theorem toJson_eq (t : TileEntry) :
    t.toJson = .object (Json.present t.ownFields ++ givenMembers t.extras) := by
  unfold toJson ownFields
  cases t.typed <;> cases t.height <;> rfl

theorem distinct_ofTile : FieldName.Distinct Field.ofTile := by
  unfold FieldName.Distinct
  decide

theorem get?_ownFields {name : String} :
    get? (Json.present t.ownFields) name = (t.ownFields.lookup name).join :=
  Json.get?_present (by simp [ownFields])

theorem beside_of_ofJson {v : Json} (h : ofJson v = .ok t) :
    FieldName.Beside Field.ofTile (Json.present t.ownFields) t.extras := by
  obtain ⟨ms, -, hfields⟩ := fields_of_ofJson h
  rw [← hfields.extras]
  refine FieldName.Beside.of_extrasOf (List.Subset.refl _) fun f hf htwo => ?_
  simp only [Field.ofTile, List.mem_cons, List.not_mem_nil, or_false] at hf
  rcases hf with rfl | rfl | rfl | rfl
  · exact absurd rfl htwo
  · exact absurd rfl htwo
  · exact absurd rfl htwo
  · rw [Field.scaleFactors, has, get?_ownFields]
    rfl

/-- **A written entry** is read as it was written. -/
theorem ofJson_toJson (h : FieldName.Beside Field.ofTile (Json.present t.ownFields) t.extras) :
    ofJson t.toJson = .ok t.settled := by
  have h' := h.of_names exists_of_mem_givenMembers
  rw [toJson_eq]
  refine ofJson_of_fields ⟨?_, ?_, ?_, ?_, h'.extrasOf_eq⟩
  · refine readTyped_eq_ok h' distinct_ofTile (by simp [Field.ofTile]) ?_
    rw [get?_ownFields]
    rfl
  · exact (h'.required_iff (by simp [Field.ofTile]) get?_ownFields).mpr rfl
  · exact h'.readNullable_eq_ok distinct_ofTile (by simp [Field.ofTile]) get?_ownFields fun _ => rfl
  · exact (h'.required_iff (by simp [Field.ofTile]) get?_ownFields).mpr (Checked.array_integer _)

theorem toJson_settled (h : ∀ m ∈ t.extras, m.2.isNonFinite = false) :
    t.settled.toJson = t.toJson := by
  rw [toJson_eq, toJson_eq]
  dsimp only [settled]
  rw [givenMembers_of_written (fun _ hm => hm) h]
  rfl

end TileEntry

/-! ### Documents -/

/-- A context as it is after it was written. -/
def Context.settled : Context → Context
  | .uri s => .uri s
  | .list items => .list (Json.standardItems items)

theorem Context.ofJson_toJson (c : Context) : Context.ofJson c.toJson = .ok c.settled := by
  cases c <;> rfl

theorem Context.toJson_settled (c : Context) : c.settled.toJson = c.toJson := by
  cases c with
  | uri s => rfl
  | list items => exact congrArg Json.array (Json.standardItems_standardItems items)

theorem Context.unlessEmpty_toJson (c : Context) (h : ∀ items, c = .list items → items ≠ []) :
    c.toJson.unlessEmpty = some c.toJson := by
  cases c with
  | uri s => rfl
  | list items =>
    have := h items rfl
    rw [toJson, Json.unlessEmpty_array, Json.standardItems_eq_map, if_neg (by simpa using this)]

namespace Descriptor

variable {d : Descriptor}

/-- The members of the fields of a document, as far as they have a value. -/
def allFields (d : Descriptor) : List (String × Option Json) :=
  [("@context", some d.context.toJson), ("id", some (.text d.id)),
   ("type", some (.text imageServiceType)), ("protocol", some (.text imageProtocol)),
   ("profile", some (.text d.profile.name)), ("width", some (.int d.width)),
   ("height", some (.int d.height)), ("maxWidth", d.maxWidth.map .int),
   ("maxHeight", d.maxHeight.map .int), ("maxArea", d.maxArea.map .int),
   ("sizes", some (.array (d.sizes.map SizeEntry.toJson))),
   ("tiles", some (.array (d.tiles.map TileEntry.toJson))),
   ("preferredFormats", some (namesToJson d.preferredFormats)), ("rights", d.rights.map .text),
   ("extraFeatures", some (namesToJson d.extraFeatures)),
   ("extraFormats", some (namesToJson d.extraFormats)),
   ("extraQualities", some (namesToJson d.extraQualities))]

/-- The members of the fields of a document without empty arrays. -/
def ownFields (d : Descriptor) : List (String × Option Json) :=
  d.allFields.map fun f => (f.1, f.2.bind Json.unlessEmpty)

/-- The members beside the fields of a document, as they are written. -/
def writtenExtras (d : Descriptor) : Members :=
  (givenMembers d.extras).filter fun m => !m.2.isEmptyArray

/-- A descriptor as it is after it was written. -/
def settled (d : Descriptor) : Descriptor :=
  { d with
    context := d.context.settled
    sizes := d.sizes.map SizeEntry.settled
    tiles := d.tiles.map TileEntry.settled
    extras := d.writtenExtras }

theorem allMembers_eq (d : Descriptor) :
    d.allMembers = Json.present d.allFields ++ givenMembers d.extras := by
  unfold allMembers allFields
  cases d.maxWidth <;> cases d.maxHeight <;> cases d.maxArea <;> cases d.rights <;> rfl

theorem toMembers_eq (d : Descriptor) :
    d.toMembers = Json.present d.ownFields ++ d.writtenExtras := by
  rw [toMembers, allMembers_eq, List.filter_append, Json.filter_present]
  rfl

theorem distinct_ofDocument : FieldName.Distinct Field.ofDocument := by
  unfold FieldName.Distinct
  decide

theorem map_fst_ownFields (d : Descriptor) :
    d.ownFields.map Prod.fst = Field.ofDocument.map FieldName.own := rfl

/-- The value of each field in members `ms` in which `d` is written. -/
structure WrittenIn (d : Descriptor) (ms : Members) : Prop where
  context : get? ms "@context" = d.context.toJson.unlessEmpty
  id : get? ms "id" = some (.text d.id)
  type : get? ms "type" = some (.text imageServiceType)
  protocol : get? ms "protocol" = some (.text imageProtocol)
  profile : get? ms "profile" = some (.text d.profile.name)
  width : get? ms "width" = some (.int d.width)
  height : get? ms "height" = some (.int d.height)
  maxWidth : get? ms "maxWidth" = d.maxWidth.map .int
  maxHeight : get? ms "maxHeight" = d.maxHeight.map .int
  maxArea : get? ms "maxArea" = d.maxArea.map .int
  sizes : get? ms "sizes" = (Json.array (d.sizes.map SizeEntry.toJson)).unlessEmpty
  tiles : get? ms "tiles" = (Json.array (d.tiles.map TileEntry.toJson)).unlessEmpty
  preferredFormats : get? ms "preferredFormats" = (namesToJson d.preferredFormats).unlessEmpty
  rights : get? ms "rights" = d.rights.map .text
  extraFeatures : get? ms "extraFeatures" = (namesToJson d.extraFeatures).unlessEmpty
  extraFormats : get? ms "extraFormats" = (namesToJson d.extraFormats).unlessEmpty
  extraQualities : get? ms "extraQualities" = (namesToJson d.extraQualities).unlessEmpty

theorem get?_ownFields {name : String} :
    get? (Json.present d.ownFields) name = (d.ownFields.lookup name).join := by
  refine Json.get?_present ?_
  rw [map_fst_ownFields]
  decide

theorem bind_unlessEmpty {α : Type} {write : α → Json} (a? : Option α)
    (h : ∀ a, (write a).unlessEmpty = some (write a)) :
    (a?.map write).bind Json.unlessEmpty = a?.map write := by
  cases a? with
  | none => rfl
  | some a => exact h a

/-- **A field is found** where the members of the fields are. -/
theorem writtenIn_of_get? {ms : Members} (h : ∀ f ∈ Field.ofDocument,
    get? ms f.own = get? (Json.present d.ownFields) f.own) : d.WrittenIn ms := by
  have hget : ∀ f ∈ Field.ofDocument, get? ms f.own = (d.ownFields.lookup f.own).join :=
    fun f hf => (h f hf).trans get?_ownFields
  simp only [Field.ofDocument, List.forall_mem_cons] at hget
  obtain ⟨context, id, type, protocol, profile, width, height, maxWidth, maxHeight, maxArea, sizes,
    tiles, preferredFormats, rights, extraFeatures, extraFormats, extraQualities, -⟩ := hget
  have hlimit : ∀ n? : Option ℤ, (n?.map Json.int).bind Json.unlessEmpty = n?.map .int :=
    fun n? => bind_unlessEmpty n? fun _ => rfl
  exact {
    context, id, type, protocol, profile, width, height
    maxWidth := maxWidth.trans (hlimit _)
    maxHeight := maxHeight.trans (hlimit _)
    maxArea := maxArea.trans (hlimit _)
    sizes, tiles, preferredFormats
    rights := rights.trans (bind_unlessEmpty _ fun _ => rfl)
    extraFeatures, extraFormats, extraQualities }

theorem exists_of_mem_writtenExtras : ∀ m' ∈ d.writtenExtras, ∃ m ∈ d.extras, m.1 = m'.1 :=
  fun m' hm' => exists_of_mem_givenMembers m' (List.mem_filter.mp hm').1

theorem writtenExtras_eq_nil (h : d.extras = []) : d.writtenExtras = [] := by
  rw [writtenExtras, h]
  rfl

theorem beside_of_extras_eq_nil (h : d.extras = []) :
    FieldName.Beside Field.ofDocument (Json.present d.ownFields) d.writtenExtras := by
  rw [writtenExtras_eq_nil h]
  exact .nil (List.Subset.refl _)

/-- **The members of a written document** give its fields, whatever stands beside them. -/
theorem writtenIn_toMembers
    (h : FieldName.Beside Field.ofDocument (Json.present d.ownFields) d.writtenExtras) :
    d.WrittenIn d.toMembers := by
  rw [toMembers_eq]
  exact writtenIn_of_get? fun f hf => h.get?_own hf

/-- **A written document** is read as it was written, unless its context is an empty list. -/
theorem ofJson_toJson
    (h : FieldName.Beside Field.ofDocument (Json.present d.ownFields) d.writtenExtras)
    (hcontext : ∀ items, d.context = .list items → items ≠ [])
    (hsizes : ∀ s ∈ d.sizes, SizeEntry.ofJson s.toJson = .ok s.settled)
    (htiles : ∀ t ∈ d.tiles, TileEntry.ofJson t.toJson = .ok t.settled) :
    ofJson d.toJson = .ok d.settled := by
  have hw : d.WrittenIn (Json.present d.ownFields) := writtenIn_of_get? fun _ _ => rfl
  have hd := distinct_ofDocument
  rw [toJson, toMembers_eq]
  refine ofJson_of_fields ?_
  constructor
  · have hcontext : get? (Json.present d.ownFields) "@context" = some d.context.toJson := by
      rw [hw.context]
      exact d.context.unlessEmpty_toJson hcontext
    exact (FieldName.withDefault_of_get? ((h.get?_own (by simp [Field.ofDocument])).trans
      hcontext)).mpr d.context.ofJson_toJson
  · exact (h.required_iff (by simp [Field.ofDocument]) hw.id).mpr rfl
  · exact h.readFixed_eq_ok hd (by simp [Field.ofDocument]) hw.type
  · exact h.readFixed_eq_ok hd (by simp [Field.ofDocument]) hw.protocol
  · exact (h.required_iff (by simp [Field.ofDocument]) hw.profile).mpr (Checked.term_name _)
  · exact (h.required_iff (by simp [Field.ofDocument]) hw.width).mpr rfl
  · exact (h.required_iff (by simp [Field.ofDocument]) hw.height).mpr rfl
  · exact h.readNullable_eq_ok hd (by simp [Field.ofDocument]) hw.maxWidth fun _ => rfl
  · exact h.readNullable_eq_ok hd (by simp [Field.ofDocument]) hw.maxHeight fun _ => rfl
  · exact h.readNullable_eq_ok hd (by simp [Field.ofDocument]) hw.maxArea fun _ => rfl
  · exact h.readEntries_eq_ok hd (by simp [Field.ofDocument]) hw.sizes hsizes
  · exact h.readEntries_eq_ok hd (by simp [Field.ofDocument]) hw.tiles htiles
  · exact h.readTerms_eq_ok hd (by simp [Field.ofDocument]) hw.preferredFormats
  · exact h.readNullable_eq_ok hd (by simp [Field.ofDocument]) hw.rights fun _ => rfl
  · exact h.readTerms_eq_ok hd (by simp [Field.ofDocument]) hw.extraFeatures
  · exact h.readTerms_eq_ok hd (by simp [Field.ofDocument]) hw.extraFormats
  · exact h.readTerms_eq_ok hd (by simp [Field.ofDocument]) hw.extraQualities
  · exact h.extrasOf_eq

/-- **Writing it once more** changes nothing, unless a number among what is left over is not
finite. -/
theorem toJson_settled (hsizes : ∀ s ∈ d.sizes, s.settled.toJson = s.toJson)
    (htiles : ∀ t ∈ d.tiles, t.settled.toJson = t.toJson)
    (hextras : ∀ m ∈ d.extras, m.2.isNonFinite = false) : d.settled.toJson = d.toJson := by
  have hfields : d.settled.ownFields = d.ownFields := by
    have hmap : d.settled.sizes.map SizeEntry.toJson = d.sizes.map SizeEntry.toJson ∧
        d.settled.tiles.map TileEntry.toJson = d.tiles.map TileEntry.toJson := by
      simp only [settled, List.map_map]
      exact ⟨List.map_congr_left hsizes, List.map_congr_left htiles⟩
    unfold ownFields allFields
    rw [hmap.1, hmap.2, show d.settled.context.toJson = d.context.toJson from
      d.context.toJson_settled]
    rfl
  have hextras : d.settled.writtenExtras = d.writtenExtras := by
    unfold writtenExtras
    have hwritten : givenMembers d.writtenExtras = d.writtenExtras :=
      givenMembers_of_written (fun m hm => (List.mem_filter.mp hm).1) hextras
    rw [show d.settled.extras = d.writtenExtras from rfl, hwritten, writtenExtras,
      List.filter_filter]
    simp
  rw [toJson, toJson, toMembers_eq, toMembers_eq, hfields, hextras]

/-! ### Values that no field describes -/

theorem forall_mem_undescribed {P : Json → Prop} : (∀ v ∈ d.undescribed, P v) ↔
    (∀ v ∈ d.context.items, P v) ∧ (∀ s ∈ d.sizes, ∀ m ∈ s.extras, P m.2) ∧
      (∀ t ∈ d.tiles, ∀ m ∈ t.extras, P m.2) ∧ ∀ m ∈ d.extras, P m.2 := by
  simp only [undescribed, List.map_append, List.forall_mem_append, List.forall_mem_map,
    List.forall_mem_flatMap, and_assoc]

/-- **A descriptor is written** exactly if these values have few enough levels. -/
theorem write_eq_ok_iff {v : Json} :
    d.write = .ok v ↔ (∀ w ∈ d.undescribed, w.levels ≤ levelLimit) ∧ d.toJson = v := by
  have hiff : d.withinLevels = true ↔ ∀ w ∈ d.undescribed, w.levels ≤ levelLimit := by
    simp [withinLevels]
  rw [← hiff, write]
  split_ifs with h <;> simp [h]

/-- **What was written once** has few enough levels to be written again. -/
theorem levels_le_settled (h : ∀ v ∈ d.undescribed, v.levels ≤ levelLimit) :
    ∀ v ∈ d.settled.undescribed, v.levels ≤ levelLimit := by
  rw [forall_mem_undescribed] at h ⊢
  obtain ⟨hcontext, hsizes, htiles, hextras⟩ := h
  have hgiven : ∀ {ms : Members}, (∀ m ∈ ms, m.2.levels ≤ levelLimit) →
      ∀ m ∈ givenMembers ms, m.2.levels ≤ levelLimit := by
    intro ms hms m hm
    obtain ⟨m', hm', -, rfl⟩ := mem_givenMembers.mp hm
    rw [Json.levels_standard]
    exact hms m' hm'
  refine ⟨?_, ?_, ?_, fun m hm => hgiven hextras m (List.mem_of_mem_filter hm)⟩
  · dsimp only [settled]
    cases hitems : d.context with
    | uri s => nofun
    | list items =>
      rw [hitems] at hcontext
      simp only [Context.settled, Context.items, Json.standardItems_eq_map, List.forall_mem_map,
        Json.levels_standard]
      exact hcontext
  · exact List.forall_mem_map.mpr fun s hs => hgiven (hsizes s hs)
  · exact List.forall_mem_map.mpr fun t ht => hgiven (htiles t ht)

end Descriptor

end IiifRules
