import Mathlib
import IiifRules.Proofs.Descriptor.Proper
import IiifRules.Proofs.Numeric.Numeral
import IiifRules.Proofs.Text.Fields

/-! # What is found in which entry

Every error that is found in an entry of `sizes` or `tiles` names the entry by its list and its
index, and no other error does. No entry hides what is wrong with another one, and no fault of an
entry hides another fault of it.

* `ShapeError.Names`: the message begins with the name of an entry, such as `tiles[2]`.
* `Shape.SizeFault`, `Shape.TileFault`: what can be wrong with an entry, and the error for it.
* `Shape.exists_check_iff_proper`: which documents are valid, and what is found in each entry. -/

namespace IiifRules

open Json (Members get?)
open Numeric Text

/-! ### Entries that a message names -/

/-- The name of an entry. -/
def entryName (list : String) (i : ℕ) : String := list ++ "[" ++ Numeral.text i ++ "]"

/-- **An error that names an entry** at the beginning of its message. -/
def ShapeError.Names (e : ShapeError) (list : String) (i : ℕ) : Prop :=
  (entryName list i).toList <+: e.message.toList

section Names

variable {list list' : String} {i j : ℕ} {cs : List Char}

theorem toList_entryName :
    (entryName list i).toList = list.toList ++ '[' :: (Numeral.digits i ++ [']']) := by
  simp [entryName, Numeral.text, Numeral.chars_natCast]

theorem closing_notMem_digits (i : ℕ) : ']' ∉ Numeral.digits i := fun h =>
  absurd (Numeral.isDigit_of_mem_digits h) (by decide)

/-- **A text begins with the name of one entry** at most. -/
theorem eq_of_begins (hlist : '[' ∉ list.toList) (hlist' : '[' ∉ list'.toList)
    (h : (entryName list i).toList <+: cs) (h' : (entryName list' j).toList <+: cs) :
    list = list' ∧ i = j := by
  obtain ⟨rest, rfl⟩ := h
  obtain ⟨rest', h'⟩ := h'
  rw [toList_entryName, toList_entryName, List.append_assoc, List.append_assoc, List.cons_append,
    List.cons_append, List.append_assoc, List.append_assoc, List.singleton_append,
    List.singleton_append] at h'
  -- The text is cut at the first opening bracket, and what follows at the first closing one.
  have hcut := cut_append hlist' (Numeral.digits j ++ ']' :: rest')
  rw [h', cut_append hlist] at hcut
  injection hcut with hname hrest
  injection hrest with hrest
  have hcut' := cut_append (closing_notMem_digits i) rest
  rw [hrest, cut_append (closing_notMem_digits j)] at hcut'
  injection hcut' with hdigits
  have hvalue := congrArg Numeral.value hdigits
  rw [Numeral.value_digits, Numeral.value_digits] at hvalue
  exact ⟨String.toList_inj.mp hname, hvalue.symm⟩

theorem begins_entryName {rest : String} (h : rest.toList.head? = some ']') :
    (entryName list i).toList <+: (list ++ "[" ++ Numeral.text i ++ rest).toList := by
  obtain ⟨cs, hrest⟩ := List.head?_eq_some_iff.mp h
  refine ⟨cs, ?_⟩
  simp only [entryName, String.toList_append, hrest, List.append_assoc]
  rfl

theorem ShapeError.names_notObject : (ShapeError.entryNotObject list i).Names list i := by
  unfold Names message
  exact begins_entryName rfl

theorem ShapeError.names_notPositive {name : String} :
    (ShapeError.notPositive (.entry list i name)).Names list i := by
  unfold Names message ShapePlace.text
  rw [String.toList_append, String.toList_append, List.append_assoc]
  exact (begins_entryName rfl).trans (List.prefix_append _ _)

theorem ShapeError.names_badScaleFactors : (ShapeError.badScaleFactors i).Names "tiles" i := by
  unfold Names message
  exact begins_entryName rfl

/-- A message without brackets names no entry. -/
theorem ShapeError.not_names {e : ShapeError} (h : '[' ∉ e.message.toList) : ¬e.Names list i := by
  intro hnames
  refine h (hnames.subset ?_)
  simp [toList_entryName]

end Names

namespace Shape

variable {ms : Members} {name : String} {e : ShapeError} {v : Json} {i : ℕ}

/-! ### What can be wrong with an entry -/

/-- **What is wrong with an entry of `sizes`**, and the error for it. -/
inductive SizeFault (i : ℕ) (v : Json) : ShapeError → Prop
  | notObject (h : ∀ es, v ≠ .object es) : SizeFault i v (.entryNotObject "sizes" i)
  | member {es : Members} {name : String} (hv : v = .object es) (hname : name ∈ ["width", "height"])
      (h : ¬PositiveAt es name) : SizeFault i v (.notPositive (.entry "sizes" i name))

/-- **What is wrong with an entry of `tiles`**, and the error for it. -/
inductive TileFault (i : ℕ) (v : Json) : ShapeError → Prop
  | notObject (h : ∀ es, v ≠ .object es) : TileFault i v (.entryNotObject "tiles" i)
  | width {es : Members} (hv : v = .object es) (h : ¬PositiveAt es "width") :
      TileFault i v (.notPositive (.entry "tiles" i "width"))
  | height {es : Members} (hv : v = .object es) (h : ¬PositiveIfThere es "height") :
      TileFault i v (.notPositive (.entry "tiles" i "height"))
  | scaleFactors {es : Members} (hv : v = .object es) (h : ¬HasScaleFactors es) :
      TileFault i v (.badScaleFactors i)

theorem mem_checkPositive {place : ShapePlace} :
    e ∈ checkPositive ms name place ↔ e = .notPositive place ∧ ¬PositiveAt ms name := by
  by_cases h : PositiveAt ms name
  · rw [checkPositive_eq_nil.mpr h]
    simp [h]
  · have hnot : ¬(get? ms name).any isPositive = true := fun hany =>
      h (checkPositive_eq_nil.mp (if_pos hany : checkPositive ms name place = []))
    simp [checkPositive, hnot, h]

theorem mem_checkPositiveIfThere {place : ShapePlace} : e ∈ checkPositiveIfThere ms name place ↔
    e = .notPositive place ∧ ¬PositiveIfThere ms name := by
  unfold checkPositiveIfThere PositiveIfThere Json.has
  cases hget : get? ms name with
  | none => simp
  | some v => simp [mem_checkPositive]

theorem mem_checkSize : e ∈ checkSize i v ↔ SizeFault i v e := by
  unfold checkSize
  split
  · rename_i es
    simp only [List.mem_append, mem_checkPositive]
    constructor
    · rintro (⟨rfl, h⟩ | ⟨rfl, h⟩)
      · exact .member rfl (by simp) h
      · exact .member rfl (by simp) h
    · rintro (h | ⟨hv, hname, h⟩)
      · exact absurd rfl (h es)
      · cases hv
        simp only [List.mem_cons, List.not_mem_nil, or_false] at hname
        rcases hname with rfl | rfl
        · exact .inl ⟨rfl, h⟩
        · exact .inr ⟨rfl, h⟩
  · rename_i hnot
    rw [List.mem_singleton]
    constructor
    · rintro rfl
      exact .notObject hnot
    · rintro (h | ⟨hv, -, -⟩)
      · rfl
      · exact absurd hv (hnot _)

theorem mem_checkTile : e ∈ checkTile i v ↔ TileFault i v e := by
  unfold checkTile
  split
  · rename_i es
    have hfactors : areScaleFactors (get? es "scaleFactors") = true ↔ HasScaleFactors es :=
      areScaleFactors_iff
    simp only [List.mem_append, mem_checkPositive, mem_checkPositiveIfThere]
    constructor
    · rintro ((⟨rfl, h⟩ | ⟨rfl, h⟩) | h)
      · exact .width rfl h
      · exact .height rfl h
      · split_ifs at h with hs
        · cases h
        · rw [List.mem_singleton.mp h]
          exact .scaleFactors rfl (mt hfactors.mpr hs)
    · rintro (h | ⟨hv, h⟩ | ⟨hv, h⟩ | ⟨hv, h⟩)
      · exact absurd rfl (h es)
      · cases hv
        exact .inl (.inl ⟨rfl, h⟩)
      · cases hv
        exact .inl (.inr ⟨rfl, h⟩)
      · cases hv
        rw [if_neg (mt hfactors.mp h)]
        exact .inr (List.mem_singleton_self _)
  · rename_i hnot
    rw [List.mem_singleton]
    constructor
    · rintro rfl
      exact .notObject hnot
    · rintro (h | ⟨hv, h⟩ | ⟨hv, h⟩ | ⟨hv, h⟩)
      · rfl
      all_goals exact absurd hv (hnot _)

/-! ### Lists of entries -/

section Lists

variable {check : ℕ → Json → List ShapeError} {vs : List Json} {list : String}

theorem mem_checkEntries (k : ℕ) :
    e ∈ checkEntries check k vs ↔ ∃ i v, vs[i]? = some v ∧ e ∈ check (k + i) v := by
  induction vs generalizing k with
  | nil => simp [checkEntries]
  | cons w vs ih =>
    rw [checkEntries, List.mem_append, ih]
    constructor
    · rintro (h | ⟨i, v, hv, h⟩)
      · exact ⟨0, w, rfl, h⟩
      · exact ⟨i + 1, v, hv, by rwa [← Nat.add_assoc, Nat.add_right_comm]⟩
    · rintro ⟨i, v, hv, h⟩
      cases i with
      | zero =>
        cases hv
        exact .inl h
      | succ i => exact .inr ⟨i, v, hv, by rwa [Nat.add_right_comm, Nat.add_assoc]⟩

theorem mem_checkList (hvs : get? ms name = some (.array vs)) :
    e ∈ checkList ms name check ↔ ∃ i v, vs[i]? = some v ∧ e ∈ check i v := by
  have hgiven : given? ms name = some (.array vs) := given?_eq_some.mpr ⟨hvs, by simp⟩
  rw [checkList, hgiven]
  simp only [mem_checkEntries, Nat.zero_add]

/-- What is no array is an error of its own. -/
theorem mem_checkList_cases (h : e ∈ checkList ms name check) :
    e = .notArray name ∨ ∃ i v, e ∈ check i v := by
  unfold checkList at h
  split at h
  · cases h
  · obtain ⟨i, v, -, he⟩ := (mem_checkEntries 0).mp h
    exact .inr ⟨_, v, he⟩
  · exact .inl (List.mem_singleton.mp h)

/-- A check of entries of which every error names the entry. -/
def NamesEntries (list : String) (check : ℕ → Json → List ShapeError) : Prop :=
  ∀ i v, ∀ e ∈ check i v, e.Names list i

theorem namesEntries_checkSize : NamesEntries "sizes" checkSize := by
  intro i v e he
  cases mem_checkSize.mp he with
  | notObject => exact ShapeError.names_notObject
  | member => exact ShapeError.names_notPositive

theorem namesEntries_checkTile : NamesEntries "tiles" checkTile := by
  intro i v e he
  cases mem_checkTile.mp he with
  | notObject => exact ShapeError.names_notObject
  | width => exact ShapeError.names_notPositive
  | height => exact ShapeError.names_notPositive
  | scaleFactors => exact ShapeError.names_badScaleFactors

/-- **The errors that name an entry** of a list are those that are found in this entry. -/
theorem mem_checkList_and_names (hcheck : NamesEntries list check) (hlist : '[' ∉ list.toList)
    (hvs : get? ms list = some (.array vs)) (hv : vs[i]? = some v) :
    e ∈ checkList ms list check ∧ e.Names list i ↔ e ∈ check i v := by
  rw [mem_checkList hvs]
  constructor
  · rintro ⟨⟨j, w, hw, he⟩, hnames⟩
    obtain ⟨-, rfl⟩ := eq_of_begins hlist hlist hnames (hcheck j w e he)
    rw [hv] at hw
    cases hw
    exact he
  · intro he
    exact ⟨⟨i, v, hv, he⟩, hcheck i v e he⟩

/-- An error in one list names no entry of another one. -/
theorem not_names_of_mem_checkList {list' : String} (hcheck : NamesEntries list check)
    (hlist : '[' ∉ list.toList) (hlist' : '[' ∉ list'.toList) (hne : list' ≠ list)
    (he : e ∈ checkList ms list check) : ¬e.Names list' i := by
  intro hnames
  rcases mem_checkList_cases he with rfl | ⟨j, w, he⟩
  · have hrest : '[' ∉ " must be an array".toList := by decide
    refine ShapeError.not_names ?_ hnames
    unfold ShapeError.message
    rw [String.toList_append, List.mem_append, not_or]
    exact ⟨hlist, hrest⟩
  · exact hne (eq_of_begins hlist' hlist hnames (hcheck j w e he)).1

end Lists

/-! ### Errors outside the lists -/

/-- **The errors that are found outside the lists of entries.** -/
def documentErrors : List ShapeError :=
  [.contextMissing, .contextWrong, .contextLacking, .contextNotLast, .contextKind, .idMissing,
   .idNotHttp, .typeMissing, .typeWrong, .protocolMissing, .protocolWrong, .profileMissing,
   .profileUnknown, .notPositive (.document "width"), .notPositive (.document "height"),
   .notPositive (.document "maxWidth"), .notPositive (.document "maxHeight"),
   .notPositive (.document "maxArea"), .notArray "extraFeatures", .notArray "extraFormats",
   .notArray "extraQualities", .upscalingWithoutLimit]

theorem not_names_of_mem_documentErrors {list : String} (h : e ∈ documentErrors) :
    ¬e.Names list i := by
  have hplain : ∀ e ∈ documentErrors, '[' ∉ e.message.toList := by decide +kernel
  exact ShapeError.not_names (hplain e h)

theorem checkContext_subset : checkContext ms ⊆ documentErrors := by
  unfold checkContext
  split
  · decide
  · split_ifs <;> decide
  · split_ifs <;> decide
  · decide

theorem checkId_subset {id : ShapeReport} (h : checkId ms = .ok id) :
    id.errors ⊆ documentErrors := by
  rcases checkId_cases h with rfl | rfl | rfl | rfl <;> decide

theorem checkConstant_subset {value : String} {missing wrong : ShapeError}
    (hmissing : missing ∈ documentErrors) (hwrong : wrong ∈ documentErrors) :
    checkConstant ms name value missing wrong ⊆ documentErrors := by
  unfold checkConstant
  split
  · simpa using hmissing
  · split_ifs
    · simp
    · simpa using hwrong

theorem checkProfile_subset : checkProfile ms ⊆ documentErrors := by
  unfold checkProfile
  split
  · decide
  · split_ifs <;> decide
  · decide

theorem checkPositive_subset {place : ShapePlace} (h : .notPositive place ∈ documentErrors) :
    checkPositive ms name place ⊆ documentErrors := fun _ he =>
  (mem_checkPositive.mp he).1 ▸ h

theorem checkPositiveIfThere_subset {place : ShapePlace} (h : .notPositive place ∈ documentErrors) :
    checkPositiveIfThere ms name place ⊆ documentErrors := fun _ he =>
  (mem_checkPositiveIfThere.mp he).1 ▸ h

theorem checkTerms_subset {α : Type} [Vocabulary α] (h : .notArray name ∈ documentErrors) :
    (checkTerms α name v).errors ⊆ documentErrors := by
  unfold checkTerms
  split
  · simp
  · simpa using h

theorem checkFeatures_subset : (checkFeatures ms).errors ⊆ documentErrors := by
  unfold checkFeatures
  split
  · simp
  · rw [Report.errors_append, List.append_subset]
    refine ⟨checkTerms_subset (by decide), ?_⟩
    unfold checkUpscaling
    split
    · split_ifs <;> decide
    · simp

theorem checkExtras_subset {α : Type} [Vocabulary α] (h : .notArray name ∈ documentErrors) :
    (checkExtras α ms name).errors ⊆ documentErrors := by
  unfold checkExtras
  split
  · simp
  · exact checkTerms_subset h

variable {r : ShapeReport}

/-- **An error** is found in one of the two lists of entries or outside them. -/
theorem mem_errors_cases (h : checkMembers ms = .ok r) (he : e ∈ r.errors) :
    e ∈ checkList ms "sizes" checkSize ∨ e ∈ checkList ms "tiles" checkTile ∨
      e ∈ documentErrors := by
  obtain ⟨id, hid, herrors⟩ := errors_of_checkMembers h
  rw [herrors] at he
  simp only [List.mem_append, or_assoc] at he
  rcases he with he | he | he | he | he | he | he | he | he | he | he | he | he | he | he
  · exact .inr (.inr (checkContext_subset he))
  · exact .inr (.inr (checkId_subset hid he))
  · exact .inr (.inr (checkConstant_subset (by decide) (by decide) he))
  · exact .inr (.inr (checkConstant_subset (by decide) (by decide) he))
  · exact .inr (.inr (checkProfile_subset he))
  · exact .inr (.inr (checkPositive_subset (by decide) he))
  · exact .inr (.inr (checkPositive_subset (by decide) he))
  · exact .inr (.inr (checkPositiveIfThere_subset (by decide) he))
  · exact .inr (.inr (checkPositiveIfThere_subset (by decide) he))
  · exact .inr (.inr (checkPositiveIfThere_subset (by decide) he))
  · exact .inl he
  · exact .inr (.inl he)
  · exact .inr (.inr (checkFeatures_subset he))
  · exact .inr (.inr (checkExtras_subset (by decide) he))
  · exact .inr (.inr (checkExtras_subset (by decide) he))

theorem mem_errors_of_mem_entries (h : checkMembers ms = .ok r)
    (he : e ∈ checkList ms "sizes" checkSize ∨ e ∈ checkList ms "tiles" checkTile) :
    e ∈ r.errors := by
  obtain ⟨id, -, herrors⟩ := errors_of_checkMembers h
  rw [herrors]
  simp only [List.mem_append]
  tauto

/-! ### Documents -/

section Documents

variable {vs : List Json}

/-- **What is found in an entry of `sizes`**: all that is wrong with it, and nothing else. -/
theorem mem_errors_sizes (h : checkMembers ms = .ok r)
    (hvs : get? ms "sizes" = some (.array vs)) (hv : vs[i]? = some v) :
    e ∈ r.errors ∧ e.Names "sizes" i ↔ SizeFault i v e := by
  rw [← mem_checkSize,
    ← mem_checkList_and_names namesEntries_checkSize (by decide) hvs hv]
  refine and_congr_left fun hnames => ⟨fun he => ?_, fun he => ?_⟩
  · rcases mem_errors_cases h he with he | he | he
    · exact he
    · exact absurd hnames
        (not_names_of_mem_checkList namesEntries_checkTile (by decide) (by decide) (by decide) he)
    · exact absurd hnames (not_names_of_mem_documentErrors he)
  · exact mem_errors_of_mem_entries h (.inl he)

/-- **What is found in an entry of `tiles`** likewise. -/
theorem mem_errors_tiles (h : checkMembers ms = .ok r)
    (hvs : get? ms "tiles" = some (.array vs)) (hv : vs[i]? = some v) :
    e ∈ r.errors ∧ e.Names "tiles" i ↔ TileFault i v e := by
  rw [← mem_checkTile,
    ← mem_checkList_and_names namesEntries_checkTile (by decide) hvs hv]
  refine and_congr_left fun hnames => ⟨fun he => ?_, fun he => ?_⟩
  · rcases mem_errors_cases h he with he | he | he
    · exact absurd hnames
        (not_names_of_mem_checkList namesEntries_checkSize (by decide) (by decide) (by decide) he)
    · exact he
    · exact absurd hnames (not_names_of_mem_documentErrors he)
  · exact mem_errors_of_mem_entries h (.inr he)

/-- An entry is one of `sizes` unless something is wrong with it. -/
theorem exists_sizeFault_iff : (∃ e, SizeFault i v e) ↔ ¬IsSize v := by
  have hnil : checkSize i v = [] ↔ IsSize v := checkSize_eq_nil
  rw [← hnil, List.eq_nil_iff_forall_not_mem]
  simp only [mem_checkSize, not_forall, not_not]

theorem exists_tileFault_iff : (∃ e, TileFault i v e) ↔ ¬IsTile v := by
  rw [← checkTile_eq_nil_iff (i := i), List.eq_nil_iff_forall_not_mem]
  simp only [mem_checkTile, not_forall, not_not]

/-- **Which documents are valid**, and what is found in their entries. If the authority of the id
can be told, the check answers; it answers valid exactly if the document is proper; and the errors
that name an entry of `sizes` or `tiles` are exactly those for what is wrong with this entry, so
that there are some exactly if it is none. -/
theorem exists_check_iff_proper (ms : Members)
    (hid : ∀ s, get? ms "id" = some (.text s) → Uri.Readable s) :
    ∃ r, check (.object ms) = .ok r ∧ (r.valid = true ↔ Proper ms) ∧
      (∀ vs i v, get? ms "sizes" = some (.array vs) → vs[i]? = some v →
        (∀ e, e ∈ r.errors ∧ e.Names "sizes" i ↔ SizeFault i v e) ∧
        ((∃ e ∈ r.errors, e.Names "sizes" i) ↔ ¬IsSize v)) ∧
      (∀ vs i v, get? ms "tiles" = some (.array vs) → vs[i]? = some v →
        (∀ e, e ∈ r.errors ∧ e.Names "tiles" i ↔ TileFault i v e) ∧
        ((∃ e ∈ r.errors, e.Names "tiles" i) ↔ ¬IsTile v)) := by
  obtain ⟨r, hr⟩ := exists_checkMembers_iff.mpr (exists_checkId_iff.mpr hid)
  refine ⟨r, hr, List.isEmpty_iff.trans (errors_eq_nil_iff hr), fun vs i v hvs hv => ?_,
    fun vs i v hvs hv => ?_⟩
  · have hfault := fun e => mem_errors_sizes (e := e) hr hvs hv
    exact ⟨hfault, (exists_congr hfault).trans exists_sizeFault_iff⟩
  · have hfault := fun e => mem_errors_tiles (e := e) hr hvs hv
    exact ⟨hfault, (exists_congr hfault).trans exists_tileFault_iff⟩

/-- A document with a truth value for a width, a size that is no object, and a layout of tiles with
neither a positive height nor scale factors. -/
def faultyMembers : Members :=
  [("@context", .text imageContext), ("id", .text "https://example.org/iiif/1"),
   ("type", .text imageServiceType), ("protocol", .text imageProtocol),
   ("profile", .text "level2"), ("width", .bool true), ("height", .int 3000),
   ("sizes", .array [.object [("width", .int 400), ("height", .int 300)], .int 7]),
   ("tiles", .array [.object [("width", .int 256), ("height", .null)]])]

theorem exists_check_iff_proper_of_faulty : ∃ r, check (.object faultyMembers) = .ok r ∧
    r.valid = false ∧ (¬∃ e ∈ r.errors, e.Names "sizes" 0) ∧
    .entryNotObject "sizes" 1 ∈ r.errors ∧
    .notPositive (.entry "tiles" 0 "height") ∈ r.errors ∧ .badScaleFactors 0 ∈ r.errors := by
  have hid : ∀ s, get? faultyMembers "id" = some (.text s) → Uri.Readable s := by
    rintro s ⟨⟩
    exact Uri.exists_hasHttpAuthority_iff.mp ⟨true, by decide +kernel⟩
  obtain ⟨r, hr, hvalid, hsizes, htiles⟩ := exists_check_iff_proper faultyMembers hid
  have hsize : IsSize (.object [("width", .int 400), ("height", .int 300)]) :=
    ⟨_, rfl, ⟨400, rfl, by decide⟩, ⟨300, rfl, by decide⟩⟩
  have hheight : ¬PositiveIfThere [("width", .int 256), ("height", .null)] "height" := by
    rintro (⟨⟨⟩⟩ | ⟨n, ⟨⟩, -⟩)
  have hfactors : ¬HasScaleFactors [("width", .int 256), ("height", .null)] := by
    rintro ⟨vs, ⟨⟩, -⟩
  refine ⟨r, hr, ?_, ?_, ?_, ?_, ?_⟩
  · rw [← Bool.not_eq_true, hvalid]
    intro hproper
    obtain ⟨n, hn, -⟩ := hproper.width
    cases hn
  · rw [(hsizes _ 0 _ rfl rfl).2]
    exact not_not.mpr hsize
  · exact (((hsizes _ 1 _ rfl rfl).1 _).mpr (.notObject (by simp))).1
  · exact (((htiles _ 0 _ rfl rfl).1 _).mpr (.height rfl hheight)).1
  · exact (((htiles _ 0 _ rfl rfl).1 _).mpr (.scaleFactors rfl hfactors)).1

end Documents

end Shape

end IiifRules
