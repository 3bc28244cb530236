import Mathlib
import IiifRules.Descriptor.Writer
import IiifRules.Json.Writer

/-! # Members of objects as they are written

Which value is found under a name in members that are put together from several lists, and what
writing members as standard JSON leaves of them.

* `get?_present`: the value under a name among those of a list that are there.
* `get?_foldl_put_of_mem`, `get?_foldl_put_of_forall_ne`: the value under a name after others are
  put.
* `Same`: the same value, whatever the order of members.
* `standard_standard`: a value written as standard JSON stays as it is.
* `levels_standard`: it is as deep as before.
* `givenMembers_of_written`: so do members, unless one of them is a number that is not finite. -/

namespace IiifRules

namespace Json

variable {ms ns : Members} {name : String} {v : Json}

/-! ### Looking up -/

theorem get?_append : get? (ms ++ ns) name = (get? ms name).or (get? ns name) :=
  List.lookup_append

theorem get?_eq_none_iff : get? ms name = none ↔ ∀ m ∈ ms, m.1 ≠ name := by
  unfold get?
  rw [List.lookup_eq_none_iff]
  exact forall₂_congr fun m _ => by rw [bne_iff_ne, ne_comm]

theorem has_eq_false_iff : has ms name = false ↔ ∀ m ∈ ms, m.1 ≠ name := by
  rw [← get?_eq_none_iff, has, Option.isSome_eq_false_iff, Option.isNone_iff_eq_none]

theorem has_iff : has ms name = true ↔ ∃ m ∈ ms, m.1 = name := by
  rw [← Bool.not_eq_false, has_eq_false_iff]
  simp

theorem mem_of_get? (h : get? ms name = some v) : (name, v) ∈ ms := by
  obtain ⟨before, after, rfl, -⟩ := List.lookup_eq_some_iff.mp h
  simp

theorem get?_filter {p : String → Bool} (h : p name = true) :
    get? (ms.filter fun m => p m.1) name = get? ms name := by
  induction ms with
  | nil => rfl
  | cons m ms ih =>
    obtain ⟨n, v⟩ := m
    unfold get? at ih ⊢
    by_cases hn : name = n
    · subst hn
      simp [h]
    · cases hp : p n <;> simp [hp, List.lookup_cons, beq_eq_false_iff_ne.mpr hn, ih]

/-- The members of a list of names of which not each has a value. -/
def present (fs : List (String × Option Json)) : Members :=
  fs.filterMap fun f => f.2.map fun v => (f.1, v)

theorem mem_present {fs : List (String × Option Json)} {m : String × Json} :
    m ∈ present fs ↔ (m.1, some m.2) ∈ fs := by
  unfold present
  rw [List.mem_filterMap]
  constructor
  · rintro ⟨⟨n, _ | v⟩, hf, hm⟩
    · cases hm
    · cases hm
      exact hf
  · intro h
    exact ⟨_, h, rfl⟩

@[simp]
theorem present_append (fs gs : List (String × Option Json)) :
    present (fs ++ gs) = present fs ++ present gs :=
  List.filterMap_append

/-- **The value under a name** among those that are there, if no name is given twice. -/
theorem get?_present {fs : List (String × Option Json)} (h : (fs.map Prod.fst).Nodup) :
    get? (present fs) name = (fs.lookup name).join := by
  induction fs with
  | nil => rfl
  | cons f fs ih =>
    obtain ⟨n, v?⟩ := f
    obtain ⟨hn, hfs⟩ := List.nodup_cons.mp h
    have hcons : present ((n, v?) :: fs) = present [(n, v?)] ++ present fs := present_append [_] fs
    rw [hcons, get?_append, ih hfs, List.lookup_cons]
    by_cases heq : name = n
    · subst heq
      have hnone : fs.lookup name = none := by
        rw [List.lookup_eq_none_iff]
        intro f hf
        rw [bne_iff_ne]
        rintro rfl
        exact hn (List.mem_map.mpr ⟨f, hf, rfl⟩)
      cases v? <;> simp [present, get?, hnone]
    · cases v? <;> simp [present, get?, List.lookup_cons, beq_eq_false_iff_ne.mpr heq]

/-- A value unless it is an empty array. -/
def unlessEmpty (v : Json) : Option Json := if v.isEmptyArray then none else some v

theorem unlessEmpty_array (vs : List Json) :
    unlessEmpty (.array vs) = if vs = [] then none else some (.array vs) := by
  cases vs <;> rfl

theorem isEmptyArray_eq_false_iff : v.isEmptyArray = false ↔ v ≠ .array [] := by
  cases v with
  | array vs => cases vs <;> simp [isEmptyArray]
  | _ => simp [isEmptyArray]

theorem unlessEmpty_of_ne (h : v ≠ .array []) : v.unlessEmpty = some v := by
  rw [unlessEmpty, isEmptyArray_eq_false_iff.mpr h]
  rfl

theorem filter_present (fs : List (String × Option Json)) :
    (present fs).filter (fun m => !m.2.isEmptyArray) =
      present (fs.map fun f => (f.1, f.2.bind unlessEmpty)) := by
  induction fs with
  | nil => rfl
  | cons f fs ih =>
    obtain ⟨n, _ | v⟩ := f
    · simpa [present] using ih
    · cases hv : v.isEmptyArray <;> simpa [present, unlessEmpty, hv] using ih

/-! ### Putting members -/

section

variable {α : Type} {f : α → Json} {es : List (String × α)} {n : String}

theorem get?_put : get? (put ms n v) name = if name = n then some v else get? ms name := by
  by_cases h : name = n
  · rw [if_pos h, h, get?_put_self]
  · rw [if_neg h]
    induction ms with
    | nil => simp [put, get?, List.lookup_cons, beq_eq_false_iff_ne.mpr h]
    | cons m ms ih =>
      obtain ⟨n', w⟩ := m
      unfold put
      unfold get? at ih ⊢
      split_ifs with hn
      · rw [List.lookup_cons, List.lookup_cons, beq_eq_false_iff_ne.mpr (hn ▸ h)]
      · rw [List.lookup_cons, List.lookup_cons, ih]

theorem map_fst_put : (put ms n v).map Prod.fst =
    if n ∈ ms.map Prod.fst then ms.map Prod.fst else ms.map Prod.fst ++ [n] := by
  induction ms with
  | nil => rfl
  | cons m ms ih =>
    obtain ⟨n', w⟩ := m
    unfold put
    by_cases hn : n' = n
    · simp [hn]
    · rw [if_neg hn, List.map_cons, ih]
      by_cases hmem : n ∈ ms.map Prod.fst
      · rw [if_pos hmem, if_pos (by simp [hmem])]
        rfl
      · rw [if_neg hmem, if_neg (by simpa [Ne.symm hn] using hmem)]
        rfl

theorem nodup_put (h : (ms.map Prod.fst).Nodup) : ((put ms n v).map Prod.fst).Nodup := by
  rw [map_fst_put]
  split_ifs with hn
  · exact h
  · exact List.Nodup.append h (List.nodup_singleton n) (by simpa using hn)

theorem mem_put {m : String × Json} (h : m ∈ put ms n v) : m ∈ ms ∨ m = (n, v) := by
  induction ms with
  | nil => exact Or.inr (List.mem_singleton.mp h)
  | cons m' ms ih =>
    obtain ⟨n', w⟩ := m'
    unfold put at h
    split_ifs at h with hn
    · rcases List.mem_cons.mp h with rfl | h
      · exact Or.inr (by rw [hn])
      · exact Or.inl (List.mem_cons_of_mem _ h)
    · rcases List.mem_cons.mp h with rfl | h
      · exact Or.inl List.mem_cons_self
      · exact (ih h).imp_left (List.mem_cons_of_mem _)

/-- A name that is put nowhere keeps its value. -/
theorem get?_foldl_put_of_forall_ne (h : ∀ e ∈ es, e.1 ≠ name) :
    get? (es.foldl (fun ms e => put ms e.1 (f e.2)) ms) name = get? ms name := by
  induction es generalizing ms with
  | nil => rfl
  | cons e es ih =>
    rw [List.foldl_cons, ih fun e' he' => h e' (List.mem_cons_of_mem _ he'), get?_put,
      if_neg (h e List.mem_cons_self).symm]

/-- **A value that is put** is found under its name, if no name is put twice. -/
theorem get?_foldl_put_of_mem (hes : (es.map Prod.fst).Nodup) {e : String × α} (he : e ∈ es) :
    get? (es.foldl (fun ms e => put ms e.1 (f e.2)) ms) e.1 = some (f e.2) := by
  induction es generalizing ms with
  | nil => cases he
  | cons e' es ih =>
    obtain ⟨hnot, hes⟩ := List.nodup_cons.mp hes
    rw [List.foldl_cons]
    rcases List.mem_cons.mp he with rfl | he
    · have hne : ∀ e' ∈ es, e'.1 ≠ e.1 := fun e' he' heq =>
        hnot (List.mem_map.mpr ⟨e', he', heq⟩)
      rw [get?_foldl_put_of_forall_ne hne, get?_put_self]
    · exact ih hes he

theorem mem_foldl_put {m : String × Json}
    (h : m ∈ es.foldl (fun ms e => put ms e.1 (f e.2)) ms) :
    m ∈ ms ∨ ∃ e ∈ es, m = (e.1, f e.2) := by
  induction es generalizing ms with
  | nil => exact Or.inl h
  | cons e es ih =>
    rcases ih h with h | ⟨e', he', rfl⟩
    · exact (mem_put h).imp_right fun h => ⟨e, List.mem_cons_self, h⟩
    · exact Or.inr ⟨e', List.mem_cons_of_mem _ he', rfl⟩

theorem nodup_foldl_put (h : (ms.map Prod.fst).Nodup) :
    ((es.foldl (fun ms e => put ms e.1 (f e.2)) ms).map Prod.fst).Nodup := by
  induction es generalizing ms with
  | nil => exact h
  | cons e es ih => exact ih (nodup_put h)

end

theorem writable_object_iff : (object ms).writable = true ↔ ∀ m ∈ ms, m.2.writable = true := by
  rw [writable]
  induction ms with
  | nil => simp [writableMembers]
  | cons m ms ih => simp [writableMembers, ih]

/-! ### The same value -/

/-- **The same JSON value**, whatever the order of the members of its objects. -/
inductive Same : Json → Json → Prop
  | refl (v : Json) : Same v v
  | array {vs ws : List Json} : List.Forall₂ Same vs ws → Same (.array vs) (.array ws)
  | object {ms ns : Members} : (∀ name, Option.Rel Same (get? ms name) (get? ns name)) →
      Same (.object ms) (.object ns)

theorem Same.rel_of_eq {u? v? w? : Option Json} (hv : v? = u?) (hw : w? = u?) :
    Option.Rel Same v? w? := by
  subst hv hw
  cases w? with
  | none => exact .none
  | some w => exact .some (.refl w)

/-- A member of an object is found in the same one. -/
theorem Same.exists_get? {w : Json} (h : Same (.object ms) (.object ns))
    (hw : get? ns name = some w) : ∃ v, get? ms name = some v ∧ Same v w := by
  cases h with
  | refl => exact ⟨w, hw, .refl w⟩
  | object h =>
    have hrel := h name
    rw [hw] at hrel
    cases hv : get? ms name with
    | none => rw [hv] at hrel; cases hrel
    | some v =>
      rw [hv] at hrel
      cases hrel with
      | some hsame => exact ⟨v, rfl, hsame⟩

/-! ### Standard JSON -/

theorem standardItems_eq_map (vs : List Json) : standardItems vs = vs.map standard := by
  induction vs with
  | nil => simp [standardItems]
  | cons v vs ih => simp [standardItems, ih]

theorem standardMembers_eq_map (ms : Members) :
    standardMembers ms = ms.map fun m => (m.1, standard m.2) := by
  induction ms with
  | nil => simp [standardMembers]
  | cons m ms ih => simp [standardMembers, ih]

theorem get?_standardMembers : get? (standardMembers ms) name = (get? ms name).map standard := by
  rw [standardMembers_eq_map]
  unfold get?
  induction ms with
  | nil => rfl
  | cons m ms ih =>
    rw [List.map_cons, List.lookup_cons, List.lookup_cons, ih]
    cases name == m.1 <;> rfl

mutual

/-- **A value written as standard JSON** stays as it is. -/
theorem standard_standard : ∀ v : Json, standard (standard v) = standard v
  | .null => by simp [standard]
  | .bool _ => by simp [standard]
  | .int _ => by simp [standard]
  | .float .nan => by simp [standard]
  | .float (.infinite _) => by simp [standard]
  | .float (.finite ..) => by simp [standard]
  | .text _ => by simp [standard]
  | .array vs => by simp [standard, standardItems_standardItems vs]
  | .object ms => by simp [standard, standardMembers_standardMembers ms]

theorem standardItems_standardItems :
    ∀ vs : List Json, standardItems (standardItems vs) = standardItems vs
  | [] => by simp [standardItems]
  | v :: vs => by simp [standardItems, standard_standard v, standardItems_standardItems vs]

theorem standardMembers_standardMembers :
    ∀ ms : Members, standardMembers (standardMembers ms) = standardMembers ms
  | [] => by simp [standardMembers]
  | (_, v) :: ms => by
    simp [standardMembers, standard_standard v, standardMembers_standardMembers ms]

end

mutual

/-- **A value written as standard JSON** is as deep as before. -/
theorem levels_standard : ∀ v : Json, (standard v).levels = v.levels
  | .null => by simp [standard]
  | .bool _ => by simp [standard]
  | .int _ => by simp [standard]
  | .float .nan => by simp [standard, levels]
  | .float (.infinite _) => by simp [standard, levels]
  | .float (.finite ..) => by simp [standard]
  | .text _ => by simp [standard]
  | .array vs => by simp [standard, levels, levels_standardItems vs]
  | .object ms => by simp [standard, levels, levels_standardMembers ms]

theorem levels_standardItems : ∀ vs : List Json, levelsOfItems (standardItems vs) = levelsOfItems vs
  | [] => by simp [standardItems]
  | v :: vs => by simp [standardItems, levelsOfItems, levels_standard v, levels_standardItems vs]

theorem levels_standardMembers :
    ∀ ms : Members, levelsOfMembers (standardMembers ms) = levelsOfMembers ms
  | [] => by simp [standardMembers]
  | (_, v) :: ms => by
    simp [standardMembers, levelsOfMembers, levels_standard v, levels_standardMembers ms]

end

theorem levels_lt_of_mem {m : String × Json} (h : m ∈ ms) : m.2.levels < (object ms).levels := by
  rw [levels, Nat.lt_succ_iff]
  induction ms with
  | nil => cases h
  | cons m' ms ih =>
    rw [levelsOfMembers, le_max_iff]
    rcases List.mem_cons.mp h with rfl | h
    · exact Or.inl le_rfl
    · exact Or.inr (ih h)

/-- **A value of standard JSON**: no number in it is other than finite. -/
def IsStandard (v : Json) : Prop := standard v = v

theorem isStandard_int (n : ℤ) : (int n).IsStandard := by
  rw [IsStandard, standard] <;> simp

theorem isStandard_text (s : String) : (text s).IsStandard := by
  rw [IsStandard, standard] <;> simp

/-- The same value that is standard JSON. -/
theorem Same.rel_standard {u? v? w? : Option Json} (hv : v? = u?) (hw : w? = u?)
    (hu : ∀ u ∈ u?, u.IsStandard) : Option.Rel Same v? (w?.map standard) := by
  refine rel_of_eq hv ?_
  subst hw
  cases w? with
  | none => rfl
  | some w => exact congrArg some (hu w rfl)

theorem isStandard_array_iff {vs : List Json} :
    (array vs).IsStandard ↔ ∀ v ∈ vs, v.IsStandard := by
  unfold IsStandard
  rw [standard, standardItems_eq_map, Json.array.injEq]
  conv_lhs => rw [← List.map_id vs, List.map_map, List.map_inj_left]
  rfl

theorem isStandard_object_iff : (object ms).IsStandard ↔ ∀ m ∈ ms, m.2.IsStandard := by
  unfold IsStandard
  rw [standard, standardMembers_eq_map, Json.object.injEq]
  conv_lhs => rw [← List.map_id ms, List.map_map, List.map_inj_left]
  simp [Prod.ext_iff]

/-- Whether a value is a number that is not finite, for which standard JSON has null. -/
def isNonFinite : Json → Bool
  | .float .nan => true
  | .float (.infinite _) => true
  | _ => false

theorem IsStandard.isNonFinite (h : v.IsStandard) : v.isNonFinite = false := by
  unfold IsStandard at h
  cases v with
  | float x => cases x <;> simp_all [standard, isNonFinite]
  | _ => rfl

theorem isNull_eq_false_iff : v.isNull = false ↔ v ≠ .null := by
  cases v <;> simp [isNull]

theorem isNull_standard : ∀ v : Json, (standard v).isNull = (v.isNull || v.isNonFinite)
  | .null => by simp [standard, isNull]
  | .bool _ => by simp [standard, isNull, isNonFinite]
  | .int _ => by simp [standard, isNull, isNonFinite]
  | .float .nan => by simp [standard, isNull, isNonFinite]
  | .float (.infinite _) => by simp [standard, isNull, isNonFinite]
  | .float (.finite ..) => by simp [standard, isNull, isNonFinite]
  | .text _ => by simp [standard, isNull, isNonFinite]
  | .array _ => by simp [standard, isNull, isNonFinite]
  | .object _ => by simp [standard, isNull, isNonFinite]

theorem isEmptyArray_standard (v : Json) : (standard v).isEmptyArray = v.isEmptyArray := by
  cases v with
  | float x => cases x <;> simp [standard, isEmptyArray]
  | array vs => cases vs <;> simp [standard, standardItems, isEmptyArray]
  | _ => simp [standard, isEmptyArray]

end Json

/-! ### Members that are given -/

open Json

variable {ms : Members} {m : String × Json} {name : String}

theorem mem_givenMembers :
    m ∈ givenMembers ms ↔ ∃ m' ∈ ms, m'.2.isNull = false ∧ (m'.1, standard m'.2) = m := by
  simp [givenMembers, standardMembers_eq_map, and_assoc]

theorem givenMembers_eq_self (hstandard : standardMembers ms = ms)
    (hgiven : ∀ m ∈ ms, m.2.isNull = false) : givenMembers ms = ms := by
  unfold givenMembers
  rw [List.filter_eq_self.mpr fun m hm => by simp [hgiven m hm], hstandard]

/-- **Members that were written** are written again as they are, whichever of them are kept, unless
one has become null. -/
theorem givenMembers_of_written {ns : Members} (hns : ∀ m ∈ ns, m ∈ givenMembers ms)
    (h : ∀ m ∈ ms, m.2.isNonFinite = false) : givenMembers ns = ns := by
  apply givenMembers_eq_self
  · rw [standardMembers_eq_map]
    conv_rhs => rw [← List.map_id ns]
    refine List.map_congr_left fun m hm => ?_
    obtain ⟨m', -, -, rfl⟩ := mem_givenMembers.mp (hns m hm)
    rw [standard_standard]
    rfl
  · intro m hm
    obtain ⟨m', hm', hnull, rfl⟩ := mem_givenMembers.mp (hns m hm)
    rw [isNull_standard, hnull, h m' hm']
    rfl

end IiifRules
