import Mathlib
import IiifRules.Proofs.Behavior.Sets

/-! # What a resource inherits

A resource is offered behaviors by its parent, one after the other, and adopts one if its list has no
member of the same disjoint set yet. So for each set it ends with its own members, or else with the
first one that it is offered (`DisjointSet.chosen`).

* `map_inherited_filter_of_passes`, `map_inherited_filter`: the members of a set that passes, or that
  is for the type of the resource, are all offered.
* `filter_foldl_adopt`: what the list holds of a set after the offers.
* `effective_extends_own`: inheritance adds to a list of behaviors and leaves its conflicts as they
  are.
* `foldl_adopt_eq_self`: a list that has no use for any of the offers keeps to itself.
* `effective_effective`: inheriting twice is inheriting once. -/

namespace IiifRules

variable {child parent : String} {own tokens : List String} {s : DisjointSet} {b : Behavior}

/-! ### What is offered -/

/-- What a resource is offered under a rule. -/
theorem inherited_eq_distinct {r : InheritanceRule}
    (hr : InheritanceRule.find? child parent = some r) (hinherits : r.inherits = true)
    (tokens : List String) : inherited child parent tokens =
      distinct ((tokens.filterMap Behavior.ofToken?).filter (r.passes child)) := by
  unfold inherited
  rw [hr]
  exact if_pos hinherits

theorem exists_inherited (h : InheritanceRule.inheritsFrom child parent = true) :
    ∃ r, InheritanceRule.find? child parent = some r ∧ ∀ tokens, inherited child parent tokens =
      distinct ((tokens.filterMap Behavior.ofToken?).filter (r.passes child)) := by
  obtain ⟨r, hr, hinherits⟩ := (Option.any_eq_true _ _).mp h
  exact ⟨r, hr, inherited_eq_distinct hr hinherits⟩

theorem inherited_eq_nil (h : InheritanceRule.inheritsFrom child parent = false) :
    inherited child parent tokens = [] := by
  unfold InheritanceRule.inheritsFrom at h
  unfold inherited
  cases hfind : InheritanceRule.find? child parent with
  | none => rfl
  | some r =>
    rw [hfind] at h
    exact if_neg (by simpa using h)

theorem nodup_inherited (child parent : String) (tokens : List String) :
    (inherited child parent tokens).Nodup := by
  cases h : InheritanceRule.inheritsFrom child parent with
  | false =>
    rw [inherited_eq_nil h]
    exact List.nodup_nil
  | true =>
    obtain ⟨r, -, hr⟩ := exists_inherited h
    rw [hr]
    exact nodup_distinct _

/-- **The members of a set that passes as a whole** are all offered, in the order of the parent. -/
theorem map_inherited_filter_of_passes {r : InheritanceRule}
    (hr : InheritanceRule.find? child parent = some r) (hinherits : r.inherits = true)
    (hs : ∀ b ∈ s.members, r.passes child b = true) :
    ((inherited child parent tokens).map Behavior.name).filter s.holds =
      distinct (tokens.filter s.holds) := by
  rw [inherited_eq_distinct hr hinherits, map_distinct Behavior.name_injective, filter_distinct,
    List.filter_map, List.filter_filter, List.filter_filterMap, List.map_filterMap,
    ← List.filterMap_eq_filter]
  congr 1
  refine List.filterMap_congr fun token _ => ?_
  cases htoken : Behavior.ofToken? token with
  | none =>
    have hnot : ¬s.holds token = true := by
      rintro hmem
      obtain ⟨b, -, rfl⟩ := DisjointSet.holds_iff.mp hmem
      rw [Behavior.ofToken?_name] at htoken
      cases htoken
    simp [Option.guard, hnot]
  | some b =>
    obtain rfl := Behavior.ofToken?_eq_some.mp htoken
    by_cases hb : b ∈ s.members
    · simp [Option.filter, Option.guard, DisjointSet.holds_name.mpr hb, hs b hb]
    · have hnot : ¬s.holds b.name = true := fun h => hb (DisjointSet.holds_name.mp h)
      simp [Option.filter, Option.guard, hnot]

/-- **The members of a set for the type of the resource** are all offered. -/
theorem map_inherited_filter (h : InheritanceRule.inheritsFrom child parent = true)
    (hs : ∀ b ∈ s.members, b.isFor child = true) :
    ((inherited child parent tokens).map Behavior.name).filter s.holds =
      distinct (tokens.filter s.holds) := by
  obtain ⟨r, hr, hinherits⟩ := (Option.any_eq_true _ _).mp h
  refine map_inherited_filter_of_passes hr hinherits fun b hb => ?_
  unfold InheritanceRule.passes
  rw [hs b hb, Bool.true_or]

/-! ### What is adopted -/

/-- A list keeps to itself or takes the behavior at its end. -/
theorem adopt_cases (own : List String) (b : Behavior) :
    adopt own b = own ∨ adopt own b = own ++ [b.name] ∧ b.name ∉ own := by
  unfold adopt
  split
  · split_ifs with h
    · exact Or.inl rfl
    · exact Or.inr ⟨rfl, by simpa using h⟩
  · next s hs =>
    split_ifs with h
    · exact Or.inl rfl
    · refine Or.inr ⟨rfl, fun hmem => h ?_⟩
      exact List.any_eq_true.mpr ⟨b.name, hmem, (DisjointSet.ofToken?_eq_some.mp hs).2⟩

/-- **What is adopted** comes at the end of the list, in the order of the offers. -/
theorem foldl_adopt (bs : List Behavior) (own : List String) :
    ∃ added, bs.foldl adopt own = own ++ added ∧ added.Sublist (bs.map Behavior.name) ∧
      ∀ t ∈ added, t ∉ own := by
  induction bs generalizing own with
  | nil => exact ⟨[], by simp, by simp, by simp⟩
  | cons b bs ih =>
    obtain ⟨added, hadded, hsub, hnew⟩ := ih (adopt own b)
    rw [List.foldl_cons, hadded, List.map_cons]
    rcases adopt_cases own b with h | ⟨h, hb⟩
    · rw [h] at hnew ⊢
      exact ⟨added, rfl, hsub.cons _, hnew⟩
    · rw [h] at hnew ⊢
      refine ⟨b.name :: added, by simp, hsub.cons_cons _, ?_⟩
      intro t ht hmem
      rcases List.mem_cons.mp ht with rfl | ht
      · exact hb hmem
      · exact hnew t ht (by simp [hmem])

/-- **The members of a set that a list ends with**: its own, or else the first one offered. -/
def DisjointSet.chosen (s : DisjointSet) (own : List String) (first? : Option String) :
    List String :=
  if own.any s.holds then own.filter s.holds else first?.toList

theorem DisjointSet.chosen_of_filter {members : List String} {first? : Option String}
    (h : own.filter s.holds = members) :
    s.chosen own first? = if members = [] then first?.toList else members := by
  subst h
  unfold chosen
  by_cases hany : own.any s.holds = true
  · rw [if_pos hany, if_neg (by simpa using hany)]
  · rw [if_neg hany, if_pos (by simpa using hany)]

theorem filter_adopt (hs : s ∈ DisjointSet.table) (own : List String) (b : Behavior) :
    (adopt own b).filter s.holds = s.chosen own ([b.name].find? s.holds) := by
  by_cases hb : s.holds b.name = true
  · unfold adopt DisjointSet.chosen
    rw [DisjointSet.ofToken?_eq_some.mpr ⟨hs, hb⟩]
    dsimp only
    split_ifs with hany
    · rfl
    · have hnil : own.filter s.holds = [] := by simpa using hany
      rw [List.filter_append, hnil]
      simp [hb]
  · have hsame : (adopt own b).filter s.holds = own.filter s.holds := by
      rcases adopt_cases own b with h | ⟨h, -⟩
      · rw [h]
      · rw [h, List.filter_append, List.filter_cons_of_neg hb, List.filter_nil, List.append_nil]
    rw [hsame, DisjointSet.chosen_of_filter rfl]
    split_ifs with hnil
    · rw [hnil, List.find?_cons_of_neg hb]
      rfl
    · rfl

/-- **What a list holds of a set** after all offers. -/
theorem filter_foldl_adopt (hs : s ∈ DisjointSet.table) (bs : List Behavior) (own : List String) :
    (bs.foldl adopt own).filter s.holds =
      s.chosen own ((bs.map Behavior.name).find? s.holds) := by
  induction bs generalizing own with
  | nil =>
    unfold DisjointSet.chosen
    split_ifs with hany
    · rfl
    · simpa using hany
  | cons b bs ih =>
    rw [List.foldl_cons, ih, DisjointSet.chosen_of_filter (filter_adopt hs own b),
      DisjointSet.chosen_of_filter rfl, DisjointSet.chosen_of_filter rfl, List.map_cons]
    by_cases hnil : own.filter s.holds = []
    · rw [if_pos hnil, if_pos hnil]
      by_cases hb : s.holds b.name = true
      · rw [List.find?_cons_of_pos hb, List.find?_cons_of_pos hb]
        rfl
      · rw [List.find?_cons_of_neg hb, List.find?_cons_of_neg hb]
        rfl
    · rw [if_neg hnil, if_neg hnil, if_neg hnil]

/-! ### Effective behaviors -/

theorem effective_eq_append (child parent : String) (own tokens : List String) :
    ∃ added, effective child own (some (parent, tokens)) = own ++ added ∧
      added.Sublist ((inherited child parent tokens).map Behavior.name) ∧ ∀ t ∈ added, t ∉ own :=
  foldl_adopt _ own

theorem mem_effective_of_mem {token : String} (h : token ∈ own) :
    token ∈ effective child own (some (parent, tokens)) := by
  obtain ⟨added, hadded, -⟩ := effective_eq_append child parent own tokens
  rw [hadded]
  exact List.mem_append_left _ h

/-- **What a resource ends with of a set.** -/
theorem filter_effective (hs : s ∈ DisjointSet.table) (child parent : String)
    (own tokens : List String) : (effective child own (some (parent, tokens))).filter s.holds =
      s.chosen own (((inherited child parent tokens).map Behavior.name).find? s.holds) :=
  filter_foldl_adopt hs _ own

/-- **What a resource ends with of a set that is offered as a whole**: its own members, or else the
first one of the parent. -/
theorem filter_effective_of_offered (hs : s ∈ DisjointSet.table)
    (h : ((inherited child parent tokens).map Behavior.name).filter s.holds =
      distinct (tokens.filter s.holds)) :
    (effective child own (some (parent, tokens))).filter s.holds =
      s.chosen own (tokens.find? s.holds) := by
  rw [filter_effective hs, ← List.head?_filter, ← List.head?_filter, h, head?_distinct]

/-- Inheritance neither brings in a conflict nor settles one. -/
theorem conflicts_effective (child parent : String) (own tokens : List String) :
    conflicts (effective child own (some (parent, tokens))) = conflicts own := by
  refine List.filterMap_congr fun s hs => ?_
  have hfilter := filter_effective hs child parent own tokens
  unfold DisjointSet.chosen at hfilter
  split_ifs at hfilter with hany
  · exact DisjointSet.conflict?_congr hfilter
  · -- the list ends with one member at most, and the resource declares none
    have hown : s.conflict? (distinct own) = none := by
      refine DisjointSet.conflict?_eq_none_iff.mpr fun t ht hst => ?_
      exact absurd (List.any_eq_true.mpr ⟨t, ht, hst⟩) hany
    rw [hown, DisjointSet.conflict?_eq_none_iff]
    intro t ht hst t' ht' hst'
    have hmem : ∀ {u}, u ∈ effective child own (some (parent, tokens)) → s.holds u = true →
        ((inherited child parent tokens).map Behavior.name).find? s.holds = some u := by
      intro u hu hsu
      have := List.mem_filter.mpr ⟨hu, hsu⟩
      rwa [hfilter, Option.mem_toList] at this
    exact Option.some.inj ((hmem ht hst).symm.trans (hmem ht' hst'))

/-- **A resource keeps what it declares.** What it inherits comes after that, each token once and in
the order of the parent, and without a change to the conflicts. -/
theorem effective_extends_own (child parent : String) (own tokens : List String) :
    ∃ added, effective child own (some (parent, tokens)) = own ++ added ∧
      added.Sublist ((inherited child parent tokens).map Behavior.name) ∧
      added.Nodup ∧ (∀ t ∈ added, t ∉ own) ∧
      conflicts (effective child own (some (parent, tokens))) = conflicts own := by
  obtain ⟨added, hadded, hsub, hnew⟩ := effective_eq_append child parent own tokens
  have hnodup := (nodup_inherited child parent tokens).map Behavior.name_injective
  exact ⟨added, hadded, hsub, hsub.nodup hnodup, hnew, conflicts_effective child parent own tokens⟩

/-! ### The same offers again -/

/-- **A list has no use for a behavior** if it has a member of its set, or the behavior itself where
that is in no set. -/
def IsSettled (own : List String) (b : Behavior) : Prop :=
  match DisjointSet.ofToken? b.name with
  | none => b.name ∈ own
  | some s => ∃ t ∈ own, s.holds t = true

theorem adopt_eq_self_iff : adopt own b = own ↔ IsSettled own b := by
  unfold adopt IsSettled
  cases DisjointSet.ofToken? b.name with
  | none =>
    by_cases h : b.name ∈ own
    · simp [h]
    · simp [h]
  | some s =>
    dsimp only
    rw [← List.any_eq_true]
    by_cases h : own.any s.holds = true
    · simp only [h, if_true]
    · simp [h]

theorem IsSettled.mono {own' : List String} (h : IsSettled own b) (hsub : own ⊆ own') :
    IsSettled own' b := by
  unfold IsSettled at h ⊢
  cases hset : DisjointSet.ofToken? b.name with
  | none =>
    rw [hset] at h
    exact hsub h
  | some s =>
    rw [hset] at h
    obtain ⟨t, ht, hst⟩ := h
    exact ⟨t, hsub ht, hst⟩

/-- A behavior that is offered settles itself. -/
theorem isSettled_adopt (own : List String) (b : Behavior) : IsSettled (adopt own b) b := by
  rcases adopt_cases own b with h | ⟨h, -⟩
  · rw [h]
    exact adopt_eq_self_iff.mp h
  · rw [h]
    unfold IsSettled
    cases hset : DisjointSet.ofToken? b.name with
    | none => simp
    | some s => exact ⟨b.name, by simp, (DisjointSet.ofToken?_eq_some.mp hset).2⟩

/-- **All offers are settled** by making them. -/
theorem isSettled_foldl_adopt (bs : List Behavior) (own : List String) :
    ∀ b ∈ bs, IsSettled (bs.foldl adopt own) b := by
  induction bs generalizing own with
  | nil => simp
  | cons c bs ih =>
    intro b hb
    rw [List.foldl_cons]
    rcases List.mem_cons.mp hb with rfl | hb
    · -- what was adopted first is still there in the end
      obtain ⟨added, hadded, -⟩ := foldl_adopt bs (adopt own b)
      rw [hadded]
      exact (isSettled_adopt own b).mono (List.subset_append_left _ _)
    · exact ih (adopt own c) b hb

/-- **A list that has no use for any of the offers** keeps to itself. -/
theorem foldl_adopt_eq_self {bs : List Behavior} (h : ∀ b ∈ bs, IsSettled own b) :
    bs.foldl adopt own = own := by
  induction bs with
  | nil => rfl
  | cons b bs ih =>
    rw [List.foldl_cons, adopt_eq_self_iff.mpr (h b (by simp))]
    exact ih fun c hc => h c (by simp [hc])

/-- **Inheriting twice is inheriting once**, for any types, tokens and parent. -/
theorem effective_effective (child : String) (own : List String)
    (parent? : Option (String × List String)) :
    effective child (effective child own parent?) parent? = effective child own parent? := by
  cases parent? with
  | none => rfl
  | some parent =>
    obtain ⟨parent, tokens⟩ := parent
    exact foldl_adopt_eq_self (isSettled_foldl_adopt (inherited child parent tokens) own)

end IiifRules
