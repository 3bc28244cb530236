import Mathlib
import IiifRules.Proofs.Behavior.Override

/-! # Contested sets

A disjoint set is contested among tokens if two of them, that differ, are members of it. The conflicts
that are reported are the contested sets with their members among the tokens, and among the tokens of
a resource without errors no set is contested.

* `conflicts_eq_map`: the conflicts are those of the contested sets.
* `DisjointSet.Contested.mono`: a set that is contested stays so as tokens are added.
* `DisjointSet.contested_effective_iff`: inheritance contests no set.
* `map_message_conflicts`: what the conflicts say, and which tokens decide about them.
* `errors_eq_nil_iff_uncontested`: when a resource has no errors, and what this does not depend
  on. -/

namespace IiifRules

variable {s : DisjointSet} {tokens tokens' : List String} {t : String}

/-- The entries of a list come in the order of their first occurrence. -/
theorem pairwise_idxOf_distinct {α : Type} [DecidableEq α] (xs : List α) :
    (distinct xs).Pairwise fun x y => xs.idxOf x < xs.idxOf y := by
  induction xs with
  | nil => exact .nil
  | cons x xs ih =>
    rw [distinct, List.pairwise_cons]
    have hne : ∀ y ∈ (distinct xs).filter (· ≠ x), x ≠ y := by
      intro y hy
      have := (List.mem_filter.mp hy).2
      exact Ne.symm (by simpa using this)
    refine ⟨fun y hy => ?_, (ih.sublist List.filter_sublist).imp_of_mem fun {y z} hy hz h => ?_⟩
    · rw [List.idxOf_cons_self, List.idxOf_cons_ne _ (hne y hy)]
      omega
    · rw [List.idxOf_cons_ne _ (hne y hy), List.idxOf_cons_ne _ (hne z hz)]
      omega

namespace DisjointSet

/-- **A set is contested** among tokens: two of them, that differ, are members of it. -/
def Contested (s : DisjointSet) (tokens : List String) : Prop :=
  ∃ t ∈ tokens, ∃ t' ∈ tokens, s.holds t = true ∧ s.holds t' = true ∧ t ≠ t'

instance (s : DisjointSet) (tokens : List String) : Decidable (s.Contested tokens) :=
  inferInstanceAs (Decidable
    (∃ t ∈ tokens, ∃ t' ∈ tokens, s.holds t = true ∧ s.holds t' = true ∧ t ≠ t'))

/-- The members of a set that tokens name, at their first occurrence. -/
def named (s : DisjointSet) (tokens : List String) : List String :=
  (distinct tokens).filter s.holds

theorem mem_named : t ∈ s.named tokens ↔ t ∈ tokens ∧ s.holds t = true := by
  rw [named, List.mem_filter, mem_distinct]

theorem pairwise_named (s : DisjointSet) (tokens : List String) :
    (s.named tokens).Pairwise fun t t' => tokens.idxOf t < tokens.idxOf t' :=
  (pairwise_idxOf_distinct tokens).sublist List.filter_sublist

theorem not_contested_iff : ¬s.Contested tokens ↔
    ∀ t ∈ tokens, s.holds t = true → ∀ t' ∈ tokens, s.holds t' = true → t = t' := by
  unfold Contested
  push Not
  constructor
  · intro h t ht hst t' ht' hst'
    exact h t ht t' ht' hst hst'
  · intro h t ht t' ht' hst hst'
    exact h t ht hst t' ht' hst'

/-- **A contested set gives its conflict**, and no other set does. -/
theorem conflict?_eq (s : DisjointSet) (tokens : List String) :
    s.conflict? (distinct tokens) =
      if s.Contested tokens then some ⟨s.category, s.named tokens⟩ else none := by
  by_cases h : s.Contested tokens
  · rw [if_pos h]
    -- there is a conflict, and it can only be the one of the definition
    have hne : s.conflict? (distinct tokens) ≠ none := by
      rw [Ne, conflict?_eq_none_iff, ← not_contested_iff, not_not]
      exact h
    unfold conflict? at hne ⊢
    dsimp only at hne ⊢
    split_ifs at hne ⊢ with hlength
    · rfl
    · exact absurd rfl hne
  · rw [if_neg h]
    exact conflict?_eq_none_iff.mpr (not_contested_iff.mp h)

/-- Behaviors of visibility are in no set. -/
theorem category_ne_visibility :
    ∀ s ∈ table, ∀ b ∈ s.members, b.category ≠ .visibility := by decide

/-- **A contested set stays contested** as tokens are added. Only behaviors count, and among them
not those of visibility. -/
theorem Contested.mono (h : s.Contested tokens) (hs : s ∈ table)
    (hsub : ∀ b : Behavior, b.category ≠ .visibility → b.name ∈ tokens → b.name ∈ tokens') :
    s.Contested tokens' := by
  have hkept : ∀ t ∈ tokens, s.holds t = true → t ∈ tokens' := by
    intro t ht hst
    obtain ⟨b, hb, rfl⟩ := holds_iff.mp hst
    exact hsub b (category_ne_visibility s hs b hb) ht
  obtain ⟨t, ht, t', ht', hst, hst', hne⟩ := h
  exact ⟨t, hkept t ht hst, t', hkept t' ht' hst', hst, hst', hne⟩

end DisjointSet

/-! ### Conflicts -/

/-- **The conflicts** are those of the contested sets, in the order of the sets. -/
theorem conflicts_eq_map (tokens : List String) : conflicts tokens =
    (DisjointSet.table.filter (·.Contested tokens)).map fun s =>
      ⟨s.category, s.named tokens⟩ := by
  unfold conflicts
  rw [← List.filterMap_eq_map, List.filterMap_filter]
  refine List.filterMap_congr fun s _ => ?_
  rw [DisjointSet.conflict?_eq]
  by_cases h : s.Contested tokens
  · simp [h]
  · simp [h]

theorem map_category_conflicts (tokens : List String) : (conflicts tokens).map Conflict.category =
    (DisjointSet.table.filter (·.Contested tokens)).map DisjointSet.category := by
  rw [conflicts_eq_map, List.map_map]
  rfl

theorem conflicts_eq_nil_iff_not_contested :
    conflicts tokens = [] ↔ ∀ s ∈ DisjointSet.table, ¬s.Contested tokens := by
  simp only [DisjointSet.not_contested_iff]
  exact conflicts_eq_nil_iff

/-- A set is contested if a conflict is about its category. -/
theorem DisjointSet.contested_iff_mem (hs : s ∈ DisjointSet.table) :
    s.Contested tokens ↔ s.category ∈ (conflicts tokens).map Conflict.category := by
  rw [map_category_conflicts, List.mem_map]
  constructor
  · intro h
    exact ⟨s, List.mem_filter.mpr ⟨hs, by simpa using h⟩, rfl⟩
  · rintro ⟨s', hs', hcategory⟩
    obtain ⟨htable, h⟩ := List.mem_filter.mp hs'
    rw [← eq_of_category s' htable s hs hcategory]
    simpa using h

/-- **What a parent offers** contests no set, and settles none that is contested. -/
theorem DisjointSet.contested_effective_iff (hs : s ∈ DisjointSet.table) (child parent : String)
    (own tokens : List String) :
    s.Contested (effective child own (some (parent, tokens))) ↔ s.Contested own := by
  rw [contested_iff_mem hs, contested_iff_mem hs, conflicts_effective]

/-- Fewer tokens contest fewer sets. -/
theorem map_category_conflicts_sublist
    (hsub : ∀ b : Behavior, b.category ≠ .visibility → b.name ∈ tokens → b.name ∈ tokens') :
    ((conflicts tokens).map Conflict.category).Sublist
      ((conflicts tokens').map Conflict.category) := by
  -- the sets contested among the fewer tokens are some of those contested among the others
  have hfilter : DisjointSet.table.filter (·.Contested tokens) =
      (DisjointSet.table.filter (·.Contested tokens')).filter (·.Contested tokens) := by
    rw [List.filter_filter]
    refine List.filter_congr fun s hs => ?_
    rw [← Bool.decide_and, decide_eq_decide]
    exact ⟨fun h => ⟨h, h.mono hs hsub⟩, And.left⟩
  rw [map_category_conflicts, map_category_conflicts, hfilter]
  exact List.filter_sublist.map _

/-- **What the conflicts say.** There is one message for each set that is contested among the
tokens, in the order of the sets, and no other; it names the members of the set that are among the
tokens, each once and in the order of their first occurrence. More tokens leave every set contested
that was; and the same sets are contested among any tokens that include the same behaviors, be it in
another order or number, apart from those of visibility and from tokens that are no behavior. -/
theorem map_message_conflicts (tokens : List String) :
    (conflicts tokens).map Conflict.message =
        ((DisjointSet.table.filter (·.Contested tokens)).map fun s =>
          "Conflicting behaviors from " ++ s.category.name ++ " set: " ++
            ", ".intercalate (s.named tokens)) ∧
      (∀ s : DisjointSet, (∀ t, t ∈ s.named tokens ↔ t ∈ tokens ∧ s.holds t = true) ∧
        (s.named tokens).Pairwise fun t t' => tokens.idxOf t < tokens.idxOf t') ∧
      (∀ tokens',
        (∀ b : Behavior, b.category ≠ .visibility → b.name ∈ tokens → b.name ∈ tokens') →
        ((conflicts tokens).map Conflict.category).Sublist
          ((conflicts tokens').map Conflict.category)) ∧
      ∀ tokens',
        (∀ b : Behavior, b.category ≠ .visibility → (b.name ∈ tokens' ↔ b.name ∈ tokens)) →
        (conflicts tokens').map Conflict.category = (conflicts tokens).map Conflict.category := by
  refine ⟨?_, fun s => ⟨fun t => DisjointSet.mem_named, s.pairwise_named tokens⟩,
    fun tokens' hsub => map_category_conflicts_sublist hsub, fun tokens' hsame => ?_⟩
  · rw [conflicts_eq_map, List.map_map]
    rfl
  · have hfewer := map_category_conflicts_sublist fun b hb => (hsame b hb).mp
    have hmore := map_category_conflicts_sublist fun b hb => (hsame b hb).mpr
    exact hfewer.antisymm hmore

/-- Two sets are contested, one of them by tokens that are repeated and far apart, and among the
same behaviors without the other tokens too. -/
theorem map_message_conflicts_of_repeated :
    let tokens := ["paged", "no-repeat", "hidden", "continuous", "sideways", "paged", "repeat"]
    (conflicts tokens).map Conflict.message =
        ["Conflicting behaviors from temporal_repeat set: no-repeat, repeat",
         "Conflicting behaviors from layout set: paged, continuous"] ∧
      (conflicts ["repeat", "continuous", "paged", "no-repeat"]).map Conflict.category =
        (conflicts tokens).map Conflict.category ∧
      ((conflicts tokens).map Conflict.category).Sublist
        ((conflicts ("no-nav" :: "sequence" :: tokens)).map Conflict.category) := by
  intro tokens
  obtain ⟨hmessages, -, hmore, hsame⟩ := map_message_conflicts tokens
  have hkept : ∀ b : Behavior, b.category ≠ .visibility →
      (b.name ∈ ["repeat", "continuous", "paged", "no-repeat"] ↔ b.name ∈ tokens) := by
    intro b
    cases b <;> decide
  exact ⟨hmessages.trans (by decide +kernel), hsame _ hkept, hmore _ fun b _ hb => by simp [hb]⟩

/-! ### Resources without errors -/

/-- **A resource has no errors** exactly if all that it declares are behaviors for its type and no
set is contested among them. The errors are the same within any parent, and whether there are any is
the same for tokens in another order or number. -/
theorem errors_eq_nil_iff_uncontested (type : String) (own : List String)
    (parentType? : Option String) (parents? : Option (List String)) :
    ((checkBehaviors type own parentType? parents?).errors = [] ↔
        (∀ t ∈ own, ∃ b : Behavior, t = b.name ∧ b.isFor type = true) ∧
          ∀ s ∈ DisjointSet.table, ¬s.Contested own) ∧
      (∀ parentType?' parents?', (checkBehaviors type own parentType?' parents?').errors =
        (checkBehaviors type own parentType? parents?).errors) ∧
      ∀ own', (∀ t, t ∈ own' ↔ t ∈ own) →
        (checkBehaviors type own' parentType? parents?).valid =
          (checkBehaviors type own parentType? parents?).valid := by
  have herrors : ∀ own, (checkBehaviors type own parentType? parents?).errors = [] ↔
      (∀ t ∈ own, ∃ b : Behavior, t = b.name ∧ b.isFor type = true) ∧
        ∀ s ∈ DisjointSet.table, ¬s.Contested own := by
    intro own
    simp only [DisjointSet.not_contested_iff]
    rw [← conflicts_eq_nil_iff]
    exact behaviorErrors_eq_nil_iff
  refine ⟨herrors own, fun _ _ => rfl, fun own' hsame => ?_⟩
  have hiff : (checkBehaviors type own' parentType? parents?).errors = [] ↔
      (checkBehaviors type own parentType? parents?).errors = [] := by
    simp only [herrors, DisjointSet.Contested, hsame]
  rw [Bool.eq_iff_iff, Report.valid, Report.valid, List.isEmpty_iff, List.isEmpty_iff]
  exact hiff

/-- A canvas within a paged manifest, with tokens in another order and one of them twice, or without
a parent. -/
theorem errors_eq_nil_iff_uncontested_of_canvas :
    let own := ["facing-pages", "auto-advance"]
    (checkBehaviors "Canvas" own (some "Manifest") (some ["paged"])).errors = [] ∧
      (checkBehaviors "Canvas" own none none).errors = [] ∧
      (checkBehaviors "Canvas" ["auto-advance", "facing-pages", "auto-advance"]
        (some "Manifest") (some ["paged"])).valid = true := by
  intro own
  obtain ⟨hiff, hparent, hsame⟩ :=
    errors_eq_nil_iff_uncontested "Canvas" own (some "Manifest") (some ["paged"])
  have hnone : (checkBehaviors "Canvas" own (some "Manifest") (some ["paged"])).errors = [] := by
    refine hiff.mpr ⟨?_, by decide +kernel⟩
    simp only [own, List.forall_mem_cons]
    exact ⟨⟨.facingPages, by decide, by decide⟩, ⟨.autoAdvance, by decide, by decide⟩, by simp⟩
  refine ⟨hnone, (hparent none none).trans hnone, (hsame _ ?_).trans (List.isEmpty_iff.mpr hnone)⟩
  intro t
  simp only [own, List.mem_cons]
  tauto

end IiifRules
