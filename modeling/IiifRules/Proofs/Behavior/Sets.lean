import Mathlib
import IiifRules.Behavior.Check
import IiifRules.Behavior.Inherit

/-! # Behaviors and their disjoint sets

A behavior is known by its name, and it is in one disjoint set at most. The members of a set are for
the same types of resources, so that a type takes all of them or none. Whether tokens conflict in a
set is decided by those of them that the set holds.

* `DisjointSet.ofToken?_eq_some`: the set of a token.
* `DisjointSet.isFor_congr`: a set is for a type as a whole.
* `DisjointSet.conflict?_congr`, `conflicts_eq_nil_iff`: what decides about conflicts. -/

namespace IiifRules

/-! ### First occurrences -/

section

variable {α β : Type} [DecidableEq α] [DecidableEq β]

theorem nodup_distinct (xs : List α) : (distinct xs).Nodup := by
  induction xs with
  | nil => exact List.nodup_nil
  | cons x xs ih =>
    rw [distinct, List.nodup_cons]
    exact ⟨by simp, ih.filter _⟩

theorem head?_distinct (xs : List α) : (distinct xs).head? = xs.head? := by cases xs <;> rfl

theorem filter_distinct (p : α → Bool) (xs : List α) :
    (distinct xs).filter p = distinct (xs.filter p) := by
  induction xs with
  | nil => rfl
  | cons x xs ih =>
    rw [distinct]
    by_cases hx : p x = true
    · rw [List.filter_cons_of_pos hx, List.filter_cons_of_pos hx, distinct, List.filter_comm, ih]
    · rw [List.filter_cons_of_neg hx, List.filter_cons_of_neg hx, List.filter_filter, ← ih]
      refine List.filter_congr fun y _ => ?_
      by_cases hy : y = x
      · simp [hy, hx]
      · simp [hy]

theorem map_distinct {f : α → β} (hf : Function.Injective f) (xs : List α) :
    (distinct xs).map f = distinct (xs.map f) := by
  induction xs with
  | nil => rfl
  | cons x xs ih =>
    rw [distinct, List.map_cons, List.map_cons, distinct, ← ih, List.filter_map]
    simp [Function.comp_def, hf.eq_iff]

theorem length_distinct_le_one_iff {xs : List α} :
    (distinct xs).length ≤ 1 ↔ ∀ x ∈ xs, ∀ y ∈ xs, x = y := by
  cases xs with
  | nil => simp [distinct]
  | cons x xs =>
    have hnil : (distinct (x :: xs)).length ≤ 1 ↔ ∀ y ∈ xs, y = x := by
      simp [distinct, List.filter_eq_nil_iff, mem_distinct]
    rw [hnil]
    constructor
    · intro h y hy z hz
      have hall : ∀ w ∈ x :: xs, w = x := by simpa using h
      rw [hall y hy, hall z hz]
    · intro h y hy
      exact h y (by simp [hy]) x (by simp)

end

/-! ### Names -/

theorem Behavior.ofToken?_name (b : Behavior) : Behavior.ofToken? b.name = some b := by
  cases b <;> decide

theorem Behavior.name_injective : Function.Injective Behavior.name := by
  intro b c h
  have := congrArg Behavior.ofToken? h
  rwa [ofToken?_name, ofToken?_name, Option.some.injEq] at this

theorem Behavior.ofToken?_eq_some {token : String} {b : Behavior} :
    Behavior.ofToken? token = some b ↔ token = b.name := by
  constructor
  · intro h
    exact (Vocabulary.ofName?_eq_some h).symm
  · rintro rfl
    exact ofToken?_name b

/-! ### Sets -/

namespace DisjointSet

variable {s s' : DisjointSet} {token type : String} {tokens tokens' : List String} {b c : Behavior}

theorem holds_iff : s.holds token = true ↔ ∃ b ∈ s.members, b.name = token := by
  simp [holds]

theorem holds_name : s.holds b.name = true ↔ b ∈ s.members := by
  rw [holds_iff]
  constructor
  · rintro ⟨c, hc, h⟩
    rwa [← Behavior.name_injective h]
  · intro h
    exact ⟨b, h, rfl⟩

/-- No behavior is in two sets. -/
theorem eq_of_mem_members : ∀ s ∈ table, ∀ s' ∈ table, ∀ b ∈ s.members, b ∈ s'.members → s = s' := by
  decide

theorem eq_of_holds (hs : s ∈ table) (hs' : s' ∈ table) (h : s.holds token = true)
    (h' : s'.holds token = true) : s = s' := by
  obtain ⟨b, hb, rfl⟩ := holds_iff.mp h
  exact eq_of_mem_members s hs s' hs' b hb (holds_name.mp h')

/-- **The set of a token** is the one that holds it. -/
theorem ofToken?_eq_some : ofToken? token = some s ↔ s ∈ table ∧ s.holds token = true := by
  constructor
  · intro h
    unfold ofToken? at h
    exact ⟨List.mem_of_find?_eq_some h, by simpa using List.find?_some h⟩
  · rintro ⟨hs, h⟩
    unfold ofToken?
    cases hfound : table.find? (·.holds token) with
    | none => exact absurd h (List.find?_eq_none.mp hfound s hs)
    | some s' =>
      have h' : s'.holds token = true := by simpa using List.find?_some hfound
      rw [eq_of_holds (List.mem_of_find?_eq_some hfound) hs h' h]

/-- Each set is about a category of its own. -/
theorem eq_of_category : ∀ s ∈ table, ∀ s' ∈ table, s.category = s'.category → s = s' := by
  decide

theorem exists_layout : ∃ s ∈ table, s.category = .layout ∧ s.holds Behavior.paged.name = true := by
  decide

theorem types_eq_of_mem_members :
    ∀ s ∈ table, ∀ b ∈ s.members, ∀ c ∈ s.members, b.types = c.types := by decide

/-- **A set is for a type as a whole.** -/
theorem isFor_congr (hs : s ∈ table) (hb : b ∈ s.members) (hc : c ∈ s.members) :
    b.isFor type = c.isFor type := by
  unfold Behavior.isFor
  rw [types_eq_of_mem_members s hs b hb c hc]

/-! ### Conflicts -/

theorem conflict?_congr (h : tokens.filter s.holds = tokens'.filter s.holds) :
    s.conflict? (distinct tokens) = s.conflict? (distinct tokens') := by
  unfold conflict?
  rw [filter_distinct, filter_distinct, h]

theorem conflict?_eq_none_iff : s.conflict? (distinct tokens) = none ↔
    ∀ t ∈ tokens, s.holds t = true → ∀ t' ∈ tokens, s.holds t' = true → t = t' := by
  have hlength : s.conflict? (distinct tokens) = none ↔
      (distinct (tokens.filter s.holds)).length ≤ 1 := by
    simp [conflict?, filter_distinct]
  rw [hlength, length_distinct_le_one_iff]
  simp only [List.mem_filter, and_imp]

end DisjointSet

theorem conflicts_eq_nil_iff {tokens : List String} :
    conflicts tokens = [] ↔ ∀ s ∈ DisjointSet.table, ∀ t ∈ tokens, s.holds t = true →
      ∀ t' ∈ tokens, s.holds t' = true → t = t' := by
  unfold conflicts
  rw [List.filterMap_eq_nil_iff]
  exact forall₂_congr fun s _ => DisjointSet.conflict?_eq_none_iff

end IiifRules
