import Mathlib
import IiifRules.Proofs.Behavior.Effective

/-! # Inheritance along nested ranges

A manifest contains ranges, and these contain ranges. Three sets of behaviors come down to them. Of
each of these a range ends with its own members, or else with the first member in the list of the
nearest resource around it that declares one; whatever else a range ends with it declares itself.

* `filter_effective_range`, `mem_effective_range`: one range within a manifest or a range.
* `exists_effectiveAlong_ranges`: a range among nested ones.
* `exists_effectiveAlong_nested`: the same from the manifest on. -/

namespace IiifRules

/-- The categories of behaviors that come down to ranges. -/
def comeDown : List BehaviorCategory := [.temporalAdvance, .layout, .rangeNavigation]

variable {parent token : String} {own tokens : List String} {s : DisjointSet} {b : Behavior}

/-- The members of a set that comes down are for ranges. -/
theorem isFor_range_of_mem : ∀ s ∈ DisjointSet.table, s.category ∈ comeDown → ∀ b ∈ s.members,
    b.isFor ResourceType.range.name = true := by
  decide

/-- A behavior for ranges is in a set that comes down. -/
theorem exists_set_of_isFor_range (h : b.isFor ResourceType.range.name = true) :
    ∃ s ∈ DisjointSet.table, s.category ∈ comeDown ∧ s.holds b.name = true := by
  revert h
  cases b <;> decide

/-! ### One range -/

/-- What may contain a range. -/
def HoldsRanges (parent : String) : Prop :=
  parent = ResourceType.manifest.name ∨ parent = ResourceType.range.name

theorem HoldsRanges.inheritsFrom (h : HoldsRanges parent) :
    InheritanceRule.inheritsFrom ResourceType.range.name parent = true := by
  rcases h with rfl | rfl <;> decide

/-- Ranges take nothing that is not for ranges. -/
theorem HoldsRanges.carries_eq_nil (h : HoldsRanges parent) {r : InheritanceRule}
    (hr : InheritanceRule.find? ResourceType.range.name parent = some r) : r.carries = [] := by
  rcases h with rfl | rfl
  · obtain rfl : r = ⟨.range, .manifest, true, [], "Ranges inherit from their Manifest"⟩ :=
      Option.some.inj (hr.symm.trans (by decide))
    rfl
  · obtain rfl : r = ⟨.range, .range, true, [], "Nested Ranges inherit from parent Range"⟩ :=
      Option.some.inj (hr.symm.trans (by decide))
    rfl

/-- **What a range ends with of a set that comes down**, within what contains it. -/
theorem filter_effective_range (h : HoldsRanges parent) (hs : s ∈ DisjointSet.table)
    (hc : s.category ∈ comeDown) :
    (effective ResourceType.range.name own (some (parent, tokens))).filter s.holds =
      s.chosen own (tokens.find? s.holds) :=
  filter_effective_of_offered hs (map_inherited_filter h.inheritsFrom (isFor_range_of_mem s hs hc))

/-- **What comes down** to a range is in one of the sets. -/
theorem mem_effective_range (h : HoldsRanges parent)
    (ht : token ∈ effective ResourceType.range.name own (some (parent, tokens))) :
    token ∈ own ∨ ∃ s ∈ DisjointSet.table, s.category ∈ comeDown ∧ s.holds token = true := by
  obtain ⟨added, hadded, hsub, -⟩ :=
    effective_eq_append ResourceType.range.name parent own tokens
  rw [hadded] at ht
  rcases List.mem_append.mp ht with ht | ht
  · exact Or.inl ht
  · obtain ⟨b, hb, rfl⟩ := List.mem_map.mp (hsub.subset ht)
    obtain ⟨r, hr, hinherited⟩ := exists_inherited h.inheritsFrom
    rw [hinherited, mem_distinct, List.mem_filter] at hb
    have hpasses := hb.2
    unfold InheritanceRule.passes at hpasses
    rw [h.carries_eq_nil hr] at hpasses
    exact Or.inr (exists_set_of_isFor_range (by simpa using hpasses))

/-! ### Nested ranges -/

/-- The first member of a set in the nearest list, of lists from the outermost on. -/
def DisjointSet.nearest? (s : DisjointSet) (around : List (List String)) : Option String :=
  around.reverse.findSome? (·.find? s.holds)

theorem DisjointSet.nearest?_cons (s : DisjointSet) (own : List String)
    (around : List (List String)) :
    s.nearest? (own :: around) = (s.nearest? around).or (own.find? s.holds) := by
  unfold nearest?
  rw [List.reverse_cons, List.findSome?_append, List.findSome?_cons]
  cases own.find? s.holds <;> rfl

theorem DisjointSet.find?_chosen {e : List String} {first? : Option String}
    (h : e.filter s.holds = s.chosen own first?) :
    e.find? s.holds = (own.find? s.holds).or first? := by
  rw [← List.head?_filter, h, ← List.head?_filter, chosen_of_filter rfl]
  split_ifs with hnil
  · rw [hnil]
    cases first? <;> rfl
  · obtain ⟨t, ts, hcons⟩ := List.exists_cons_of_ne_nil hnil
    rw [hcons]
    rfl

/-- A manifest and the ranges nested in it, each with its own tokens. -/
def nestedIn (own : List String) (owns : List (List String)) : List ChainStep :=
  ⟨ResourceType.manifest.name, own⟩ :: owns.map (⟨ResourceType.range.name, ·⟩)

/-- **A range among nested ones**, the first of which lies within a parent. -/
theorem exists_effectiveAlong_ranges (tokens : List String) (h : HoldsRanges parent)
    (owns : List (List String)) {n : ℕ} (hn : owns[n]? = some own) : ∃ e,
      (effectiveAlong (some (parent, tokens))
        (owns.map (⟨ResourceType.range.name, ·⟩)))[n]? = some e ∧
      (∀ s ∈ DisjointSet.table, s.category ∈ comeDown → e.filter s.holds =
        s.chosen own ((s.nearest? (owns.take n)).or (tokens.find? s.holds))) ∧
      ∀ t ∈ e, t ∈ own ∨
        ∃ s ∈ DisjointSet.table, s.category ∈ comeDown ∧ s.holds t = true := by
  induction owns generalizing parent tokens n with
  | nil => simp at hn
  | cons first rest ih =>
    cases n with
    | zero =>
      obtain rfl : first = own := by simpa using hn
      exact ⟨_, rfl, fun s hs hc => filter_effective_range h hs hc,
        fun t ht => mem_effective_range h ht⟩
    | succ n =>
      -- what the first range ends with is what the next one is offered
      obtain ⟨e, he, hsets, hmem⟩ := ih
        (effective ResourceType.range.name first (some (parent, tokens)))
        (Or.inr rfl) (by simpa using hn)
      refine ⟨e, he, fun s hs hc => ?_, hmem⟩
      rw [hsets s hs hc, DisjointSet.find?_chosen (filter_effective_range h hs hc),
        List.take_succ_cons, DisjointSet.nearest?_cons, Option.or_assoc]

/-- **The nearest declaration wins** along a manifest and the ranges nested in it: of a set that
comes down, a resource has its own members, or else the first one of the nearest list around it that
has any. A range has nothing else but what it declares. -/
theorem exists_effectiveAlong_nested (own₀ : List String) (owns : List (List String)) {n : ℕ}
    (hn : (own₀ :: owns)[n]? = some own) : ∃ e,
      (effectiveAlong none (nestedIn own₀ owns))[n]? = some e ∧
      (∀ s ∈ DisjointSet.table, s.category ∈ comeDown →
        (own.any s.holds = true → e.filter s.holds = own.filter s.holds) ∧
        (own.any s.holds = false →
          e.filter s.holds = (s.nearest? ((own₀ :: owns).take n)).toList)) ∧
      (0 < n → ∀ t ∈ e, t ∉ own →
        ∃ s ∈ DisjointSet.table, s.category ∈ comeDown ∧ s.holds t = true) := by
  cases n with
  | zero =>
    obtain rfl : own₀ = own := by simpa using hn
    refine ⟨own₀, rfl, fun s _ _ => ⟨fun _ => rfl, fun hany => ?_⟩, fun h0 => absurd h0 (by omega)⟩
    exact List.filter_eq_nil_iff.mpr (by simpa using hany)
  | succ n =>
    obtain ⟨e, he, hsets, hmem⟩ := exists_effectiveAlong_ranges own₀ (Or.inl rfl) owns
      (by simpa using hn)
    refine ⟨e, he, fun s hs hc => ?_, fun _ t ht hown => (hmem t ht).resolve_left hown⟩
    have hset := hsets s hs hc
    rw [← DisjointSet.nearest?_cons, ← List.take_succ_cons] at hset
    unfold DisjointSet.chosen at hset
    exact ⟨fun hany => hset.trans (if_pos hany), fun hany => hset.trans (if_neg (by simp [hany]))⟩

/-- Two ranges within a manifest: the inner one has the layout of the outer one, which lists two and
hides the one of the manifest, and the manifest's way to advance. -/
theorem exists_effectiveAlong_nested_of_layouts :
    let owns := [["unordered", "no-nav", "individuals"], ["hidden", "repeat"]]
    let chain := nestedIn ["paged", "auto-advance", "repeat"] owns
    (effectiveAlong none chain)[2]? =
        some ["hidden", "repeat", "unordered", "no-nav", "auto-advance"] ∧
      ∃ e, (effectiveAlong none chain)[2]? = some e ∧ ∀ s ∈ DisjointSet.table,
        s.category = .layout → e.filter s.holds = ["unordered"] := by
  intro owns chain
  have hn : (["paged", "auto-advance", "repeat"] :: owns)[2]? = some ["hidden", "repeat"] := rfl
  obtain ⟨e, he, hsets, -⟩ := exists_effectiveAlong_nested _ owns hn
  have hlayout : ∀ s ∈ DisjointSet.table, s.category = .layout →
      ["hidden", "repeat"].any s.holds = false ∧
        s.nearest? [["paged", "auto-advance", "repeat"], ["unordered", "no-nav", "individuals"]] =
          some "unordered" := by decide +kernel
  refine ⟨by decide +kernel, e, he, fun s hs hc => ?_⟩
  obtain ⟨hany, hnearest⟩ := hlayout s hs hc
  exact ((hsets s hs (by rw [hc]; decide)).2 hany).trans (congrArg Option.toList hnearest)

end IiifRules
