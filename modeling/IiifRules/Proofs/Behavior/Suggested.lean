import Mathlib
import IiifRules.Behavior.Suggest
import IiifRules.Proofs.Behavior.Conflict

/-! # Resources that take the suggestions

Suggestions are for the type of the resource, one by one. Together they may contest the set of
layouts: content in pages asks for one layout, content with a width and a height for another unless
it is in pages, and content without an order for a third, whatever else is known. No other set is
ever contested, and what a parent offers changes nothing.

* `mem_suggestBehaviors`: what is suggested.
* `contested_suggestBehaviors_iff`: which sets the suggestions contest.
* `suggestBehaviors_errors_iff`: when a resource that declares the suggestions has no errors, and
  what it ends with within a parent. -/

namespace IiifRules

variable {type : String} {c : ContentTraits} {s : DisjointSet} {b b' : Behavior}

/-- The behaviors that are ever suggested. -/
def suggestible : List Behavior := [.autoAdvance, .paged, .unordered, .multiPart, .continuous]

/-- The layouts among them. -/
def suggestibleLayouts : List Behavior := [.paged, .unordered, .continuous]

namespace DisjointSet

theorem contested_map_name {bs : List Behavior} : s.Contested (bs.map Behavior.name) ↔
    ∃ b ∈ bs, ∃ b' ∈ bs, b ∈ s.members ∧ b' ∈ s.members ∧ b ≠ b' := by
  simp [Contested, holds_name, Behavior.name_injective.eq_iff]

theorem mem_members_of_layout : ∀ s ∈ table, s.category = .layout →
    ∀ b ∈ suggestibleLayouts, b ∈ s.members := by
  decide

/-- Of all behaviors that are ever suggested only layouts are in one set with another. -/
theorem layouts_of_suggestible : ∀ s ∈ table, ∀ b ∈ s.members, ∀ b' ∈ s.members,
    b ∈ suggestible → b' ∈ suggestible → b ≠ b' →
      s.category = .layout ∧ b ∈ suggestibleLayouts ∧ b' ∈ suggestibleLayouts := by
  decide

end DisjointSet

/-! ### What is suggested -/

theorem mem_suggestible_of_asksFor (h : c.asksFor b = true) : b ∈ suggestible := by
  unfold ContentTraits.asksFor at h
  split at h
  case h_6 => cases h
  all_goals decide

/-- **What is suggested**: the behaviors that the content asks for, if they are for the type. -/
theorem mem_suggestBehaviors :
    b ∈ suggestBehaviors type c ↔ c.asksFor b = true ∧ b.isFor type = true := by
  unfold suggestBehaviors
  rw [List.mem_filter, Bool.and_eq_true]
  exact and_iff_right_of_imp fun h => mem_suggestible_of_asksFor h.1

/-- **Content asks for two layouts**: it has no order, and it is in pages or has an area. -/
def ContentTraits.AsksForLayouts (c : ContentTraits) : Prop :=
  c.isUnordered = true ∧ (c.hasPageSequence = true ∨ c.hasWidth = true ∧ c.hasHeight = true)

instance (c : ContentTraits) : Decidable c.AsksForLayouts :=
  inferInstanceAs (Decidable
    (c.isUnordered = true ∧ (c.hasPageSequence = true ∨ c.hasWidth = true ∧ c.hasHeight = true)))

/-- Pages and an area do not make two layouts. -/
theorem asksForLayouts_of_ne (hb : b ∈ suggestibleLayouts) (hb' : b' ∈ suggestibleLayouts)
    (h : c.asksFor b = true) (h' : c.asksFor b' = true) (hne : b ≠ b') : c.AsksForLayouts := by
  unfold ContentTraits.AsksForLayouts
  simp only [suggestibleLayouts, List.mem_cons, List.not_mem_nil, or_false] at hb hb'
  rcases hb with rfl | rfl | rfl <;> rcases hb' with rfl | rfl | rfl <;>
    simp_all [ContentTraits.asksFor]

/-- Content that asks for two layouts asks for another one than that without an order. -/
theorem ContentTraits.AsksForLayouts.exists_other (h : c.AsksForLayouts) :
    ∃ b ∈ suggestibleLayouts, c.asksFor b = true ∧ b ≠ .unordered := by
  obtain ⟨-, h⟩ := h
  by_cases hpages : c.hasPageSequence = true
  · exact ⟨.paged, by decide, hpages, by decide⟩
  · obtain ⟨hwidth, hheight⟩ := h.resolve_left hpages
    exact ⟨.continuous, by decide, by simp [ContentTraits.asksFor, hwidth, hheight, hpages],
      by decide⟩

/-- **Which sets the suggestions contest**: that of layouts, if the content asks for two of them and
layouts are for the type. -/
theorem contested_suggestBehaviors_iff (hs : s ∈ DisjointSet.table) :
    s.Contested ((suggestBehaviors type c).map Behavior.name) ↔
      s.category = .layout ∧ Behavior.unordered.isFor type = true ∧ c.AsksForLayouts := by
  rw [DisjointSet.contested_map_name]
  constructor
  · rintro ⟨b, hb, b', hb', hmem, hmem', hne⟩
    obtain ⟨h, hfor⟩ := mem_suggestBehaviors.mp hb
    obtain ⟨h', -⟩ := mem_suggestBehaviors.mp hb'
    obtain ⟨hlayout, hb, hb'⟩ := DisjointSet.layouts_of_suggestible s hs b hmem b' hmem'
      (mem_suggestible_of_asksFor h) (mem_suggestible_of_asksFor h') hne
    have hunordered := DisjointSet.mem_members_of_layout s hs hlayout .unordered (by decide)
    exact ⟨hlayout, (DisjointSet.isFor_congr hs hunordered hmem).trans hfor,
      asksForLayouts_of_ne hb hb' h h' hne⟩
  · rintro ⟨hlayout, hfor, hasks⟩
    have hmem := DisjointSet.mem_members_of_layout s hs hlayout
    obtain ⟨b, hb, h, hne⟩ := hasks.exists_other
    -- a set is for a type as a whole
    have hforb : b.isFor type = true :=
      (DisjointSet.isFor_congr hs (hmem b hb) (hmem .unordered (by decide))).trans hfor
    exact ⟨b, mem_suggestBehaviors.mpr ⟨h, hforb⟩, .unordered,
      mem_suggestBehaviors.mpr ⟨hasks.1, hfor⟩, hmem b hb, hmem .unordered (by decide), hne⟩

/-! ### Resources that declare what is suggested -/

/-- The only errors are conflicts. -/
theorem behaviorErrors_suggestBehaviors (type : String) (c : ContentTraits) :
    behaviorErrors type ((suggestBehaviors type c).map Behavior.name) =
      (conflicts ((suggestBehaviors type c).map Behavior.name)).map .conflict := by
  have hfor : ∀ t ∈ (suggestBehaviors type c).map Behavior.name, tokenError? type t = none := by
    intro t ht
    obtain ⟨b, hb, rfl⟩ := List.mem_map.mp ht
    exact tokenError?_eq_none_iff.mpr ⟨b, rfl, (mem_suggestBehaviors.mp hb).2⟩
  unfold behaviorErrors
  rw [List.filterMap_eq_nil_iff.mpr hfor, List.nil_append]

/-- **A resource that declares the suggestions** has no errors, and ends within any parent with one
member at most of each set, exactly unless its content asks for two layouts and layouts are for its
type. Then layouts are what its errors are about, and the only set of which it ends with more. -/
theorem suggestBehaviors_errors_iff (type : String) (c : ContentTraits) (parent : String)
    (tokens : List String) :
    let own := (suggestBehaviors type c).map Behavior.name
    ((checkBehaviors type own (some parent) (some tokens)).errors = [] ↔
        ¬(Behavior.unordered.isFor type = true ∧ c.AsksForLayouts)) ∧
      (∀ e ∈ (checkBehaviors type own (some parent) (some tokens)).errors,
        ∃ members, e = .conflict ⟨.layout, members⟩) ∧
      ∀ s ∈ DisjointSet.table, s.Contested (effective type own (some (parent, tokens))) ↔
        s.category = .layout ∧ Behavior.unordered.isFor type = true ∧ c.AsksForLayouts := by
  intro own
  have herrors : (checkBehaviors type own (some parent) (some tokens)).errors =
      (conflicts own).map .conflict := behaviorErrors_suggestBehaviors type c
  have hcontested : ∀ s ∈ DisjointSet.table, s.Contested own ↔
      s.category = .layout ∧ Behavior.unordered.isFor type = true ∧ c.AsksForLayouts :=
    fun s hs => contested_suggestBehaviors_iff hs
  refine ⟨?_, fun e he => ?_, fun s hs => ?_⟩
  · rw [herrors, List.map_eq_nil_iff, conflicts_eq_nil_iff_not_contested]
    obtain ⟨s, hs, hlayout, -⟩ := DisjointSet.exists_layout
    constructor
    · intro hnone h
      exact hnone s hs ((hcontested s hs).mpr ⟨hlayout, h⟩)
    · intro hnot s hs h
      exact hnot ((hcontested s hs).mp h).2
  · rw [herrors, conflicts_eq_map, List.map_map] at he
    obtain ⟨s, hs, rfl⟩ := List.mem_map.mp he
    obtain ⟨htable, h⟩ := List.mem_filter.mp hs
    obtain ⟨hlayout, -⟩ := (hcontested s htable).mp (by simpa using h)
    exact ⟨_, by rw [Function.comp_apply, hlayout]⟩
  · rw [DisjointSet.contested_effective_iff hs, hcontested s hs]

/-- A collection of volumes without an order, which play, within a collection that lists two
layouts. -/
theorem suggestBehaviors_errors_iff_of_volumes :
    let own := (suggestBehaviors "Collection" ⟨true, false, true, true, true, false⟩).map
      Behavior.name
    let tokens := ["paged", "no-auto-advance", "continuous", "repeat"]
    own = ["auto-advance", "unordered", "multi-part"] ∧
      (checkBehaviors "Collection" own (some "Collection") (some tokens)).errors = [] ∧
      effective "Collection" own (some ("Collection", tokens)) = own ++ ["repeat"] ∧
      ∀ s ∈ DisjointSet.table, ¬s.Contested (effective "Collection" own
        (some ("Collection", tokens))) := by
  intro own tokens
  have hasks : ¬(⟨true, false, true, true, true, false⟩ : ContentTraits).AsksForLayouts := by decide
  obtain ⟨herrors, -, hsets⟩ := suggestBehaviors_errors_iff "Collection"
    ⟨true, false, true, true, true, false⟩ "Collection" tokens
  exact ⟨by decide +kernel, herrors.mpr fun h => hasks h.2, by decide +kernel,
    fun s hs h => hasks ((hsets s hs).mp h).2.2⟩

/-- The suggestions for a manifest of pages without an order conflict with each other, and all of
them stay in effect. -/
theorem not_uncontested_suggestBehaviors :
    (¬∀ (type : String) (c : ContentTraits) (parent : String) (tokens : List String),
      (checkBehaviors type ((suggestBehaviors type c).map Behavior.name) (some parent)
        (some tokens)).errors = []) ∧
      ¬∀ (type : String) (c : ContentTraits) (parent : String) (tokens : List String),
        ∀ s ∈ DisjointSet.table, ¬s.Contested (effective type
          ((suggestBehaviors type c).map Behavior.name) (some (parent, tokens))) := by
  constructor
  · intro h
    exact absurd (h "Manifest" ⟨false, true, true, false, false, false⟩ "Collection" [])
      (by decide +kernel)
  · intro h
    exact absurd (h "Manifest" ⟨false, true, true, false, false, false⟩ "Collection" [])
      (by decide +kernel)

end IiifRules
