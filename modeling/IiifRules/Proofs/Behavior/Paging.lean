import Mathlib
import IiifRules.Proofs.Behavior.Override

/-! # Canvases among pages

A canvas may say how it stands among pages, which has a meaning only within a manifest that is
paged. The report looks for that layout in the list of the manifest, and the canvas is given it by
inheritance. The two agree: no layout is for canvases, so that none is declared, and the layout of a
manifest without conflicts comes down as it is.

* `filter_effective_canvas`: the layout that a canvas ends with.
* `paged_mem_effective_iff`: whether it is that of pages.
* `message_ne_of_mem`: no other warning reads like those about paging.
* `count_message_needsPaged`: when a report has the warning. -/

namespace IiifRules

variable {type token : String} {own tokens : List String} {s : DisjointSet} {w : BehaviorWarning}

/-! ### The layout of a canvas -/

/-- Layouts pass from a manifest to its canvases. -/
theorem exists_canvas_rule : ∃ r,
    InheritanceRule.find? ResourceType.canvas.name ResourceType.manifest.name = some r ∧
      r.inherits = true ∧ ∀ s ∈ DisjointSet.table, s.category = .layout → ∀ b ∈ s.members,
        r.passes ResourceType.canvas.name b = true :=
  ⟨⟨.canvas, .manifest, true, [.layout],
    "Canvases inherit from their Manifest; its layout decides canvas paging"⟩,
    by decide, rfl, by decide⟩

/-- No layout is for canvases. -/
theorem isFor_canvas_of_layout : ∀ s ∈ DisjointSet.table, s.category = .layout →
    ∀ b ∈ s.members, b.isFor ResourceType.canvas.name = false := by
  decide

/-- **The layout that a canvas ends with**: it is the first one of the manifest, if the canvas has
no errors. -/
theorem filter_effective_canvas (hown : behaviorErrors ResourceType.canvas.name own = [])
    (hs : s ∈ DisjointSet.table) (hc : s.category = .layout) :
    (effective ResourceType.canvas.name own
      (some (ResourceType.manifest.name, tokens))).filter s.holds =
        (tokens.find? s.holds).toList := by
  obtain ⟨r, hr, hinherits, hpasses⟩ := exists_canvas_rule
  have hnone : ¬own.any s.holds = true := by
    rintro hany
    obtain ⟨t, ht, hst⟩ := List.any_eq_true.mp hany
    obtain ⟨b, hb, -⟩ := DisjointSet.holds_iff.mp hst
    have := isFor_of_declared hown hs ht hst b hb
    rw [isFor_canvas_of_layout s hs hc b hb] at this
    cases this
  refine (filter_effective_of_offered hs ?_).trans (if_neg hnone)
  exact map_inherited_filter_of_passes hr hinherits (hpasses s hs hc)

/-- **A canvas without errors is among pages** if the manifest, in which nothing conflicts, is
paged. -/
theorem paged_mem_effective_iff (hown : behaviorErrors ResourceType.canvas.name own = [])
    (hparent : conflicts tokens = []) :
    Behavior.paged.name ∈ effective ResourceType.canvas.name own
      (some (ResourceType.manifest.name, tokens)) ↔ Behavior.paged.name ∈ tokens := by
  obtain ⟨s, hs, hc, hpaged⟩ := DisjointSet.exists_layout
  have hfirst : Behavior.paged.name ∈ effective ResourceType.canvas.name own
      (some (ResourceType.manifest.name, tokens)) ↔
        tokens.find? s.holds = some Behavior.paged.name := by
    rw [← Option.mem_toList, ← filter_effective_canvas hown hs hc, List.mem_filter]
    exact (and_iff_left hpaged).symm
  rw [hfirst]
  constructor
  · exact List.mem_of_find?_eq_some
  · intro hmem
    -- the manifest has a layout, and it has only one
    obtain ⟨t, ht⟩ := Option.isSome_iff_exists.mp
      (List.find?_isSome.mpr ⟨Behavior.paged.name, hmem, hpaged⟩)
    have heq := conflicts_eq_nil_iff.mp hparent s hs t (List.mem_of_find?_eq_some ht)
      (List.find?_some ht) _ hmem hpaged
    rw [ht, heq]

/-! ### Messages apart

The message about paging ends with an `r`, and no other message does. -/

theorem getLast?_append_text {s t : String} (h : t ≠ "") :
    (s ++ t).toList.getLast? = t.toList.getLast? := by
  rw [String.toList_append, List.getLast?_append_of_ne_nil _ (by simpa using h)]

theorem getLast?_needsPaged (token : String) :
    (BehaviorWarning.needsPaged token).message.toList.getLast? = some 'r' :=
  (getLast?_append_text (by decide)).trans rfl

theorem getLast?_overrides (token : String) (parents : List String) :
    (BehaviorWarning.overrides token parents).message.toList.getLast? = some '.' :=
  (getLast?_append_text (by decide)).trans rfl

theorem getLast?_requirement (b : Behavior) :
    ∀ r ∈ b.requirement?, r ≠ "" ∧ r.toList.getLast? ≠ some 'r' := by
  cases b <;> simp [Behavior.requirement?]

theorem message_needsPaged_injective :
    Function.Injective (BehaviorWarning.message ∘ BehaviorWarning.needsPaged) := by
  intro t t' h
  simpa [BehaviorWarning.message] using h

theorem overrides_of_mem_parentWarnings {parentType? : Option String}
    {parents? : Option (List String)} (h : w ∈ parentWarnings type own parentType? parents?) :
    ∃ t names, w = .overrides t names := by
  unfold parentWarnings at h
  split at h
  · split_ifs at h
    · obtain ⟨t, -, hw⟩ := List.mem_filterMap.mp h
      obtain ⟨s, -, -, rfl⟩ := overrideWarning?_eq_some.mp hw
      exact ⟨t, _, rfl⟩
    · cases h
  · cases h

theorem requires_of_requirementWarning? (h : requirementWarning? token = some w) :
    ∃ b : Behavior, ∃ r ∈ b.requirement?, w = .requires token r := by
  unfold requirementWarning? at h
  split at h
  · next b _ =>
    obtain ⟨r, hr, rfl⟩ := Option.map_eq_some_iff.mp h
    exact ⟨b, r, hr, rfl⟩
  · cases h

/-- **No other warning reads like those about paging.** -/
theorem message_ne_of_mem {parentType? : Option String} {parents? : Option (List String)}
    (h : w ∈ parentWarnings type own parentType? parents? ++ own.filterMap requirementWarning?)
    (token : String) : w.message ≠ (BehaviorWarning.needsPaged token).message := by
  intro heq
  have hlast : w.message.toList.getLast? = some 'r' := by rw [heq, getLast?_needsPaged]
  rcases List.mem_append.mp h with h | h
  · obtain ⟨t, names, rfl⟩ := overrides_of_mem_parentWarnings h
    rw [getLast?_overrides] at hlast
    exact absurd hlast (by decide)
  · obtain ⟨t, -, hw⟩ := List.mem_filterMap.mp h
    obtain ⟨b, r, hr, rfl⟩ := requires_of_requirementWarning? hw
    obtain ⟨hne, hend⟩ := getLast?_requirement b r hr
    exact hend ((getLast?_append_text hne).symm.trans hlast)

/-! ### The warning about paging -/

/-- **A token is about paging.** -/
def IsAboutPaging (token : String) : Prop :=
  token = Behavior.facingPages.name ∨ token = Behavior.nonPaged.name

instance (token : String) : Decidable (IsAboutPaging token) :=
  inferInstanceAs (Decidable (token = Behavior.facingPages.name ∨ token = Behavior.nonPaged.name))

/-- The warnings about paging of a canvas within a manifest. -/
theorem pagingWarnings_eq (own tokens : List String) :
    pagingWarnings ResourceType.canvas.name own (some ResourceType.manifest.name) (some tokens) =
      if Behavior.paged.name ∈ tokens then []
      else (own.filter fun t => IsAboutPaging t).map .needsPaged := by
  have hfilter : own.filterMap pagingWarning? =
      (own.filter fun t => IsAboutPaging t).map .needsPaged := by
    rw [← List.filterMap_eq_map, List.filterMap_filter]
    refine List.filterMap_congr fun t _ => ?_
    by_cases ht : IsAboutPaging t
    · exact (if_pos ht).trans (by simp [ht])
    · exact (if_neg ht).trans (by simp [ht])
  unfold pagingWarnings
  rw [← hfilter]
  by_cases hpaged : Behavior.paged.name ∈ tokens
  · simp [hpaged]
  · simp [hpaged]

/-- **The warning about paging** stands in a report about a canvas without errors, within a manifest
in which nothing conflicts, once for each token about paging that the canvas declares, if the canvas
does not end with the layout of pages; otherwise it does not stand there. -/
theorem count_message_needsPaged
    (hvalid : (checkBehaviors ResourceType.canvas.name own (some ResourceType.manifest.name)
      (some tokens)).valid = true)
    (hparent : conflicts tokens = []) (token : String) :
    ((checkBehaviors ResourceType.canvas.name own (some ResourceType.manifest.name)
        (some tokens)).warnings.map BehaviorWarning.message).count
          (BehaviorWarning.needsPaged token).message =
      if IsAboutPaging token ∧ token ∈ own ∧
          Behavior.paged.name ∉ effective ResourceType.canvas.name own
            (some (ResourceType.manifest.name, tokens)) then 1
      else 0 := by
  have hothers : ∀ ws : List BehaviorWarning,
      (∀ w ∈ ws, w.message ≠ (BehaviorWarning.needsPaged token).message) →
        (ws.map BehaviorWarning.message).count (BehaviorWarning.needsPaged token).message = 0 := by
    intro ws hws
    rw [List.count_eq_zero, List.mem_map]
    rintro ⟨w, hw, heq⟩
    exact hws w hw heq
  simp only [paged_mem_effective_iff (List.isEmpty_iff.mp hvalid) hparent]
  unfold checkBehaviors
  dsimp only
  rw [List.map_append, List.count_append, hothers _ fun w hw => message_ne_of_mem hw token,
    Nat.zero_add, pagingWarnings_eq]
  by_cases hpaged : Behavior.paged.name ∈ tokens
  · simp [hpaged]
  · -- the tokens are distinct, and so are the messages about them
    rw [if_neg hpaged, List.map_map]
    refine (List.count_map_of_injective _ _ message_needsPaged_injective token).trans ?_
    rw [((nodup_distinct own).filter _).count]
    simp [mem_distinct, hpaged, and_comm]

/-- A canvas that is left out among pages and says so twice, within a manifest that shows each
canvas alone. -/
theorem count_message_needsPaged_of_individuals :
    let own := ["non-paged", "auto-advance", "non-paged"]
    let tokens := ["hidden", "individuals", "sideways", "no-auto-advance", "individuals"]
    (checkBehaviors "Canvas" own (some "Manifest") (some tokens)).valid = true ∧
      conflicts tokens = [] ∧
      effective "Canvas" own (some ("Manifest", tokens)) = own ++ ["individuals"] ∧
      ((checkBehaviors "Canvas" own (some "Manifest") (some tokens)).warnings.map
        BehaviorWarning.message).count
          "Behavior \"non-paged\" is only meaningful when the Manifest has \"paged\" behavior" =
            1 := by
  intro own tokens
  have hvalid : (checkBehaviors "Canvas" own (some "Manifest") (some tokens)).valid = true := by
    decide +kernel
  have hparent : conflicts tokens = [] := by decide +kernel
  have heffective : effective "Canvas" own (some ("Manifest", tokens)) = own ++ ["individuals"] := by
    decide +kernel
  refine ⟨hvalid, hparent, heffective, (count_message_needsPaged hvalid hparent "non-paged").trans ?_⟩
  refine if_pos ⟨Or.inr rfl, by decide, fun hmem => ?_⟩
  exact absurd (heffective ▸ hmem : "paged" ∈ own ++ ["individuals"]) (by decide)

end IiifRules
