import Mathlib
import IiifRules.Proofs.Behavior.Effective

/-! # What a resource overrides

A resource that declares a behavior keeps out the other members of its disjoint set that it is
offered, its rivals. The report looks for rivals among all tokens of the parent, whatever may be
inherited; it finds the same ones, since a set is for a type as a whole.

* `behaviorErrors_eq_nil_iff`: what a resource without errors declares.
* `mem_warnings_overrides`: which overrides a report names.
* `overrides_iff_rivals`: they are the rivals, none of which is effective. -/

namespace IiifRules

variable {child parent type token : String} {own tokens names : List String} {s : DisjointSet}

/-! ### Resources without errors -/

theorem tokenError?_eq_none_iff :
    tokenError? type token = none ↔ ∃ b : Behavior, token = b.name ∧ b.isFor type = true := by
  unfold tokenError?
  constructor
  · intro h
    split at h
    · cases h
    · next b hb =>
      split_ifs at h with hfor
      exact ⟨b, Behavior.ofToken?_eq_some.mp hb, hfor⟩
  · rintro ⟨b, rfl, hfor⟩
    rw [Behavior.ofToken?_name]
    exact if_pos hfor

theorem behaviorErrors_eq_nil_iff : behaviorErrors type own = [] ↔
    (∀ t ∈ own, ∃ b : Behavior, t = b.name ∧ b.isFor type = true) ∧ conflicts own = [] := by
  unfold behaviorErrors
  rw [List.append_eq_nil_iff, List.filterMap_eq_nil_iff, List.map_eq_nil_iff]
  simp only [tokenError?_eq_none_iff]

/-- A set of which a resource without errors declares a member is for its type. -/
theorem isFor_of_declared (h : behaviorErrors type own = []) (hs : s ∈ DisjointSet.table)
    (htoken : token ∈ own) (hst : s.holds token = true) : ∀ b ∈ s.members, b.isFor type = true := by
  obtain ⟨c, rfl, hc⟩ := (behaviorErrors_eq_nil_iff.mp h).1 token htoken
  intro b hb
  rw [← hc]
  exact DisjointSet.isFor_congr hs hb (DisjointSet.holds_name.mp hst)

/-! ### Overrides in a report -/

/-- The tokens of a parent that disagree with a token of a set. -/
def DisjointSet.others (s : DisjointSet) (token : String) (tokens : List String) : List String :=
  (distinct tokens).filter fun t => s.holds t && t ≠ token

theorem overrideWarning?_eq_some {w : BehaviorWarning} : overrideWarning? tokens token = some w ↔
    ∃ s, DisjointSet.ofToken? token = some s ∧ s.others token tokens ≠ [] ∧
      w = .overrides token (s.others token tokens) := by
  unfold overrideWarning?
  cases DisjointSet.ofToken? token with
  | none => simp
  | some s =>
    change (if (s.others token tokens).isEmpty then none
      else some (.overrides token (s.others token tokens))) = some w ↔ _
    by_cases hnil : s.others token tokens = []
    · simp [hnil]
    · simp [hnil, @eq_comm _ w]

theorem mem_warnings_overrides :
    BehaviorWarning.overrides token names ∈
        (checkBehaviors child own (some parent) (some tokens)).warnings ↔
      InheritanceRule.inheritsFrom child parent = true ∧ token ∈ own ∧
        ∃ s, DisjointSet.ofToken? token = some s ∧ s.others token tokens ≠ [] ∧
          names = s.others token tokens := by
  have hrequires : ∀ t, requirementWarning? t ≠ some (.overrides token names) := by
    intro t h
    unfold requirementWarning? at h
    split at h
    · obtain ⟨requirement, -, h⟩ := Option.map_eq_some_iff.mp h
      cases h
    · cases h
  have hpaging : ∀ t, pagingWarning? t ≠ some (.overrides token names) := by
    intro t h
    unfold pagingWarning? at h
    split_ifs at h
    cases h
  have hpagings : BehaviorWarning.overrides token names ∉
      pagingWarnings child (distinct own) (some parent) (some tokens) := by
    unfold pagingWarnings
    dsimp only
    split_ifs <;> simp [hpaging]
  have hparent : BehaviorWarning.overrides token names ∈
      parentWarnings child (distinct own) (some parent) (some tokens) ↔
        InheritanceRule.inheritsFrom child parent = true ∧
          ∃ t ∈ own, overrideWarning? tokens t = some (.overrides token names) := by
    unfold parentWarnings
    dsimp only
    split_ifs with h <;> simp [h, mem_distinct]
  unfold checkBehaviors
  simp only [List.mem_append, List.mem_filterMap, hrequires, and_false, exists_false, or_false,
    hpagings, hparent, overrideWarning?_eq_some, BehaviorWarning.overrides.injEq]
  constructor
  · rintro ⟨hinherits, t, ht, s, hs, hne, rfl, rfl⟩
    exact ⟨hinherits, ht, s, hs, hne, rfl⟩
  · rintro ⟨hinherits, ht, s, hs, hne, rfl⟩
    exact ⟨hinherits, token, ht, s, hs, hne, rfl, rfl⟩

/-! ### Rivals -/

/-- **The rivals of a token**: the other members of its set that the resource is offered. -/
def rivals (child parent : String) (tokens : List String) (token : String) : List Behavior :=
  (inherited child parent tokens).filter fun b =>
    (DisjointSet.ofToken? token).any (·.holds b.name) && b.name ≠ token

theorem of_mem_rivals {b : Behavior} (h : b ∈ rivals child parent tokens token) :
    InheritanceRule.inheritsFrom child parent = true ∧ ∃ s ∈ DisjointSet.table,
      s.holds token = true ∧ s.holds b.name = true ∧ b.name ≠ token := by
  obtain ⟨hb, h⟩ := List.mem_filter.mp h
  rw [Bool.and_eq_true, decide_eq_true_eq] at h
  obtain ⟨s, hs, hsb⟩ := (Option.any_eq_true _ _).mp h.1
  obtain ⟨htable, hst⟩ := DisjointSet.ofToken?_eq_some.mp hs
  refine ⟨?_, s, htable, hst, hsb, h.2⟩
  by_contra hinherits
  rw [inherited_eq_nil (by simpa using hinherits)] at hb
  cases hb

/-- The tokens of the parent that disagree with one are its rivals if its set is for the type of the
resource. -/
theorem map_rivals (tokens : List String)
    (hinherits : InheritanceRule.inheritsFrom child parent = true)
    (hs : DisjointSet.ofToken? token = some s) (hfor : ∀ b ∈ s.members, b.isFor child = true) :
    (rivals child parent tokens token).map Behavior.name = s.others token tokens := by
  have hsplit : ∀ l : List String, l.filter (fun t => s.holds t && t ≠ token) =
      (l.filter s.holds).filter (· ≠ token) := by
    intro l
    rw [List.filter_comm, List.filter_filter]
  have hrivals : rivals child parent tokens token = (inherited child parent tokens).filter
      ((fun t => s.holds t && t ≠ token) ∘ Behavior.name) := by
    unfold rivals
    rw [hs]
    rfl
  rw [hrivals, ← List.filter_map, hsplit, map_inherited_filter hinherits hfor, ← filter_distinct,
    ← hsplit]
  rfl

/-- **A report names the rivals** of each token that a resource without errors declares, and none of
them is effective. -/
theorem overrides_iff_rivals
    (hvalid : (checkBehaviors child own (some parent) (some tokens)).valid = true)
    (htoken : token ∈ own) :
    (∀ names, BehaviorWarning.overrides token names ∈
        (checkBehaviors child own (some parent) (some tokens)).warnings ↔
      rivals child parent tokens token ≠ [] ∧
        names = (rivals child parent tokens token).map Behavior.name) ∧
      ∀ b ∈ rivals child parent tokens token,
        b.name ∉ effective child own (some (parent, tokens)) := by
  have herrors : behaviorErrors child own = [] := List.isEmpty_iff.mp hvalid
  refine ⟨fun names => ?_, fun b hb hmem => ?_⟩
  · rw [mem_warnings_overrides]
    constructor
    · rintro ⟨hinherits, -, s, hs, hne, rfl⟩
      obtain ⟨htable, hst⟩ := DisjointSet.ofToken?_eq_some.mp hs
      have hmap := map_rivals tokens hinherits hs
        (isFor_of_declared herrors htable htoken hst)
      rw [← hmap] at hne ⊢
      exact ⟨fun h => hne (by rw [h]; rfl), rfl⟩
    · rintro ⟨hne, rfl⟩
      obtain ⟨b, hb⟩ := List.exists_mem_of_ne_nil _ hne
      obtain ⟨hinherits, s, htable, hst, -⟩ := of_mem_rivals hb
      have hs := DisjointSet.ofToken?_eq_some.mpr ⟨htable, hst⟩
      have hmap := map_rivals tokens hinherits hs
        (isFor_of_declared herrors htable htoken hst)
      exact ⟨hinherits, htoken, s, hs, by rw [← hmap]; simpa using hne, hmap⟩
  · -- together with the token it would be a conflict, and inheritance brings in none
    obtain ⟨-, s, htable, hst, hsb, hne⟩ := of_mem_rivals hb
    have hconflicts : conflicts (effective child own (some (parent, tokens))) = [] := by
      rw [conflicts_effective]
      exact (behaviorErrors_eq_nil_iff.mp herrors).2
    exact hne (conflicts_eq_nil_iff.mp hconflicts s htable _ hmem hsb _
      (mem_effective_of_mem htoken) hst)

/-- A range that overrides the layout of a range around it, which lists several of them, one of them
twice and among tokens that no range may inherit. -/
theorem overrides_iff_rivals_of_layout :
    let own := ["no-nav", "paged"]
    let tokens := ["continuous", "hidden", "paged", "sideways", "unordered", "continuous"]
    (checkBehaviors "Range" own (some "Range") (some tokens)).valid = true ∧ "paged" ∈ own ∧
      rivals "Range" "Range" tokens "paged" = [.continuous, .unordered] ∧
      BehaviorWarning.overrides "paged" ["continuous", "unordered"] ∈
        (checkBehaviors "Range" own (some "Range") (some tokens)).warnings ∧
      "unordered" ∉ effective "Range" own (some ("Range", tokens)) := by
  intro own tokens
  have hvalid : (checkBehaviors "Range" own (some "Range") (some tokens)).valid = true := by
    decide +kernel
  have hmem : "paged" ∈ own := by decide
  have hrivals : rivals "Range" "Range" tokens "paged" = [.continuous, .unordered] := by
    decide +kernel
  obtain ⟨hwarnings, hkept⟩ := overrides_iff_rivals hvalid hmem
  refine ⟨hvalid, hmem, hrivals, (hwarnings _).mpr ?_, hkept .unordered ?_⟩
  · rw [hrivals]
    exact ⟨by decide, rfl⟩
  · rw [hrivals]
    decide

end IiifRules
