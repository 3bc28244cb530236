import Mathlib
import IiifRules.Text.Fields

/-! # Texts put together and taken apart

* `fields_join`: parts without the separator come back as they were joined.
* `cut_cases`: a text has no separator, or it is the two parts around the first one.
* `after?_eq_some`: a text has the beginning and goes on with the rest. -/

namespace IiifRules.Text

variable {sep : Char}

/-! ### Parts between separators -/

theorem fields_of_notMem {f : List Char} (h : sep ∉ f) : fields sep f = [f] := by
  induction f with
  | nil => rfl
  | cons c cs ih =>
    rw [List.mem_cons, not_or] at h
    rw [fields, if_neg (Ne.symm h.1), ih h.2]

theorem fields_append {f : List Char} (h : sep ∉ f) (rest : List Char) :
    fields sep (f ++ sep :: rest) = f :: fields sep rest := by
  induction f with
  | nil => rw [List.nil_append, fields, if_pos rfl]
  | cons c cs ih =>
    rw [List.mem_cons, not_or] at h
    rw [List.cons_append, fields, if_neg (Ne.symm h.1), ih h.2]

/-- **The parts around a separator** are those before it and those after it. -/
theorem fields_append_sep (a b : List Char) :
    fields sep (a ++ sep :: b) = fields sep a ++ fields sep b := by
  induction a with
  | nil => simp [fields]
  | cons c cs ih =>
    rw [List.cons_append, fields, fields, ih]
    split_ifs with hc
    · rfl
    · obtain ⟨f, fs, hf⟩ := List.exists_cons_of_ne_nil (fields_ne_nil sep cs)
      rw [hf, List.cons_append]
      rfl

/-- What stands behind the last separator is the last part. -/
theorem getLast?_fields {f : List Char} (h : sep ∉ f) (a : List Char) :
    (fields sep (a ++ sep :: f)).getLast? = some f := by
  rw [fields_append_sep, fields_of_notMem h, List.getLast?_concat]

/-- **Parts without the separator** come back as they were joined. -/
theorem fields_join {fs : List (List Char)} (hne : fs ≠ []) (h : ∀ f ∈ fs, sep ∉ f) :
    fields sep (join sep fs) = fs := by
  induction fs with
  | nil => exact absurd rfl hne
  | cons f fs ih =>
    have hf : sep ∉ f := h f (by simp)
    cases fs with
    | nil => exact fields_of_notMem hf
    | cons g gs =>
      rw [join, fields_append hf, ih (by simp) fun x hx => h x (by simp [hx])]
      simp

theorem sep_notMem_of_mem_fields {cs f : List Char} (h : f ∈ fields sep cs) : sep ∉ f := by
  induction cs generalizing f with
  | nil =>
    rw [fields, List.mem_singleton] at h
    simp [h]
  | cons c cs ih =>
    rw [fields] at h
    split_ifs at h with hc
    · rcases List.mem_cons.mp h with rfl | h
      · simp
      · exact ih h
    · obtain ⟨g, gs, hg⟩ := List.exists_cons_of_ne_nil (fields_ne_nil sep cs)
      rw [hg] at h ih
      rcases List.mem_cons.mp h with rfl | h
      · simp [Ne.symm hc, ih (List.mem_cons_self)]
      · exact ih (List.mem_cons_of_mem _ h)

theorem join_cons {f : List Char} {fs : List (List Char)} (h : fs ≠ []) :
    join sep (f :: fs) = f ++ sep :: join sep fs := by
  obtain ⟨g, gs, rfl⟩ := List.exists_cons_of_ne_nil h
  simp [join]

theorem join_append {fs gs : List (List Char)} (hf : fs ≠ []) (hg : gs ≠ []) :
    join sep (fs ++ gs) = join sep fs ++ sep :: join sep gs := by
  induction fs with
  | nil => exact absurd rfl hf
  | cons f fs ih =>
    rw [List.cons_append, join_cons (by simp [hg])]
    by_cases hfs : fs = []
    · rw [hfs]; rfl
    · rw [ih hfs, join_cons hfs]
      simp

/-- The characters of joined parts are those of the parts and the separator. -/
theorem mem_join {fs : List (List Char)} {c : Char} (h : c ∈ join sep fs) :
    c = sep ∨ ∃ f ∈ fs, c ∈ f := by
  induction fs with
  | nil => cases h
  | cons f fs ih =>
    by_cases hfs : fs = []
    · rw [hfs] at h ⊢
      right
      exact ⟨f, by simp, h⟩
    · rw [join_cons hfs, List.mem_append, List.mem_cons] at h
      rcases h with h | h | h
      · right
        exact ⟨f, by simp, h⟩
      · left
        exact h
      · rcases ih h with h | ⟨g, hg, h⟩
        · left
          exact h
        · right
          exact ⟨g, by simp [hg], h⟩

theorem mem_join_of_mem {fs : List (List Char)} {f : List Char} {c : Char} (hf : f ∈ fs)
    (h : c ∈ f) : c ∈ join sep fs := by
  induction fs with
  | nil => cases hf
  | cons g gs ih =>
    by_cases hgs : gs = []
    · rw [hgs, List.mem_singleton] at hf
      rw [hgs, ← hf]
      exact h
    · rw [join_cons hgs, List.mem_append, List.mem_cons]
      rcases List.mem_cons.mp hf with rfl | hf
      · left
        exact h
      · right
        right
        exact ih hf

/-- A part is a stretch of the text. -/
theorem infix_of_mem_join {fs : List (List Char)} {f : List Char} (hf : f ∈ fs) :
    f <:+: join sep fs := by
  induction fs with
  | nil => cases hf
  | cons g gs ih =>
    by_cases hgs : gs = []
    · rw [hgs, List.mem_singleton] at hf
      rw [hgs, hf]
      exact List.infix_rfl
    · rw [join_cons hgs]
      rcases List.mem_cons.mp hf with rfl | hf
      · exact (List.prefix_append _ _).isInfix
      · exact (ih hf).trans ((List.suffix_cons _ _).trans (List.suffix_append _ _)).isInfix

theorem infix_of_mem_fields {cs f : List Char} (h : f ∈ fields sep cs) : f <:+: cs := by
  have hjoin : f <:+: join sep (fields sep cs) := infix_of_mem_join h
  rwa [join_fields] at hjoin

/-! ### The first separator -/

theorem cut_of_notMem {cs : List Char} (h : sep ∉ cs) : cut sep cs = (cs, none) := by
  have hdrop : cs.dropWhile (· ≠ sep) = [] := by
    rw [List.dropWhile_eq_nil_iff]
    intro c hc
    simp only [ne_eq, decide_eq_true_eq]
    rintro rfl
    exact h hc
  rw [cut, hdrop]

theorem cut_append {a : List Char} (h : sep ∉ a) (b : List Char) :
    cut sep (a ++ sep :: b) = (a, some b) := by
  have ha : ∀ c ∈ a, decide (c ≠ sep) = true := by
    intro c hc
    simp only [ne_eq, decide_eq_true_eq]
    rintro rfl
    exact h hc
  rw [cut, List.dropWhile_append_of_pos ha, List.dropWhile_cons_of_neg (by simp)]
  dsimp only
  rw [List.takeWhile_append_of_pos ha, List.takeWhile_cons_of_neg (by simp), List.append_nil]

/-- **A text has no separator, or it is the two parts** around the first one. -/
theorem cut_cases (sep : Char) (cs : List Char) :
    (sep ∉ cs ∧ cut sep cs = (cs, none)) ∨
      ∃ a b, sep ∉ a ∧ cs = a ++ sep :: b ∧ cut sep cs = (a, some b) := by
  by_cases h : sep ∈ cs
  · right
    obtain ⟨a, b, rfl, ha⟩ := List.eq_append_cons_of_mem h
    exact ⟨a, b, ha, rfl, cut_append ha b⟩
  · left
    exact ⟨h, cut_of_notMem h⟩

/-! ### A given beginning -/

/-- **A text has the beginning** and goes on with the rest. -/
theorem after?_eq_some {beginning cs rest : List Char} :
    after? beginning cs = some rest ↔ cs = beginning ++ rest := by
  unfold after?
  split_ifs with h
  · rw [List.isPrefixOf_iff_prefix] at h
    obtain ⟨r, rfl⟩ := h
    simp [eq_comm]
  · constructor
    · intro h'; cases h'
    · rintro rfl
      exact absurd (List.isPrefixOf_iff_prefix.mpr (List.prefix_append _ _)) h

theorem after?_append (beginning rest : List Char) :
    after? beginning (beginning ++ rest) = some rest := after?_eq_some.mpr rfl

theorem after?_eq_none {beginning cs : List Char} :
    after? beginning cs = none ↔ ¬beginning <+: cs := by
  unfold after?
  split_ifs with h
  · simpa using List.isPrefixOf_iff_prefix.mp h
  · simpa using mt List.isPrefixOf_iff_prefix.mpr h

/-- **A text with a mark that may be left out** is the mark, if it is there, and the rest. -/
theorem eq_of_marked {mark cs body : List Char} {marked : Bool}
    (h : (match after? mark cs with
      | some rest => (true, rest)
      | none => (false, cs)) = (marked, body)) :
    cs = (if marked then mark else []) ++ body := by
  split at h
  · rename_i rest hrest
    cases h
    exact after?_eq_some.mp hrest
  · cases h
    rfl

end IiifRules.Text
