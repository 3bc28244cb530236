import Mathlib
import IiifRules.Proofs.Outcome
import IiifRules.Proofs.Text.Fields
import IiifRules.Uri.Image

/-! # URIs as scheme and segments

* `Uri.splitSegments_eq_ok`: the texts that are taken apart are exactly those that a scheme and
  proper segments are put together to.
* `Uri.parseInfoUri_eq_ok`: the information URIs that are accepted, and their bases.
* `Uri.exists_segments_of_parseInfoUri`: a base of which the information URI is accepted is a scheme
  and at least two proper segments, followed by slashes. -/

namespace IiifRules.Uri

open Text

/-! ### Proper segments -/

/-- A segment is not empty and holds no character that ends it. -/
structure IsSegment (s : List Char) : Prop where
  ne_nil : s ≠ []
  noSlash : '/' ∉ s
  noQuery : '?' ∉ s
  noFragment : '#' ∉ s

/-- The schemes of image services. -/
def IsScheme (scheme : List Char) : Prop := scheme = "http".toList ∨ scheme = "https".toList

/-- **A scheme and segments** as the characters of a URI. -/
def spell (scheme : List Char) (segments : List (List Char)) : List Char :=
  scheme ++ "://".toList ++ join '/' segments

variable {scheme rest cs : List Char} {segments : List (List Char)} {count : ℕ}

theorem httpRest?_eq_some :
    httpRest? cs = some (scheme, rest) ↔ IsScheme scheme ∧ cs = scheme ++ "://".toList ++ rest := by
  unfold httpRest? IsScheme
  constructor
  · intro h
    split at h
    · rename_i r hr
      cases h
      exact ⟨.inl rfl, after?_eq_some.mp hr⟩
    · rename_i r hr
      cases h
      exact ⟨.inr rfl, after?_eq_some.mp hr⟩
    · cases h
  · rintro ⟨rfl | rfl, rfl⟩
    · rw [show "http".toList ++ "://".toList ++ rest = "http://".toList ++ rest from rfl,
        after?_append]
    · have hnot : ¬"http://".toList <+: "https".toList ++ "://".toList ++ rest := by simp
      rw [after?_eq_none.mpr hnot, show "https".toList ++ "://".toList ++ rest =
        "https://".toList ++ rest from rfl, after?_append]

theorem isSegment_of_mem_fields (hchars : '?' ∉ rest ∧ '#' ∉ rest)
    (hne : ∀ s ∈ fields '/' rest, s ≠ []) : ∀ s ∈ fields '/' rest, IsSegment s := by
  intro s hs
  have hmem : ∀ c ∈ s, c ∈ rest := by
    intro c hc
    rw [← join_fields '/' rest]
    exact mem_join_of_mem hs hc
  exact ⟨hne s hs, sep_notMem_of_mem_fields hs, fun h => hchars.1 (hmem _ h),
    fun h => hchars.2 (hmem _ h)⟩

theorem noQuery_of_isSegment (h : ∀ s ∈ segments, IsSegment s) :
    '?' ∉ join '/' segments ∧ '#' ∉ join '/' segments := by
  constructor
  · intro hc
    rcases mem_join hc with hc | ⟨s, hs, hc⟩
    · cases hc
    · exact (h s hs).noQuery hc
  · intro hc
    rcases mem_join hc with hc | ⟨s, hs, hc⟩
    · cases hc
    · exact (h s hs).noFragment hc

/-- **What is taken apart** is exactly what a scheme and proper segments are put together to. -/
theorem splitSegments_eq_ok : splitSegments count cs = .ok (scheme, segments) ↔
    IsScheme scheme ∧ cs = spell scheme segments ∧ count + 1 ≤ segments.length ∧
      ∀ s ∈ segments, IsSegment s := by
  unfold splitSegments spell
  constructor
  · intro h
    split at h
    · cases h
    · rename_i s rest hrest
      obtain ⟨hscheme, rfl⟩ := httpRest?_eq_some.mp hrest
      dsimp only at h
      split_ifs at h with hchars hfew hempty
      injection h with h
      obtain ⟨rfl, rfl⟩ := Prod.mk.inj h
      simp only [Bool.or_eq_true, List.contains_iff_mem, not_or] at hchars
      refine ⟨hscheme, by rw [join_fields], by omega, isSegment_of_mem_fields hchars ?_⟩
      intro s hs
      rintro rfl
      exact hempty (List.any_eq_true.mpr ⟨[], hs, rfl⟩)
  · rintro ⟨hscheme, hcs, hcount, hsegments⟩
    have hne : segments ≠ [] := List.ne_nil_of_length_pos (by omega)
    have hchars := noQuery_of_isSegment hsegments
    rw [httpRest?_eq_some.mpr ⟨hscheme, hcs⟩]
    dsimp only
    rw [fields_join hne fun s hs => (hsegments s hs).noSlash,
      if_neg (by simpa using hchars), if_neg (by omega), if_neg]
    rw [List.any_eq_true]
    rintro ⟨s, hs, hempty⟩
    exact (hsegments s hs).ne_nil (List.isEmpty_iff.mp hempty)

theorem spell_append {more : List (List Char)} (h : segments ≠ []) (hmore : more ≠ []) :
    spell scheme (segments ++ more) = spell scheme segments ++ '/' :: join '/' more := by
  unfold spell
  rw [join_append h hmore, List.append_assoc _ (join '/' segments)]

/-- The last segment of a URI is what stands behind its last slash. -/
theorem getLast?_fields_spell (hne : segments ≠ []) (h : ∀ s ∈ segments, IsSegment s) :
    (fields '/' (spell scheme segments)).getLast? = segments.getLast? := by
  have hslashes : spell scheme segments = (scheme ++ [':', '/']) ++ '/' :: join '/' segments := by
    rw [spell]
    simp
  rw [hslashes, fields_append_sep, fields_join hne fun s hs => (h s hs).noSlash,
    List.getLast?_append_of_ne_nil _ hne]

/-! ### Bases -/

/-- **A URI of a host and at least `count` segments after it**, none of them empty. -/
def IsUri (count : ℕ) (uri : String) : Prop :=
  ∃ scheme segments, IsScheme scheme ∧ uri.toList = spell scheme segments ∧
    count + 1 ≤ segments.length ∧ ∀ s ∈ segments, IsSegment s

theorem toList_append_info {base : String} (h : segments ≠ [])
    (hbase : base.toList = spell scheme segments) :
    (base ++ "/info.json").toList = spell scheme (segments ++ ["info.json".toList]) := by
  rw [spell_append h (by simp), String.toList_append, hbase]
  rfl

/-- **The information URIs that are accepted** are those of a host and at least one segment, and
what stands before the last segment is their base. -/
theorem parseInfoUri_eq_ok {uri base : String} :
    parseInfoUri uri = .ok base ↔ IsUri 1 base ∧ uri = base ++ "/info.json" := by
  have hinfo : IsSegment "info.json".toList := ⟨by decide, by decide, by decide, by decide⟩
  constructor
  · intro h
    unfold parseInfoUri at h
    split at h
    · cases h
    · rename_i scheme segments hsplit
      split_ifs at h with hlast
      obtain ⟨hscheme, htext, hlength, hsegments⟩ := splitSegments_eq_ok.mp hsplit
      have hparts : segments.dropLast ++ ["info.json".toList] = segments :=
        List.dropLast_append_getLast? _ hlast
      have hdrop : 1 + 1 ≤ segments.dropLast.length := by
        rw [List.length_dropLast]
        omega
      have hbase : base.toList = spell scheme segments.dropLast := by
        cases h
        exact String.toList_ofList
      refine ⟨⟨scheme, segments.dropLast, hscheme, hbase, hdrop,
        fun s hs => hsegments s (List.dropLast_subset _ hs)⟩, String.toList_inj.mp ?_⟩
      rw [toList_append_info (List.ne_nil_of_length_pos (by omega)) hbase, hparts, htext]
  · rintro ⟨⟨scheme, segments, hscheme, hbase, hlength, hsegments⟩, rfl⟩
    have htext := toList_append_info (List.ne_nil_of_length_pos (by omega)) hbase
    have hall : ∀ s ∈ segments ++ ["info.json".toList], IsSegment s := by
      intro s hs
      rcases List.mem_append.mp hs with hs | hs
      · exact hsegments s hs
      · rw [List.mem_singleton.mp hs]
        exact hinfo
    have hcount : 2 + 1 ≤ (segments ++ ["info.json".toList]).length := by
      rw [List.length_append, List.length_singleton]
      omega
    unfold parseInfoUri
    rw [splitSegments_eq_ok.mpr ⟨hscheme, htext, hcount, hall⟩]
    dsimp only
    rw [if_pos (by simp), List.dropLast_concat, joinSegments]
    refine congrArg Except.ok (String.toList_inj.mp ?_)
    rw [String.toList_ofList, hbase]
    rfl

/-- **A base of which the information URI is accepted** is a scheme and at least two proper
segments, apart from slashes at its end. -/
theorem exists_segments_of_parseInfoUri {base b : String}
    (h : parseInfoUri (buildInfoUri base) = .ok b) : ∃ scheme segments, IsScheme scheme ∧
      2 ≤ segments.length ∧ (∀ s ∈ segments, IsSegment s) ∧
      (trimBase base).toList = spell scheme segments := by
  obtain ⟨⟨scheme, segments, hscheme, hb, hlength, hsegments⟩, hbuild⟩ := parseInfoUri_eq_ok.mp h
  have htrim : trimBase base = b := by
    have hchars := congrArg String.toList hbuild
    rw [buildInfoUri, String.toList_append, String.toList_append] at hchars
    exact String.toList_inj.mp (List.append_cancel_right hchars)
  exact ⟨scheme, segments, hscheme, hlength, hsegments, htrim ▸ hb⟩

end IiifRules.Uri
