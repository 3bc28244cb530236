import Mathlib
import IiifRules.Proofs.Uri.Segments

/-! # The texts of an image request URI

An image request URI is taken apart without reading its segments, so the texts that are accepted
can be said in terms of segments alone.

* `Uri.IsImageUri`: the form of an image request URI.
* `ImageUri.Spells`, `ImageUri.parse_eq_ok`: what a text is taken apart into.
* `ImageUri.parse_of_segments`: the segments of a base and those of a request.
* `ImageUri.build_of_spells`: the parts of a text are put together to it again.
* `ImageUri.parse_rebuilt`: exactly the texts of the form are accepted, and each is what its parts
  are put together to. -/

namespace IiifRules

open Text

/-! ### The last segment -/

namespace Uri

/-- A segment with one point in it, which is neither its first nor its last character. -/
structure HasInnerPoint (s : List Char) : Prop where
  count_eq_one : s.count '.' = 1
  head_ne : s.head? ≠ some '.'
  last_ne : s.getLast? ≠ some '.'

/-- **A quality and a format** with a point between them. -/
structure AroundPoint (s quality format : List Char) : Prop where
  eq_append : s = quality ++ '.' :: format
  quality_ne_nil : quality ≠ []
  format_ne_nil : format ≠ []
  noPointBefore : '.' ∉ quality
  noPointAfter : '.' ∉ format

variable {s quality format : List Char}

theorem splitLast?_eq_some : splitLast? s = some (quality, format) ↔ AroundPoint s quality format := by
  constructor
  · intro h
    unfold splitLast? at h
    rcases cut_cases '.' s with ⟨-, hcut⟩ | ⟨q, f, hq, rfl, hcut⟩
    · rw [hcut] at h
      cases h
    · rw [hcut] at h
      dsimp only at h
      split_ifs at h with hparts
      cases h
      simp only [Bool.or_eq_true, not_or, List.isEmpty_iff, List.contains_iff_mem] at hparts
      exact ⟨rfl, hparts.1.1, hparts.1.2, hq, hparts.2⟩
  · rintro ⟨rfl, hq, hf, hqdot, hfdot⟩
    unfold splitLast?
    rw [cut_append hqdot]
    simp [hq, hf, hfdot]

/-- **The only point of a segment** has text on both sides exactly if a quality and a format stand
around it. -/
theorem hasInnerPoint_iff : HasInnerPoint s ↔ ∃ quality format, AroundPoint s quality format := by
  constructor
  · rintro ⟨hcount, hhead, hlast⟩
    have hmem : '.' ∈ s := List.count_pos_iff.mp (by omega)
    obtain ⟨quality, format, rfl, hq⟩ := List.eq_append_cons_of_mem hmem
    rw [List.count_append, List.count_cons_self, List.count_eq_zero_of_not_mem hq] at hcount
    refine ⟨quality, format, rfl, ?_, ?_, hq, List.count_eq_zero.mp (by omega)⟩
    · rintro rfl
      exact hhead rfl
    · rintro rfl
      exact hlast (by simp)
  · rintro ⟨quality, format, rfl, hq, hf, hqdot, hfdot⟩
    refine ⟨?_, ?_, ?_⟩
    · rw [List.count_append, List.count_cons_self, List.count_eq_zero_of_not_mem hqdot,
        List.count_eq_zero_of_not_mem hfdot]
    · rw [List.head?_append_of_ne_nil _ hq]
      intro h
      exact hqdot (List.mem_of_mem_head? h)
    · rw [List.getLast?_append_of_ne_nil _ (by simp), List.getLast?_cons_of_ne_nil hf]
      intro h
      exact hfdot (List.mem_of_getLast? h)

/-! ### The segments -/

/-- **The form of an image request URI**: a scheme and at least six proper segments, the last of
which has one point with text on both sides. -/
def IsImageUri (uri : String) : Prop :=
  ∃ scheme segments last, IsScheme scheme ∧ uri.toList = spell scheme (segments ++ [last]) ∧
    5 ≤ segments.length ∧ (∀ s ∈ segments ++ [last], IsSegment s) ∧ HasInnerPoint last

variable {scheme : List Char} {segments : List (List Char)} {u : ImageUri}

/-- **The parts of segments**: those of a request after a base, which ends with the identifier. -/
theorem partsOfSegments_eq_ok : partsOfSegments scheme segments = .ok u ↔ ∃ front last,
    segments = front ++ [u.identifier.toList, u.region.toList, u.size.toList, u.rotation.toList,
      last] ∧ AroundPoint last u.quality.toList u.format.toList ∧
    u.base = joinSegments scheme (front ++ [u.identifier.toList]) := by
  unfold partsOfSegments
  constructor
  · intro h
    split at h
    · rename_i last rotation size region identifier front hrev
      split at h
      · rename_i quality format hlast
        cases h
        refine ⟨front.reverse, last, ?_, ?_, ?_⟩
        · rw [← List.reverse_reverse segments, hrev]
          simp
        · simpa using splitLast?_eq_some.mp hlast
        · simp
      · cases h
    · cases h
  · rintro ⟨front, last, rfl, hlast, hbase⟩
    rw [List.reverse_append]
    simp only [List.reverse_cons, List.reverse_nil, List.nil_append, List.cons_append]
    rw [splitLast?_eq_some.mpr hlast]
    simp [← hbase]

/-- At least five segments are at least one and four more. -/
theorem exists_eq_append_four (h : 5 ≤ segments.length) : ∃ front identifier region size rotation,
    front ≠ [] ∧ segments = front ++ [identifier, region, size, rotation] := by
  have hlength : (segments.drop (segments.length - 4)).length = 4 := by
    rw [List.length_drop]
    omega
  obtain ⟨identifier, region, size, rotation, hdrop⟩ := List.length_eq_four.mp hlength
  refine ⟨segments.take (segments.length - 4), identifier, region, size, rotation, ?_, ?_⟩
  · apply List.ne_nil_of_length_pos
    rw [List.length_take]
    omega
  · rw [← hdrop, List.take_append_drop]

end Uri

/-! ### Texts and parts -/

namespace ImageUri

open Uri

variable {uri : String} {u : ImageUri}

/-- **The parts of a text**: a scheme and proper segments, first those of a base that ends with the
identifier, then those of a request. -/
def Spells (uri : String) (u : ImageUri) : Prop :=
  ∃ scheme front last, IsScheme scheme ∧ front ≠ [] ∧
    uri.toList = spell scheme (front ++ [u.identifier.toList, u.region.toList, u.size.toList,
      u.rotation.toList, last]) ∧
    (∀ s ∈ front ++ [u.identifier.toList, u.region.toList, u.size.toList, u.rotation.toList, last],
      IsSegment s) ∧
    AroundPoint last u.quality.toList u.format.toList ∧
    u.base.toList = spell scheme (front ++ [u.identifier.toList])

/-- **A text is taken apart** into its parts, and into nothing else. -/
theorem parse_eq_ok : parse uri = .ok u ↔ Spells uri u := by
  unfold parse
  constructor
  · intro h
    split at h
    · cases h
    · rename_i scheme segments hsplit
      obtain ⟨hscheme, htext, hlength, hsegments⟩ := splitSegments_eq_ok.mp hsplit
      obtain ⟨front, last, rfl, hlast, hbase⟩ :=
        partsOfSegments_eq_ok.mp (Outcome.mapError_eq_ok.mp h)
      refine ⟨scheme, front, last, hscheme, ?_, htext, hsegments, hlast, ?_⟩
      · rintro rfl
        simp at hlength
      · rw [hbase, joinSegments, String.toList_ofList]
        rfl
  · rintro ⟨scheme, front, last, hscheme, hfront, htext, hsegments, hlast, hbase⟩
    have hlength := List.length_pos_iff.mpr hfront
    rw [splitSegments_eq_ok.mpr ⟨hscheme, htext, by simp; omega, hsegments⟩]
    refine Outcome.mapError_eq_ok.mpr (partsOfSegments_eq_ok.mpr ⟨front, last, rfl, hlast, ?_⟩)
    rw [joinSegments, ← String.ofList_toList (s := u.base), hbase]
    rfl

theorem parse_of_segments {scheme : List Char} {segments : List (List Char)}
    {region size rotation quality format : List Char} (hscheme : IsScheme scheme)
    (hlength : 2 ≤ segments.length) (hsegments : ∀ s ∈ segments, IsSegment s)
    (hregion : IsSegment region) (hsize : IsSegment size) (hrotation : IsSegment rotation)
    (hquality : IsSegment quality) (hformat : IsSegment format) (hqdot : '.' ∉ quality)
    (hfdot : '.' ∉ format) (huri : uri.toList =
      spell scheme (segments ++ [region, size, rotation, quality ++ '.' :: format])) :
    ∃ u, parse uri = .ok u ∧
      u.request = .ofTexts (String.ofList region) (String.ofList size) (String.ofList rotation)
        (String.ofList quality) (String.ofList format) := by
  have hlast : IsSegment (quality ++ '.' :: format) := by
    constructor
    · simp
    · simp [hquality.noSlash, hformat.noSlash]
    · simp [hquality.noQuery, hformat.noQuery]
    · simp [hquality.noFragment, hformat.noFragment]
  have hparts : AroundPoint (quality ++ '.' :: format) quality format :=
    ⟨rfl, hquality.ne_nil, hformat.ne_nil, hqdot, hfdot⟩
  -- The last segment of the base is the identifier.
  rcases List.eq_nil_or_concat segments with rfl | ⟨front, identifier, rfl⟩
  · simp at hlength
  · have hfront : front ≠ [] := by
      rintro rfl
      simp at hlength
    rw [List.concat_eq_append] at *
    refine ⟨⟨joinSegments scheme (front ++ [identifier]), String.ofList identifier,
      String.ofList region, String.ofList size, String.ofList rotation, String.ofList quality,
      String.ofList format⟩, parse_eq_ok.mpr ⟨scheme, front, quality ++ '.' :: format, hscheme,
        hfront, ?_⟩, rfl⟩
    simp only [String.toList_ofList, joinSegments]
    refine ⟨by simpa using huri, ?_, hparts, rfl⟩
    intro s hs
    simp only [List.mem_append, List.mem_cons, List.not_mem_nil, or_false] at hs hsegments
    rcases hs with hs | rfl | rfl | rfl | rfl | rfl
    · exact hsegments s (.inl hs)
    · exact hsegments _ (.inr rfl)
    · exact hregion
    · exact hsize
    · exact hrotation
    · exact hlast

theorem exists_spells_iff : (∃ u, Spells uri u) ↔ IsImageUri uri := by
  constructor
  · rintro ⟨u, scheme, front, last, hscheme, hfront, htext, hsegments, hlast, -⟩
    have hsplit : front ++ [u.identifier.toList, u.region.toList, u.size.toList,
        u.rotation.toList, last] = (front ++ [u.identifier.toList, u.region.toList, u.size.toList,
        u.rotation.toList]) ++ [last] := by simp
    rw [hsplit] at htext hsegments
    have hlength := List.length_pos_iff.mpr hfront
    exact ⟨scheme, _, last, hscheme, htext, by simp; omega, hsegments,
      hasInnerPoint_iff.mpr ⟨_, _, hlast⟩⟩
  · rintro ⟨scheme, segments, last, hscheme, htext, hlength, hsegments, hlast⟩
    obtain ⟨front, identifier, region, size, rotation, hfront, rfl⟩ :=
      exists_eq_append_four hlength
    obtain ⟨quality, format, hparts⟩ := hasInnerPoint_iff.mp hlast
    rw [List.append_assoc] at htext hsegments
    refine ⟨⟨joinSegments scheme (front ++ [identifier]), String.ofList identifier,
      String.ofList region, String.ofList size, String.ofList rotation, String.ofList quality,
      String.ofList format⟩, scheme, front, last, hscheme, hfront, ?_⟩
    simp only [String.toList_ofList, joinSegments]
    exact ⟨htext, hsegments, hparts, rfl⟩

/-! ### Putting a text together again -/

theorem trimBase_of_last {base : String} (h : base.toList.getLast? ≠ some '/') :
    trimBase base = base := by
  have hdrop : dropEnd (· = '/') base.toList = base.toList := by
    unfold dropEnd
    rw [List.dropWhile_eq_self_iff.mpr, List.reverse_reverse]
    intro hpos
    rw [List.getLast?_eq_head?_reverse, List.head?_eq_getElem?] at h
    simpa [List.getElem?_eq_getElem hpos] using h
  rw [trimBase, hdrop, String.ofList_toList]

theorem request_path (u : ImageUri) : u.request.path = .ok (u.region ++ "/" ++ u.size ++ "/" ++
    u.rotation ++ "/" ++ u.quality ++ "." ++ u.format) := rfl

theorem build_of_spells (h : Spells uri u) : buildImageUri u.base u.request = .ok uri := by
  obtain ⟨scheme, front, last, hscheme, hfront, htext, hsegments, hlast, hbase⟩ := h
  have hidentifier : IsSegment u.identifier.toList := hsegments _ (by simp)
  have hend : u.base.toList.getLast? ≠ some '/' := by
    rw [hbase, spell_append hfront (by simp), List.getLast?_append_of_ne_nil _ (by simp), join,
      List.getLast?_cons_of_ne_nil hidentifier.ne_nil]
    intro h
    exact hidentifier.noSlash (List.mem_of_getLast? h)
  unfold buildImageUri
  rw [request_path, trimBase_of_last hend]
  refine congrArg Except.ok (String.toList_inj.mp ?_)
  rw [htext, show ∀ a b c d e, front ++ [a, b, c, d, e] = (front ++ [a]) ++ [b, c, d, e] by simp,
    spell_append (by simp) (by simp), ← hbase, hlast.eq_append]
  simp [join]

theorem last_of_spells (h : Spells uri u) :
    (fields '/' u.base.toList).getLast? = some u.identifier.toList := by
  obtain ⟨scheme, front, last, -, -, -, hsegments, -, hbase⟩ := h
  have hall : ∀ s ∈ front ++ [u.identifier.toList], IsSegment s := by
    intro s hs
    refine hsegments s ?_
    simp only [List.mem_append, List.mem_cons, List.not_mem_nil, or_false] at hs ⊢
    tauto
  rw [hbase, getLast?_fields_spell (by simp) hall, List.getLast?_concat]

/-- **Exactly the texts of the form are accepted**, and an accepted text is what its base and its
request are put together to; the identifier is the last segment of the base. -/
theorem parse_rebuilt (uri : String) : ((∃ u, parse uri = .ok u) ↔ IsImageUri uri) ∧
    ∀ u, parse uri = .ok u → buildImageUri u.base u.request = .ok uri ∧
      (fields '/' u.base.toList).getLast? = some u.identifier.toList := by
  constructor
  · rw [← exists_spells_iff]
    exact exists_congr fun u => parse_eq_ok
  · intro u hu
    have hspells := parse_eq_ok.mp hu
    exact ⟨build_of_spells hspells, last_of_spells hspells⟩

/-- A base with a port and with points in its segments; the size and the rotation after it are
none, but they are not read. -/
theorem parse_rebuilt_of_points : ∃ u,
    parse "https://example.org:80/a.b/http:x.y/pct:1,2,3,4.5/^!90,/none/a:b.c" = .ok u ∧
      IsImageUri "https://example.org:80/a.b/http:x.y/pct:1,2,3,4.5/^!90,/none/a:b.c" ∧
      buildImageUri "https://example.org:80/a.b/http:x.y" u.request =
        .ok "https://example.org:80/a.b/http:x.y/pct:1,2,3,4.5/^!90,/none/a:b.c" ∧
      u.identifier = "http:x.y" := by
  have hparse : parse "https://example.org:80/a.b/http:x.y/pct:1,2,3,4.5/^!90,/none/a:b.c" =
      .ok ⟨"https://example.org:80/a.b/http:x.y", "http:x.y", "pct:1,2,3,4.5", "^!90,", "none",
        "a:b", "c"⟩ := by decide +kernel
  obtain ⟨hform, hbuild⟩ :=
    parse_rebuilt "https://example.org:80/a.b/http:x.y/pct:1,2,3,4.5/^!90,/none/a:b.c"
  exact ⟨_, hparse, hform.mp ⟨_, hparse⟩, (hbuild _ hparse).1, rfl⟩

end ImageUri

end IiifRules
