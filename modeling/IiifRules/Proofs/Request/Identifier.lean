import Mathlib
import IiifRules.Proofs.Request.Written
import IiifRules.Proofs.Uri.InfoUri
import IiifRules.Proofs.Uri.Percent

/-! # Identifiers in request URIs

Written as a segment behind the URI of a server, an identifier makes a base; the URI of a request at
that base is taken apart into the same base, the same request, and the segment that the identifier
is read back from.

* `Uri.IsUri.append_segment`: one more segment behind a URI.
* `Request.identifier_kept`: what becomes of an identifier. -/

namespace IiifRules

open Text Uri

/-- **One more segment** behind a URI. -/
theorem Uri.IsUri.append_segment {count : ℕ} {uri : String} {segment : List Char}
    (h : IsUri count uri) (hsegment : IsSegment segment) :
    IsUri (count + 1) (uri ++ "/" ++ String.ofList segment) := by
  obtain ⟨scheme, segments, hscheme, htext, hlength, hsegments⟩ := h
  have hne : segments ≠ [] := List.ne_nil_of_length_pos (by omega)
  refine ⟨scheme, segments ++ [segment], hscheme, ?_, by simpa using hlength, ?_⟩
  · rw [spell_append hne (by simp), ← htext]
    simp [join]
  · intro s hs
    rcases List.mem_append.mp hs with hs | hs
    · exact hsegments s hs
    · rw [List.mem_singleton.mp hs]
      exact hsegment

namespace Request

variable {server id region size rotation quality format : String}

/-- **An identifier is kept.** It is written with letters, digits, four marks and escapes; the URI
of a request in order at the base that it makes behind a server is taken apart into that base, that
segment and that request; and the segment is read back as the identifier. -/
theorem identifier_kept (hid : id ≠ "") (hserver : IsUri 0 server)
    (h : (ofTexts region size rotation quality format).Passes none) :
    Percent.Encoded (Percent.encode id).toList ∧
      (∃ uri u, buildImageUri (server ++ "/" ++ Percent.encode id)
          (ofTexts region size rotation quality format) = .ok uri ∧ ImageUri.parse uri = .ok u ∧
        u.identifier = Percent.encode id ∧ u.base = server ++ "/" ++ Percent.encode id ∧
        u.request = ofTexts region size rotation quality format) ∧
      Percent.decode (Percent.encode id) = id := by
  have hchars : id.toList ≠ [] := by
    intro hnil
    exact hid (String.toList_inj.mp hnil)
  have htext : (Percent.encode id).toList = Percent.encodeChars id.toList := String.toList_ofList
  have hsegment : IsSegment (Percent.encodeChars id.toList) := Percent.isSegment_encodeChars hchars
  refine ⟨?_, ?_, ?_⟩
  · rw [htext]
    exact Percent.encoded_encodeChars _
  · have hbase : IsUri 1 (server ++ "/" ++ Percent.encode id) := hserver.append_segment hsegment
    have hinfo := parseInfoUri_buildInfoUri hbase 0
    have hexact : (ofTexts region size rotation quality format).IsExact :=
      ⟨.text region, .text size, .text rotation, ⟨quality, rfl⟩, ⟨format, rfl⟩⟩
    rw [List.replicate_zero, String.ofList_nil, String.append_empty] at hinfo
    obtain ⟨uri, u, hbuild, hu, hubase, hregion, hsize, hrotation, hquality, hformat, -⟩ :=
      exists_uri hinfo hexact h
    rw [ImageUri.trimBase_of_last hbase.last_ne] at hubase
    refine ⟨uri, u, hbuild, hu, ?_, hubase, ?_⟩
    · -- The identifier is the last segment of the base.
      have hlast := ImageUri.last_of_spells (ImageUri.parse_eq_ok.mp hu)
      have hslash : (server ++ "/" ++ Percent.encode id).toList =
          server.toList ++ '/' :: Percent.encodeChars id.toList := by
        rw [String.toList_append, String.toList_append, htext]
        simp
      rw [hubase, hslash, getLast?_fields hsegment.noSlash, ← htext, Option.some.injEq] at hlast
      exact (String.toList_inj.mp hlast).symm
    · cases hregion
      cases hsize
      cases hrotation
      cases hquality
      cases hformat
      rfl
  · unfold Percent.decode
    rw [htext, Percent.decodeChars_encodeChars, String.ofList_toList]

/-- An identifier with slashes, a space, a percent sign, a point and characters of two, three and
four bytes. -/
theorem identifier_kept_of_shelfmark :
    ("ark:/88435/ä.€%𝄞 1?" ≠ "" ∧ IsUri 0 "https://example.org" ∧
      (ofTexts "square" "^!90,80" "!22.5" "gray" "png").Passes none) ∧
    Percent.encode "ark:/88435/ä.€%𝄞 1?" =
      "ark%3A%2F88435%2F%C3%A4.%E2%82%AC%25%F0%9D%84%9E%201%3F" ∧
    (∃ uri u, buildImageUri
        "https://example.org/ark%3A%2F88435%2F%C3%A4.%E2%82%AC%25%F0%9D%84%9E%201%3F"
        (ofTexts "square" "^!90,80" "!22.5" "gray" "png") = .ok uri ∧ ImageUri.parse uri = .ok u ∧
      u.identifier = "ark%3A%2F88435%2F%C3%A4.%E2%82%AC%25%F0%9D%84%9E%201%3F") ∧
    Percent.decode "ark%3A%2F88435%2F%C3%A4.%E2%82%AC%25%F0%9D%84%9E%201%3F" =
      "ark:/88435/ä.€%𝄞 1?" := by
  have hserver : IsUri 0 "https://example.org" := by
    refine ⟨"https".toList, ["example.org".toList], .inr rfl, by decide +kernel, by decide, ?_⟩
    rw [List.forall_mem_singleton]
    exact ⟨by decide, by decide, by decide, by decide⟩
  have hpasses : (ofTexts "square" "^!90,80" "!22.5" "gray" "png").Passes none :=
    ⟨⟨[], []⟩, by decide +kernel, rfl⟩
  have hencode : Percent.encode "ark:/88435/ä.€%𝄞 1?" =
      "ark%3A%2F88435%2F%C3%A4.%E2%82%AC%25%F0%9D%84%9E%201%3F" := by decide +kernel
  have hbase : "https://example.org" ++ "/" ++
      "ark%3A%2F88435%2F%C3%A4.%E2%82%AC%25%F0%9D%84%9E%201%3F" =
      "https://example.org/ark%3A%2F88435%2F%C3%A4.%E2%82%AC%25%F0%9D%84%9E%201%3F" := by
    decide +kernel
  obtain ⟨-, ⟨uri, u, hbuild, hu, hidentifier, -, -⟩, hdecode⟩ :=
    @identifier_kept _ "ark:/88435/ä.€%𝄞 1?" _ _ _ _ _ (by decide) hserver hpasses
  rw [hencode] at hbuild hidentifier hdecode
  rw [hbase] at hbuild
  exact ⟨⟨by decide, hserver, hpasses⟩, hencode, ⟨uri, u, hbuild, hu, hidentifier⟩, hdecode⟩

end Request

end IiifRules
