import Mathlib
import IiifRules.Proofs.Request.Judged
import IiifRules.Proofs.Uri.ImageUri

/-! # Information URIs

The URI of a service's information is its base followed by one more segment. Where the base is long
enough, such a URI has the form of an image request URI as well; but then `info` stands where the
quality does, so that the request is in order for nobody.

* `Uri.trimBase_append_slashes`: slashes at the end of a base are left out.
* `Uri.parseInfoUri_buildInfoUri`: a base comes back from the URI of its information.
* `ImageUri.quality_of_info`: what an information URI asks for as an image request URI.
* `infoUri_separate`: both round trips, and that no information URI is a request in order. -/

namespace IiifRules

open Text

/-! ### Slashes at the end -/

namespace Uri

variable {count : ℕ} {uri base : String}

/-- The last character of a URI of proper segments is no slash. -/
theorem IsUri.last_ne (h : IsUri count uri) : uri.toList.getLast? ≠ some '/' := by
  obtain ⟨scheme, segments, -, htext, hlength, hsegments⟩ := h
  have hne : segments ≠ [] := List.ne_nil_of_length_pos (by omega)
  intro hslash
  -- Behind a slash at the end there is an empty segment.
  have hend : uri.toList = uri.toList.dropLast ++ '/' :: [] :=
    (List.dropLast_append_getLast? _ hslash).symm
  have hlast := @getLast?_fields_spell scheme _ hne hsegments
  rw [← htext, hend, getLast?_fields List.not_mem_nil] at hlast
  have hempty : [] ∈ segments := List.mem_of_getLast? hlast.symm
  exact (hsegments _ hempty).ne_nil rfl

theorem dropEnd_append_replicate (cs : List Char) (n : ℕ) (c : Char) :
    dropEnd (· = c) (cs ++ List.replicate n c) = dropEnd (· = c) cs := by
  unfold dropEnd
  rw [List.reverse_append, List.reverse_replicate, List.dropWhile_append_of_pos]
  intro d hd
  rw [List.eq_of_mem_replicate hd]
  exact decide_eq_true rfl

/-- **Slashes at the end of a base are left out.** -/
theorem trimBase_append_slashes (base : String) (n : ℕ) :
    trimBase (base ++ String.ofList (List.replicate n '/')) = trimBase base := by
  unfold trimBase
  rw [String.toList_append, String.toList_ofList, dropEnd_append_replicate]

/-- **A base comes back** from the URI of its information, without slashes at its end. -/
theorem parseInfoUri_buildInfoUri (h : IsUri 1 base) (n : ℕ) :
    parseInfoUri (buildInfoUri (base ++ String.ofList (List.replicate n '/'))) = .ok base := by
  refine parseInfoUri_eq_ok.mpr ⟨h, ?_⟩
  rw [buildInfoUri, trimBase_append_slashes, ImageUri.trimBase_of_last h.last_ne]

theorem buildInfoUri_of_parseInfoUri (h : parseInfoUri uri = .ok base) :
    buildInfoUri base = uri := by
  obtain ⟨hbase, rfl⟩ := parseInfoUri_eq_ok.mp h
  rw [buildInfoUri, ImageUri.trimBase_of_last hbase.last_ne]

end Uri

/-! ### Information URIs among image request URIs -/

namespace ImageUri

open Uri

variable {uri base : String} {u : ImageUri}

/-- **What an information URI asks for** if it is taken for an image request URI. -/
theorem quality_of_info (hinfo : parseInfoUri uri = .ok base) (hu : parse uri = .ok u) :
    u.quality = "info" ∧ u.format = "json" := by
  obtain ⟨-, rfl⟩ := parseInfoUri_eq_ok.mp hinfo
  obtain ⟨scheme, front, last, -, -, htext, hsegments, hparts, -⟩ := parse_eq_ok.mp hu
  -- The last segment, once of the information URI and once of the image request URI.
  have hinfo : (fields '/' (base ++ "/info.json").toList).getLast? = some "info.json".toList := by
    have hsep : (base ++ "/info.json").toList = base.toList ++ '/' :: "info.json".toList := by
      rw [String.toList_append]
      rfl
    rw [hsep, getLast?_fields (by decide)]
  have hlast := @getLast?_fields_spell scheme _ (by simp) hsegments
  rw [← htext, hinfo] at hlast
  have hfields : "info.json".toList = last := by simpa using hlast
  rw [← hfields] at hparts
  have hinner : splitLast? "info.json".toList = some ("info".toList, "json".toList) := by decide
  rw [splitLast?_eq_some.mpr hparts] at hinner
  obtain ⟨hquality, hformat⟩ := Prod.mk.inj (Option.some.inj hinner)
  exact ⟨String.toList_inj.mp hquality, String.toList_inj.mp hformat⟩

/-- **The request of an information URI** is in order neither by its syntax nor for a service. -/
theorem not_passes_of_info (hinfo : parseInfoUri uri = .ok base) (hu : parse uri = .ok u)
    (d? : Option Descriptor) : ¬u.request.Passes d? := by
  intro h
  obtain ⟨q, hq⟩ := h.exists_quality
  have hnone : (Segment.text "info").term? Quality = none := by decide
  have hquality : u.request.quality = .text u.quality := rfl
  rw [hquality, (quality_of_info hinfo hu).1, hnone] at hq
  cases hq

end ImageUri

/-! ### Both kinds of URIs -/

/-- **Information URIs and image request URIs do not get confused.** A base comes back from the URI
of its information without the slashes at its end; the base of an accepted URI is put together to
that URI again; and an accepted URI that is taken apart as an image request URI, too, never gives a
request in order, with or without a service. -/
theorem infoUri_separate :
    (∀ (base : String) (n : ℕ), Uri.IsUri 1 base →
      parseInfoUri (buildInfoUri (base ++ String.ofList (List.replicate n '/'))) = .ok base) ∧
    ∀ uri base : String, parseInfoUri uri = .ok base → buildInfoUri base = uri ∧
      ∀ (u : ImageUri) (d? : Option Descriptor) (report : RequestReport),
        ImageUri.parse uri = .ok u → u.request.check d? = .ok report → report.valid = false := by
  refine ⟨fun base n h => Uri.parseInfoUri_buildInfoUri h n, fun uri base hinfo => ?_⟩
  refine ⟨Uri.buildInfoUri_of_parseInfoUri hinfo, fun u d? report hu hreport => ?_⟩
  have hpasses := ImageUri.not_passes_of_info hinfo hu d?
  by_contra hvalid
  exact hpasses ⟨report, hreport, by simpa using hvalid⟩

/-- A base that ends with the segments of a request, with three slashes after it. -/
theorem infoUri_separate_of_long :
    let base := "https://example.org/iiif/full/max/0"
    Uri.IsUri 1 base ∧ parseInfoUri (buildInfoUri (base ++ "///")) = .ok base ∧
      buildInfoUri base = base ++ "/info.json" ∧
      ∃ u report, ImageUri.parse (base ++ "/info.json") = .ok u ∧
        u.request.check none = .ok report ∧ report.valid = false := by
  intro base
  have hbase : Uri.IsUri 1 base := by
    refine ⟨"https".toList, ["example.org".toList, "iiif".toList, "full".toList, "max".toList,
      "0".toList], .inr rfl, by decide +kernel, by decide, ?_⟩
    simp only [List.forall_mem_cons, List.not_mem_nil, false_imp_iff, implies_true, and_true]
    refine ⟨?_, ?_, ?_, ?_, ?_⟩ <;> exact ⟨by decide, by decide, by decide, by decide⟩
  have hinfo : parseInfoUri (base ++ "/info.json") = .ok base := by decide +kernel
  have hu : ImageUri.parse (base ++ "/info.json") =
      .ok ⟨"https://example.org/iiif", "iiif", "full", "max", "0", "info", "json"⟩ := by
    decide +kernel
  have hreport : (Request.ofTexts "full" "max" "0" "info" "json").check none =
      .ok ⟨[.unknownQuality "info", .unknownFormat "json"], []⟩ := by decide +kernel
  obtain ⟨hbuild, hrequest⟩ := infoUri_separate.2 _ base hinfo
  exact ⟨hbase, infoUri_separate.1 base 3 hbase, hbuild, _, _, hu, hreport,
    hrequest _ none _ hu hreport⟩

end IiifRules
