import Mathlib
import IiifRules.Command.Run
import IiifRules.Proofs.Request.Written

/-! # The commands for image request URIs

`image-uri` prints the URI of a request that is in order, and `validate-uri` accepts what it prints.

* `Command.runImageUri_eq`: what `image-uri` ends with where it succeeds.
* `Command.exitCode_validateUri`: where `validate-uri` succeeds.
* `Command.uri_validated`: a request and its URI are judged alike, by the library and by the
  commands. -/

namespace IiifRules.Command

variable {s : Sources} {base b uri : String} {r : Request}

/-! ### One command -/

theorem runImageUri_eq (h : (runImageUri base r).exitCode = 0) : r.Passes none ∧
    ∃ uri, buildImageUri base r = .ok uri ∧ runImageUri base r = .success [uri] := by
  unfold runImageUri at h ⊢
  cases hcheck : r.checkGrammar with
  | error f =>
    rw [hcheck] at h
    cases h
  | ok report =>
    rw [hcheck] at h
    dsimp only at h ⊢
    split_ifs at h ⊢ with hvalid
    · refine ⟨⟨report, hcheck, hvalid⟩, ?_⟩
      cases hbuild : buildImageUri base r with
      | error f =>
        rw [hbuild] at h
        cases h
      | ok uri => exact ⟨uri, rfl, rfl⟩
    · cases h

theorem parse_validateUri (huri : uri.toList.head? ≠ some '-') :
    parse ["validate-uri", uri] = .ok (.validateUri uri none "WARNING") := by
  have hoption : Arguments.isOption uri = false := by
    unfold Arguments.isOption
    split
    · rename_i hchars
      rw [hchars] at huri
      exact absurd rfl huri
    · rfl
  have hend : uri ≠ "--" := by
    rintro rfl
    exact huri rfl
  change parseValidateUri [uri] = _
  simp only [parseValidateUri, Arguments.collect]
  rw [if_neg hend, hoption]
  rfl

theorem exitCode_validateUri {u : ImageUri} (hu : ImageUri.parse uri = .ok u)
    (h : u.request.Passes none) : (runArguments s ["validate-uri", uri]).exitCode = 0 := by
  have huri : uri.toList.head? ≠ some '-' := by
    obtain ⟨scheme, front, last, hscheme, -, htext, -⟩ := ImageUri.parse_eq_ok.mp hu
    rw [htext, Uri.spell]
    rcases hscheme with rfl | rfl <;> simp
  obtain ⟨report, hreport, hvalid⟩ := h
  have hlevel : Log.threshold "WARNING" = .ok 30 := by decide +kernel
  unfold runArguments
  rw [parse_validateUri huri]
  unfold run runValidateUri
  dsimp only
  rw [hlevel, hu]
  unfold judgeUri
  dsimp only
  rw [hreport]
  dsimp only
  rw [if_pos hvalid]
  rfl

/-! ### One command after the other -/

/-- **A request and its URI are judged alike.** An exact request in order is written as a URI of
which the parts are the base and the texts of its axes, and the request of the URI is judged like
it, alone and for every service; and what `image-uri` prints for the base is the URI of such a
request, which `validate-uri` accepts. -/
theorem uri_validated (hbase : parseInfoUri (buildInfoUri base) = .ok b) :
    (∀ r : Request, r.IsExact → r.Passes none → ∃ uri u, buildImageUri base r = .ok uri ∧
      ImageUri.parse uri = .ok u ∧ u.base = Uri.trimBase base ∧
      r.region.regionText = .ok u.region ∧ r.size.sizeText = .ok u.size ∧
      r.rotation.rotationText = .ok u.rotation ∧ r.quality.shown = .ok u.quality ∧
      r.format.shown = .ok u.format ∧ ∀ d?, u.request.check d? = r.check d?) ∧
    ∀ (s : Sources) (args : List String) (region size rotation quality format : String),
      parse args = .ok (.imageUri base region size rotation quality format) →
      (runArguments s args).exitCode = 0 → ∃ uri, runArguments s args = .success [uri] ∧
        (runArguments s ["validate-uri", uri]).exitCode = 0 := by
  refine ⟨fun r hr h => Request.exists_uri hbase hr h, ?_⟩
  intro s args region size rotation quality format hargs hexit
  have hrun : runArguments s args =
      runImageUri base (.ofTexts region size rotation quality format) := by
    unfold runArguments
    rw [hargs]
    rfl
  rw [hrun] at hexit ⊢
  obtain ⟨hpasses, uri, hbuild, hsuccess⟩ := runImageUri_eq hexit
  have hexact : (Request.ofTexts region size rotation quality format).IsExact :=
    ⟨.text region, .text size, .text rotation, ⟨quality, rfl⟩, ⟨format, rfl⟩⟩
  obtain ⟨uri', u, hbuild', hu, -, -, -, -, -, -, hcheck⟩ :=
    Request.exists_uri hbase hexact hpasses
  rw [hbuild] at hbuild'
  cases hbuild'
  refine ⟨uri, hsuccess, exitCode_validateUri hu ?_⟩
  obtain ⟨report, hreport, hvalid⟩ := hpasses
  exact ⟨report, (hcheck none).trans hreport, hvalid⟩

/-- A base with two slashes at its end, with a rectangle given as a value and a mirrored rotation;
and the line that `image-uri` prints for the same texts. -/
theorem uri_validated_of_slashes :
    let s : Sources := ⟨fun _ => .error .missingFile, ""⟩
    let args := ["image-uri", "https://example.org/iiif/1//", "--region", "10,20,300,400",
      "--size", "^!90,80", "--rotation=!22.5"]
    (∃ u, ImageUri.parse "https://example.org/iiif/1/10,20,300,400/^!90,80/!22.5/gray.png" =
        .ok u ∧ u.base = "https://example.org/iiif/1") ∧
      ∃ uri, runArguments s args = .success [uri] ∧
        (runArguments s ["validate-uri", uri]).exitCode = 0 := by
  intro s args
  have hbase : parseInfoUri (buildInfoUri "https://example.org/iiif/1//") =
      .ok "https://example.org/iiif/1" := by decide +kernel
  obtain ⟨hrequests, hcommands⟩ := uri_validated hbase
  constructor
  · have hregion : (Region.pixels 10 20 300 400).InRange :=
      .pixels ⟨by decide, by decide⟩ ⟨by decide, by decide⟩ ⟨by decide, by decide⟩
        ⟨by decide, by decide⟩
    have hsize : (SizeForm.confined 90 80).InRange :=
      .confined ⟨by decide, by decide⟩ ⟨by decide, by decide⟩
    have hrotation : Rotation.parse "!22.5" = .ok (.ok ⟨.ofDecimal false 225 (-1), true⟩) := by
      decide +kernel
    obtain ⟨uri, u, hbuild, hu, hubase, -⟩ := hrequests
      ⟨.region (.pixels 10 20 300 400), .size ⟨.confined 90 80, true⟩,
        .rotation ⟨.ofDecimal false 225 (-1), true⟩, .text "gray", .text "png"⟩
      ⟨.region hregion trivial, .size hsize trivial, .rotation hrotation, ⟨_, rfl⟩, ⟨_, rfl⟩⟩
      ⟨⟨[], []⟩, by decide +kernel, rfl⟩
    have huri : buildImageUri "https://example.org/iiif/1//"
        ⟨.region (.pixels 10 20 300 400), .size ⟨.confined 90 80, true⟩,
          .rotation ⟨.ofDecimal false 225 (-1), true⟩, .text "gray", .text "png"⟩ =
        .ok "https://example.org/iiif/1/10,20,300,400/^!90,80/!22.5/gray.png" := by
      decide +kernel
    rw [huri] at hbuild
    cases hbuild
    exact ⟨u, hu, hubase.trans (by decide +kernel)⟩
  · exact hcommands s args "10,20,300,400" "^!90,80" "!22.5" "default" "jpg" (by rfl)
      (by decide +kernel)

end IiifRules.Command
