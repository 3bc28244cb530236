import Mathlib
import IiifRules.Proofs.Request.Monotone
import IiifRules.Proofs.Request.Total
import IiifRules.Proofs.Segment.Written
import IiifRules.Proofs.Tile.Uri

/-! # Requests judged by their URI

A request that is in order is written as a URI of which each segment is proper, so that the URI is
taken apart into the texts of the axes. Judging these texts is judging the request, as far as each
text is read as the value that was written.

* `ImageUri.exists_parse_of_base`: a base and five proper segments are taken apart into them.
* `Request.check_congr`: requests with equal axes are judged alike.
* `Request.exists_uri`: a request of texts and of values in whole pixels, once in order, is judged
  alike through its URI.
* `Request.exists_report_of_written`: a request of any values in range is in order through its URI
  exactly if no percentage has too many digits. -/

namespace IiifRules

open Numeric Text Segment.Token

/-! ### A base and five segments -/

/-- **A base and the texts of a request** are a URI that is taken apart into them, and into the base
without slashes at its end. -/
theorem ImageUri.exists_parse_of_base {base b region size rotation quality format : String}
    (hbase : parseInfoUri (buildInfoUri base) = .ok b) (hregion : Uri.IsSegment region.toList)
    (hsize : Uri.IsSegment size.toList) (hrotation : Uri.IsSegment rotation.toList)
    (hquality : Uri.IsSegment quality.toList ∧ '.' ∉ quality.toList)
    (hformat : Uri.IsSegment format.toList ∧ '.' ∉ format.toList) :
    ∃ u, parse (Uri.trimBase base ++ "/" ++ (region ++ "/" ++ size ++ "/" ++ rotation ++ "/" ++
        quality ++ "." ++ format)) = .ok u ∧ u.base = Uri.trimBase base ∧ u.region = region ∧
      u.size = size ∧ u.rotation = rotation ∧ u.quality = quality ∧ u.format = format := by
  obtain ⟨scheme, segments, hscheme, hlength, hsegments, hspell⟩ :=
    Uri.exists_segments_of_parseInfoUri hbase
  -- The last segment of the base is the identifier.
  rcases List.eq_nil_or_concat segments with rfl | ⟨front, identifier, rfl⟩
  · simp at hlength
  · rw [List.concat_eq_append] at *
    have hfront : front ≠ [] := by
      rintro rfl
      simp at hlength
    have hlast : Uri.IsSegment (quality.toList ++ '.' :: format.toList) := by
      refine ⟨by simp, ?_, ?_, ?_⟩
      · simp [hquality.1.noSlash, hformat.1.noSlash]
      · simp [hquality.1.noQuery, hformat.1.noQuery]
      · simp [hquality.1.noFragment, hformat.1.noFragment]
    refine ⟨⟨Uri.trimBase base, String.ofList identifier, region, size, rotation, quality, format⟩,
      parse_eq_ok.mpr ⟨scheme, front, quality.toList ++ '.' :: format.toList, hscheme, hfront, ?_,
        ?_, ⟨rfl, hquality.1.ne_nil, hformat.1.ne_nil, hquality.2, hformat.2⟩, ?_⟩,
      rfl, rfl, rfl, rfl, rfl, rfl⟩
    · have hsplit : ∀ a b c d e : List Char, front ++ [a, b, c, d, e] =
          (front ++ [a]) ++ [b, c, d, e] := by simp
      simp only [String.toList_ofList]
      rw [hsplit, Uri.spell_append (by simp) (by simp), ← hspell]
      simp [join]
    · intro s hs
      simp only [String.toList_ofList, List.mem_append, List.mem_cons, List.not_mem_nil,
        or_false] at hs hsegments
      rcases hs with hs | rfl | rfl | rfl | rfl | rfl
      · exact hsegments s (.inl hs)
      · exact hsegments _ (.inr rfl)
      · exact hregion
      · exact hsize
      · exact hrotation
      · exact hlast
    · simp only [String.toList_ofList]
      exact hspell

theorem Segment.exists_checkRegion_none_iff {text : String} {p : Parsed Region}
    (hp : Region.parse text = .ok p) :
    (∃ v, (Segment.text text).checkRegion none none = .ok (.ok v)) ↔ ∃ r, p = .ok r := by
  constructor
  · rintro ⟨v, hv⟩
    obtain ⟨r, hr, -⟩ := checkRegion_eq_ok hv
    exact ⟨r, Except.ok.inj (hp.symm.trans hr)⟩
  · rintro ⟨r, rfl⟩
    refine ⟨.region r, ?_⟩
    unfold checkRegion
    dsimp only
    rw [hp]
    cases r <;> rfl

/-- The name of a term is a proper segment without a point. -/
theorem Segment.isSegment_of_quality {text : String} {q : Quality}
    (h : (Segment.text text).term? Quality = some q) :
    Uri.IsSegment text.toList ∧ '.' ∉ text.toList := by
  rw [← Vocabulary.ofName?_eq_some h]
  exact q.isSegment_name

theorem Segment.isSegment_of_format {text : String} {f : ImageFormat}
    (h : (Segment.text text).term? ImageFormat = some f) :
    Uri.IsSegment text.toList ∧ '.' ∉ text.toList := by
  rw [← Vocabulary.ofName?_eq_some h]
  exact f.isSegment_name

namespace Request

variable {r r' : Request} {base b : String}

/-! ### Requests with equal axes -/

/-- **Requests of which each axis is judged alike** are judged alike. -/
theorem check_congr
    (hregion : ∀ width? height?,
      r.region.checkRegion width? height? = r'.region.checkRegion width? height?)
    (hsize : r.size.readSize = r'.size.readSize)
    (hrotation : r.rotation.readRotation = r'.rotation.readRotation)
    (hquality : r.quality = r'.quality) (hformat : r.format = r'.format)
    (d? : Option Descriptor) : r.check d? = r'.check d? := by
  have hjudge : ∀ t, r.judge t = r'.judge t := by
    intro t
    unfold judge Segment.checkSize Segment.checkRotation
    rw [hregion, hsize, hrotation, hquality, hformat]
  cases d? with
  | none =>
    unfold check checkGrammar
    dsimp only
    rw [hjudge]
  | some d =>
    unfold check checkAgainst
    dsimp only
    rw [hjudge]

/-- **A request is in order by its grammar** if each of its axes is. -/
theorem passes_none_iff_axes : r.Passes none ↔
    (∃ v, r.region.checkRegion none none = .ok (.ok v)) ∧
    (∃ v, r.size.readSize = .ok (.ok v) ∧ v.check none none true = .ok v) ∧
    (∃ v, r.rotation.readRotation = .ok (.ok v) ∧ v.check true true = .ok v) ∧
    (∃ q, r.quality.term? Quality = some q) ∧ ∃ f, r.format.term? ImageFormat = some f := by
  rw [passes_none_iff]
  constructor
  · rintro ⟨a, ha⟩
    have hnone : a.dimensions? = none := by
      have hdimensions := ha.dimensions
      unfold regionDimensions Terms.grammar at hdimensions
      injection hdimensions with hdimensions
      exact hdimensions.symm
    have hsize := ha.size
    rw [hnone] at hsize
    exact ⟨⟨_, ha.region⟩, ⟨_, Segment.checkSize_eq_ok_iff.mp hsize⟩,
      ⟨_, Segment.checkRotation_eq_ok_iff.mp ha.rotation⟩,
      ⟨_, (Segment.checkQuality_eq_ok_iff.mp ha.quality).1⟩,
      ⟨_, (Segment.checkFormat_eq_ok_iff.mp ha.format).1⟩⟩
  · rintro ⟨⟨region, hregion⟩, ⟨size, hsize⟩, ⟨rotation, hrotation⟩, ⟨q, hq⟩, ⟨f, hf⟩⟩
    refine ⟨⟨region, none, size, rotation, q, f⟩, hregion, rfl, ?_, ?_, ?_, ?_⟩
    · exact Segment.checkSize_eq_ok_iff.mpr hsize
    · exact Segment.checkRotation_eq_ok_iff.mpr hrotation
    · exact Segment.checkQuality_eq_ok_iff.mpr ⟨hq, q.mem_terms⟩
    · exact Segment.checkFormat_eq_ok_iff.mpr ⟨hf, f.mem_terms⟩

end Request

/-! ### Axes that are read as they were written -/

namespace Segment

/-- A region as text, or in whole pixels within the bounds of the grammar. -/
inductive IsExactRegion : Segment → Prop
  | text (t : String) : IsExactRegion (.text t)
  | region {r : Region} (h : r.InRange) (hwhole : r.IsWhole) : IsExactRegion (.region r)

/-- A size as text, or in whole pixels within the bounds of the grammar. -/
inductive IsExactSize : Segment → Prop
  | text (t : String) : IsExactSize (.text t)
  | size {s : Size} (h : s.form.InRange) (hwhole : s.form.IsWhole) : IsExactSize (.size s)

/-- A rotation as text, or one that was read from a text. -/
inductive IsExactRotation : Segment → Prop
  | text (t : String) : IsExactRotation (.text t)
  | rotation {t : String} {r : Rotation} (h : Rotation.parse t = .ok (.ok r)) :
      IsExactRotation (.rotation r)

variable {s : Segment}

/-- **A region in order** is written as a proper segment that is judged like it. -/
theorem IsExactRegion.exists_text (h : s.IsExactRegion)
    (hok : ∃ v, s.checkRegion none none = .ok (.ok v)) : ∃ t, s.regionText = .ok t ∧
      Uri.IsSegment t.toList ∧ ∀ width? height?,
        (Segment.text t).checkRegion width? height? = s.checkRegion width? height? := by
  obtain ⟨v, hv⟩ := hok
  cases h with
  | text t =>
    obtain ⟨r, hr, -⟩ := checkRegion_eq_ok hv
    exact ⟨t, rfl, Region.isSegment_of_parse hr, fun _ _ => rfl⟩
  | region hr hwhole =>
    obtain ⟨t, hformat, hparse⟩ := Region.parse_format hr hwhole
    refine ⟨t, hformat, Region.isSegment_of_parse hparse, fun width? height? => ?_⟩
    unfold checkRegion
    dsimp only
    rw [hparse]
    rfl

theorem IsExactSize.exists_text (h : s.IsExactSize) (hok : ∃ v, s.readSize = .ok (.ok v)) :
    ∃ t, s.sizeText = .ok t ∧ Uri.IsSegment t.toList ∧
      (Segment.text t).readSize = s.readSize := by
  obtain ⟨v, hv⟩ := hok
  cases h with
  | text t => exact ⟨t, rfl, Size.isSegment_of_parse hv, rfl⟩
  | size hs hwhole =>
    obtain ⟨t, hformat, hparse⟩ := Size.parse_format hs hwhole
    exact ⟨t, hformat, Size.isSegment_of_parse hparse, hparse⟩

theorem IsExactRotation.exists_text (h : s.IsExactRotation)
    (hok : ∃ v, s.readRotation = .ok (.ok v)) : ∃ t, s.rotationText = .ok t ∧
      Uri.IsSegment t.toList ∧ (Segment.text t).readRotation = s.readRotation := by
  obtain ⟨v, hv⟩ := hok
  cases h with
  | text t => exact ⟨t, rfl, Rotation.isSegment_of_parse hv, rfl⟩
  | @rotation t r hparse =>
    refine ⟨t, ?_, Rotation.isSegment_of_parse hparse, hparse⟩
    rw [← Rotation.format_of_parse hparse]
    rfl

end Segment

namespace Request

variable {r : Request} {base b : String}

/-- **A request of texts and of values that are read as they are written**: regions and sizes in
whole pixels, and rotations that were read. -/
structure IsExact (r : Request) : Prop where
  region : r.region.IsExactRegion
  size : r.size.IsExactSize
  rotation : r.rotation.IsExactRotation
  quality : ∃ t, r.quality = .text t
  format : ∃ t, r.format = .text t

theorem path_of_texts {region size rotation quality format : String}
    (hregion : r.region.regionText = .ok region) (hsize : r.size.sizeText = .ok size)
    (hrotation : r.rotation.rotationText = .ok rotation) (hquality : r.quality = .text quality)
    (hformat : r.format = .text format) : r.path = .ok (region ++ "/" ++ size ++ "/" ++ rotation ++
      "/" ++ quality ++ "." ++ format) := by
  unfold path
  rw [hregion, hsize, hrotation, hquality, hformat]
  rfl

/-- **An exact request in order** is written as a URI of which the parts are the base and the texts
of its axes, and the request of the URI is judged like it. -/
theorem exists_uri (hbase : parseInfoUri (buildInfoUri base) = .ok b) (hr : r.IsExact)
    (h : r.Passes none) : ∃ uri u, buildImageUri base r = .ok uri ∧ ImageUri.parse uri = .ok u ∧
      u.base = Uri.trimBase base ∧ r.region.regionText = .ok u.region ∧
      r.size.sizeText = .ok u.size ∧ r.rotation.rotationText = .ok u.rotation ∧
      r.quality.shown = .ok u.quality ∧ r.format.shown = .ok u.format ∧
      ∀ d?, u.request.check d? = r.check d? := by
  obtain ⟨hregion, ⟨size, hsize, -⟩, ⟨rotation, hrotation, -⟩, ⟨q, hq⟩, ⟨f, hf⟩⟩ :=
    passes_none_iff_axes.mp h
  obtain ⟨rt, hrt, hrtSegment, hrtCheck⟩ := hr.region.exists_text hregion
  obtain ⟨st, hst, hstSegment, hstRead⟩ := hr.size.exists_text ⟨size, hsize⟩
  obtain ⟨ot, hot, hotSegment, hotRead⟩ := hr.rotation.exists_text ⟨rotation, hrotation⟩
  obtain ⟨qt, hqt⟩ := hr.quality
  obtain ⟨ft, hft⟩ := hr.format
  rw [hqt] at hq
  rw [hft] at hf
  obtain ⟨u, hu, hubase, huregion, husize, hurotation, huquality, huformat⟩ :=
    ImageUri.exists_parse_of_base hbase hrtSegment hstSegment hotSegment
      (Segment.isSegment_of_quality hq) (Segment.isSegment_of_format hf)
  refine ⟨_, u, ?_, hu, hubase, by rw [huregion]; exact hrt, by rw [husize]; exact hst,
    by rw [hurotation]; exact hot, by rw [hqt, huquality]; rfl, by rw [hft, huformat]; rfl, ?_⟩
  · unfold buildImageUri
    rw [path_of_texts hrt hst hot hqt hft]
    rfl
  · refine check_congr ?_ ?_ ?_ ?_ ?_
    · intro width? height?
      rw [← hrtCheck, ← huregion]
      rfl
    · rw [← hstRead, ← husize]
      rfl
    · rw [← hotRead, ← hurotation]
      rfl
    · rw [hqt, ← huquality]
      rfl
    · rw [hft, ← huformat]
      rfl

/-! ### Percentages -/

theorem term?_quality (q : Quality) : (Segment.text q.name).term? Quality = some q := by
  cases q <;> rfl

theorem term?_format (f : ImageFormat) : (Segment.text f.name).term? ImageFormat = some f := by
  cases f <;> rfl

theorem exists_check_none {region size rotation quality format : String} {p : Parsed Region}
    {p' : Parsed Size} {p'' : Parsed Rotation} (hregion : Region.parse region = .ok p)
    (hsize : Size.parse size = .ok p') (hrotation : Rotation.parse rotation = .ok p'') :
    ∃ report, (ofTexts region size rotation quality format).check none = .ok report := by
  have hjudge : ∃ j, (ofTexts region size rotation quality format).judge .grammar = .ok j := by
    unfold judge
    refine Outcome.exists_bind ?_ fun j _ => ?_
    · unfold Segment.checkRegion
      refine Outcome.exists_bind ⟨_, Outcome.bind_eq_ok.mpr ⟨p, hregion, rfl⟩⟩ fun v _ => ?_
      cases v with
      | error e => exact ⟨_, rfl⟩
      | ok v =>
        dsimp only [Terms.grammar]
        split
        · contradiction
        · exact ⟨_, rfl⟩
    refine Outcome.exists_bind ⟨none, by cases j <;> rfl⟩ fun dimensions? _ => ?_
    refine Outcome.exists_bind ?_ fun j _ => ?_
    · refine Outcome.exists_bind ⟨p', hsize⟩ fun v _ => ?_
      cases v <;> exact ⟨_, rfl⟩
    refine Outcome.exists_bind ?_ fun j _ => ?_
    · refine Outcome.exists_bind ⟨p'', hrotation⟩ fun v _ => ?_
      cases v <;> exact ⟨_, rfl⟩
    refine Outcome.exists_bind (Segment.exists_checkQuality quality _) fun j _ => ?_
    exact Outcome.exists_bind (Segment.exists_checkFormat format _) fun j _ => ⟨_, rfl⟩
  exact Outcome.exists_bind hjudge fun j _ => ⟨_, rfl⟩

theorem valid_iff_passes {d? : Option Descriptor} {report : RequestReport}
    (h : r.check d? = .ok report) : report.valid = true ↔ r.Passes d? := by
  constructor
  · exact fun hvalid => ⟨report, h, hvalid⟩
  · rintro ⟨report', h', hvalid⟩
    rwa [Except.ok.inj (h.symm.trans h')]

/-- **A request of values in range that is in order** is written as a URI that is taken apart and
judged; the request of the URI is in order exactly if each percentage is written with at most
fifteen digits, zeros before the first other digit of its whole part not counted. -/
theorem exists_report_of_written {region : Region} {size : Size} {rotation : Rotation}
    {text : String} {q : Quality} {f : ImageFormat}
    (hbase : parseInfoUri (buildInfoUri base) = .ok b) (hregion : region.InRange)
    (hsize : size.form.InRange) (hrotation : Rotation.parse text = .ok (.ok rotation))
    (h : (⟨.region region, .size size, .rotation rotation, .text q.name, .text f.name⟩ :
      Request).Passes none) :
    ∃ uri u report, buildImageUri base ⟨.region region, .size size, .rotation rotation,
        .text q.name, .text f.name⟩ = .ok uri ∧ ImageUri.parse uri = .ok u ∧
      u.request.check none = .ok report ∧
      (report.valid = true ↔ region.FewDigits ∧ size.form.FewDigits) := by
  obtain ⟨-, ⟨s, hs, hsCheck⟩, ⟨o, ho, hoCheck⟩, -, -⟩ := passes_none_iff_axes.mp h
  cases hs
  cases ho
  obtain ⟨rt, p, hrt, hrtSegment, hp, hpiff⟩ := Region.exists_written hregion
  obtain ⟨st, p', hst, hstSegment, hp', hfew, hmany⟩ := Size.exists_written hsize
  have hrt' : (Segment.region region).regionText = .ok rt := hrt
  have hst' : (Segment.size size).sizeText = .ok st := hst
  have hot : (Segment.rotation rotation).rotationText = .ok text := by
    rw [← Rotation.format_of_parse hrotation]
    rfl
  obtain ⟨u, hu, -, huregion, husize, hurotation, huquality, huformat⟩ :=
    ImageUri.exists_parse_of_base hbase hrtSegment hstSegment
      (Rotation.isSegment_of_parse hrotation) q.isSegment_name f.isSegment_name
  have hrequest : u.request = ofTexts rt st text q.name f.name := by
    unfold ImageUri.request
    rw [huregion, husize, hurotation, huquality, huformat]
  obtain ⟨report, hreport⟩ :
      ∃ report, (ofTexts rt st text q.name f.name).check none = .ok report :=
    exists_check_none hp hp' hrotation
  refine ⟨_, u, report, ?_, hu, hrequest ▸ hreport, ?_⟩
  · unfold buildImageUri
    rw [path_of_texts hrt' hst' hot rfl rfl]
    rfl
  · rw [valid_iff_passes hreport, passes_none_iff_axes]
    have hregionIff : (∃ v, (Segment.text rt).checkRegion none none = .ok (.ok v)) ↔
        region.FewDigits := (Segment.exists_checkRegion_none_iff hp).trans hpiff
    have hsizeIff : (∃ v, Size.parse st = .ok (.ok v) ∧ v.check none none true = .ok v) ↔
        size.form.FewDigits := by
      rw [hp']
      constructor
      · rintro ⟨v, hv, -⟩
        by_contra hnot
        obtain ⟨e, rfl⟩ := hmany hnot
        cases hv
      · intro hsizeFew
        exact ⟨size, congrArg Except.ok (hfew hsizeFew), hsCheck⟩
    constructor
    · rintro ⟨hv, hs', -⟩
      exact ⟨hregionIff.mp hv, hsizeIff.mp hs'⟩
    · rintro ⟨hregionFew, hsizeFew⟩
      exact ⟨hregionIff.mpr hregionFew, hsizeIff.mpr hsizeFew, ⟨rotation, hrotation, hoCheck⟩,
        ⟨q, term?_quality q⟩, ⟨f, term?_format f⟩⟩

/-- A rectangle that ends in a third of the image, and a size of fifteen digits: both are read
again. -/
theorem exists_report_of_thirds : ∃ uri u report,
    buildImageUri "https://example.org/iiif/1//" ⟨.region (.percent .zero
        (.ofDecimal false 125 (-1)) (.ofDecimal false 333333333333333 (-13)) (.ofInt 50)),
      .size ⟨.percent (.ofDecimal false 333333333333333 (-13)), false⟩,
      .rotation ⟨.ofDecimal false 225 (-1), true⟩, .text Quality.gray.name,
      .text ImageFormat.png.name⟩ = .ok uri ∧ ImageUri.parse uri = .ok u ∧
      u.request.check none = .ok report ∧ report.valid = true := by
  have hbase : parseInfoUri (buildInfoUri "https://example.org/iiif/1//") =
      .ok "https://example.org/iiif/1" := by decide +kernel
  have hregion : (Region.percent .zero (.ofDecimal false 125 (-1))
      (.ofDecimal false 333333333333333 (-13)) (.ofInt 50)).InRange :=
    .percent ⟨by decide +kernel, by decide +kernel⟩ ⟨by decide +kernel, by decide +kernel⟩
      ⟨by decide +kernel, by decide +kernel⟩ ⟨by decide +kernel, by decide +kernel⟩
  have hsize : (⟨.percent (.ofDecimal false 333333333333333 (-13)), false⟩ : Size).form.InRange :=
    .percent ⟨by decide +kernel, by decide +kernel⟩
  have hrotation : Rotation.parse "!22.5" = .ok (.ok ⟨.ofDecimal false 225 (-1), true⟩) := by
    decide +kernel
  obtain ⟨uri, u, report, huri, hu, hreport, hiff⟩ :=
    exists_report_of_written (q := .gray) (f := .png) hbase hregion hsize
      hrotation ⟨⟨[], []⟩, by decide +kernel, rfl⟩
  refine ⟨uri, u, report, huri, hu, hreport, hiff.mpr ⟨?_, ?_⟩⟩
  · unfold Region.FewDigits
    decide +kernel
  · unfold SizeForm.FewDigits
    decide +kernel

/-- A third of a hundred percent has seventeen digits, so that it is in order but not its URI. -/
theorem not_passes_of_written : ¬ ∀ (base b text : String) (region : Region) (size : Size)
    (rotation : Rotation) (q : Quality) (f : ImageFormat),
    parseInfoUri (buildInfoUri base) = .ok b → region.InRange → size.form.InRange →
    Rotation.parse text = .ok (.ok rotation) →
    (⟨.region region, .size size, .rotation rotation, .text q.name, .text f.name⟩ :
      Request).Passes none →
    ∃ uri u, buildImageUri base ⟨.region region, .size size, .rotation rotation, .text q.name,
        .text f.name⟩ = .ok uri ∧ ImageUri.parse uri = .ok u ∧ u.request.Passes none := by
  intro h
  have hthird : (SizeForm.percent (.ofRatio false 100 3)).InRange :=
    .percent ⟨by decide +kernel, by decide +kernel⟩
  obtain ⟨uri, u, huri, hu, report, hreport, hvalid⟩ :=
    h "https://example.org/iiif/1" "https://example.org/iiif/1" "0" .full
      ⟨.percent (.ofRatio false 100 3), false⟩ .none .default .jpg (by decide +kernel) .full hthird
      (by decide +kernel) ⟨⟨[], []⟩, by decide +kernel, rfl⟩
  have hbuild : buildImageUri "https://example.org/iiif/1" ⟨.region .full,
      .size ⟨.percent (.ofRatio false 100 3), false⟩, .rotation .none, .text Quality.default.name,
      .text ImageFormat.jpg.name⟩ =
        .ok "https://example.org/iiif/1/full/pct:33.333333333333336/0/default.jpg" := by
    decide +kernel
  rw [hbuild] at huri
  cases huri
  have hparse : ImageUri.parse
      "https://example.org/iiif/1/full/pct:33.333333333333336/0/default.jpg" =
        .ok ⟨"https://example.org/iiif/1", "1", "full", "pct:33.333333333333336", "0", "default",
          "jpg"⟩ := by decide +kernel
  rw [hparse] at hu
  cases hu
  have hrefused : (ofTexts "full" "pct:33.333333333333336" "0" "default" "jpg").check none =
      .ok ⟨[.grammar ⟨.size, "pct:33.333333333333336", some .percentage⟩], []⟩ := by
    decide +kernel
  have hsame := hreport.symm.trans hrefused
  cases hsame
  cases hvalid

end Request

end IiifRules
