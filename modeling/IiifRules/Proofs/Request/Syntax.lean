import Mathlib
import IiifRules.Proofs.Request.Written
import IiifRules.Proofs.Segment.Language

/-! # Requests judged by their syntax

Without a service to judge it against, a request of texts is in order if every text is accepted by
the parser of its axis, but for one rule that needs no service to be broken: a percentage above 100
without a caret enlarges any region.

* `Size.Exceeds`, `Size.check_none_iff`: the one rule.
* `Rotation.check_of_parse`: a rotation that is read breaks none.
* `Request.Accepted`, `Request.exists_syntax_report`: the whole request. -/

namespace IiifRules

open Numeric Text Segment.Token

variable {text : String}

/-! ### Sizes -/

/-- **A size that exceeds every region**: a percentage above 100 without a caret. -/
def Size.Exceeds (cs : List Char) : Prop :=
  ∃ cn places q, cs = "pct:".toList ++ cn ∧ CanonicalDecimal cn places q ∧ 100 < q

theorem ofInt_hundred_lt_iff {cs : List Char} {places : ℕ} {q : ℚ} {x : Binary64}
    (h : CanonicalDecimal cs places q) (hx : x.IsNearest q) :
    Binary64.lt (.ofInt 100) x = true ↔ 100 < q := by
  simpa using h.lt_iff hx (m := 100) (by norm_num) (by norm_num)

/-- A text that exceeds every region is read as a percentage above 100. -/
theorem Size.Exceeds.parse_eq (hshort : ShortRuns text.toList) (h : Exceeds text.toList) :
    ∃ n, parse text = .ok (.ok ⟨.percent n, false⟩) ∧ Binary64.lt (.ofInt 100) n = true := by
  obtain ⟨cn, places, q, htext, decimal, hq⟩ := h
  have hcn : ShortRuns cn := hshort.of_infix (htext ▸ (List.suffix_append _ _).isInfix)
  obtain ⟨n, -, nearest⟩ : ∃ n, readDecimal none cn = .ok (some n) ∧ n.IsNearest q :=
    decimal.exists_readDecimal hcn nofun
  refine ⟨n, (parse_iff hshort).mpr ⟨_, ?_, .percent decimal (by linarith) nearest⟩,
    (ofInt_hundred_lt_iff decimal nearest).mpr hq⟩
  rw [htext]
  rfl

/-- **A size that is read is in order** where no region is known, unless it exceeds all of them. -/
theorem Size.check_none_iff {s : Size} (hshort : ShortRuns text.toList)
    (h : parse text = .ok (.ok s)) : s.check none none true = .ok s ↔ ¬Exceeds text.toList := by
  rw [check_eq_ok_iff]
  constructor
  · rintro ⟨-, hfits⟩ hexceeds
    obtain ⟨n, hn, hlt⟩ := hexceeds.parse_eq hshort
    rw [h] at hn
    cases hn
    rw [if_neg Bool.false_ne_true] at hfits
    exact absurd (hlt.symm.trans hfits) (by decide)
  · intro hexceeds
    refine ⟨rfl, ?_⟩
    split_ifs with hcaret
    · rfl
    · obtain ⟨body, htext, hgrammar⟩ := (parse_iff hshort).mp h
      rw [if_neg hcaret, List.nil_append] at htext
      cases hform : s.form with
      | percent n =>
        rw [hform] at hgrammar
        cases hgrammar with
        | percent decimal hn0 nearest =>
          refine Bool.eq_false_of_not_eq_true fun hlt => hexceeds ?_
          exact ⟨_, _, _, htext, decimal, (ofInt_hundred_lt_iff decimal nearest).mp hlt⟩
      | _ => simp [SizeForm.Fits]

/-! ### Rotations -/

/-- **A rotation that is read is in order** for a service that rotates freely and mirrors. -/
theorem Rotation.check_of_parse {r : Rotation} (hshort : ShortRuns text.toList)
    (h : parse text = .ok (.ok r)) : r.check true true = .ok r := by
  obtain ⟨body, places, q, -, -, -, hlimit, nearest⟩ := (parse_iff hshort).mp h
  have hle : Binary64.le r.degrees (.ofInt 360) = true := by
    obtain ⟨v, hv, -⟩ := id nearest
    have hvalue := Binary64.ofInt_exact (show (0 : ℤ) ≤ 360 by norm_num) (by norm_num)
    rw [hv.le hvalue, decide_eq_true_eq]
    exact nearest.le hv hvalue (by simpa using hlimit)
  refine check_eq_ok_iff.mpr ⟨rfl, fun _ => rfl, ?_, nofun⟩
  rw [nearest.zero_le, hle]
  rfl

/-! ### Requests -/

namespace Request

variable {region size rotation quality format : String}

/-- **Every text of the request is accepted** by the parser of its axis. -/
structure Accepted (region size rotation quality format : String) : Prop where
  region : ∃ v, Region.parse region = .ok (.ok v)
  size : ∃ v, Size.parse size = .ok (.ok v)
  rotation : ∃ v, Rotation.parse rotation = .ok (.ok v)
  quality : ∃ v, Quality.parse quality = .ok v
  format : ∃ v, ImageFormat.parse format = .ok v

theorem exists_term?_quality_iff :
    (∃ q, (Segment.text quality).term? Quality = some q) ↔ ∃ v, Quality.parse quality = .ok v := by
  unfold Segment.term? Quality.parse
  cases hterm : (Vocabulary.ofName? quality : Option Quality) with
  | none => simp [hterm]
  | some q => simp [hterm]

theorem exists_term?_format_iff : (∃ f, (Segment.text format).term? ImageFormat = some f) ↔
    ∃ v, ImageFormat.parse format = .ok v := by
  unfold Segment.term? ImageFormat.parse
  cases hterm : (Vocabulary.ofName? format : Option ImageFormat) with
  | none => simp [hterm]
  | some f => simp [hterm]

/-- **A request of texts is in order by its syntax** if each of them is accepted and the size does
not exceed every region. -/
theorem passes_none_iff_accepted (hregion : ShortRuns region.toList) (hsize : ShortRuns size.toList)
    (hrotation : ShortRuns rotation.toList) :
    (ofTexts region size rotation quality format).Passes none ↔
      Accepted region size rotation quality format ∧ ¬Size.Exceeds size.toList := by
  obtain ⟨p, hp⟩ := Region.exists_parse hregion
  rw [passes_none_iff_axes]
  dsimp only [ofTexts]
  rw [Segment.exists_checkRegion_none_iff hp, exists_term?_quality_iff, exists_term?_format_iff]
  constructor
  · rintro ⟨⟨r, rfl⟩, ⟨s, hs, hcheck⟩, ⟨o, ho, -⟩, hq, hf⟩
    exact ⟨⟨⟨r, hp⟩, ⟨s, hs⟩, ⟨o, ho⟩, hq, hf⟩, (Size.check_none_iff hsize hs).mp hcheck⟩
  · rintro ⟨⟨⟨r, hr⟩, ⟨s, hs⟩, ⟨o, ho⟩, hq, hf⟩, hexceeds⟩
    exact ⟨⟨r, Except.ok.inj (hp.symm.trans hr)⟩,
      ⟨s, hs, (Size.check_none_iff hsize hs).mpr hexceeds⟩,
      ⟨o, ho, Rotation.check_of_parse hrotation ho⟩, hq, hf⟩

/-- Judging by the syntax finds no warnings. -/
theorem warnings_check_none {r : Request} {report : RequestReport}
    (h : r.check none = .ok report) : report.warnings = [] := by
  obtain ⟨j, -, h⟩ := Outcome.bind_eq_ok.mp h
  cases h
  rfl

/-- **A request of texts without long runs is judged by its syntax.** It has no warnings, and it is
in order exactly if every parser accepts its text and the size is no percentage above 100 without a
caret. -/
theorem exists_syntax_report (hregion : ShortRuns region.toList) (hsize : ShortRuns size.toList)
    (hrotation : ShortRuns rotation.toList) :
    ∃ report, (ofTexts region size rotation quality format).check none = .ok report ∧
      report.warnings = [] ∧ (report.valid = true ↔
        Accepted region size rotation quality format ∧ ¬Size.Exceeds size.toList) := by
  obtain ⟨p, hp⟩ := Region.exists_parse hregion
  obtain ⟨p', hp'⟩ := Size.exists_parse hsize
  obtain ⟨p'', hp''⟩ := Rotation.exists_parse hrotation
  obtain ⟨report, hreport⟩ :
      ∃ report, (ofTexts region size rotation quality format).check none = .ok report :=
    exists_check_none hp hp' hp''
  refine ⟨report, hreport, warnings_check_none hreport, ?_⟩
  rw [valid_iff_passes hreport, passes_none_iff_accepted hregion hsize hrotation]

/-- A mirrored request for an enlarged half of the image is in order. -/
theorem syntax_report_of_mirrored :
    ShortRuns "pct:0,0,50,50".toList ∧ ShortRuns "^!2000,2000".toList ∧ ShortRuns "!22.5".toList ∧
    ∃ report, (ofTexts "pct:0,0,50,50" "^!2000,2000" "!22.5" "bitonal" "webp").check none =
        .ok report ∧ report.warnings = [] ∧ report.valid = true ∧
      Accepted "pct:0,0,50,50" "^!2000,2000" "!22.5" "bitonal" "webp" ∧
      ¬Size.Exceeds "^!2000,2000".toList := by
  have hregion : ShortRuns "pct:0,0,50,50".toList := shortRuns_of_length (by decide)
  have hsize : ShortRuns "^!2000,2000".toList := shortRuns_of_length (by decide)
  have hrotation : ShortRuns "!22.5".toList := shortRuns_of_length (by decide)
  obtain ⟨report, hreport, hwarnings, hvalid⟩ :=
    @exists_syntax_report _ _ _ "bitonal" "webp" hregion hsize hrotation
  have hcheck : (ofTexts "pct:0,0,50,50" "^!2000,2000" "!22.5" "bitonal" "webp").check none =
      .ok ⟨[], []⟩ := by decide +kernel
  obtain rfl := Except.ok.inj (hreport.symm.trans hcheck)
  obtain ⟨haccepted, hexceeds⟩ := hvalid.mp rfl
  exact ⟨hregion, hsize, hrotation, _, hcheck, rfl, rfl, haccepted, hexceeds⟩

/-- A request for one and a half times the size is accepted by every parser and refused. -/
theorem not_valid_of_percent : ¬∀ region size rotation quality format : String,
    ShortRuns region.toList → ShortRuns size.toList → ShortRuns rotation.toList →
      ∃ report, (ofTexts region size rotation quality format).check none = .ok report ∧
        (report.valid = true ↔ Accepted region size rotation quality format) ∧
        (report.valid = true → report.warnings = []) := by
  intro h
  obtain ⟨report, hreport, hvalid, -⟩ := h "full" "pct:150" "0" "default" "jpg"
    (shortRuns_of_length (by decide)) (shortRuns_of_length (by decide))
    (shortRuns_of_length (by decide))
  have hcheck : (ofTexts "full" "pct:150" "0" "default" "jpg").check none =
      .ok ⟨[.percentTooLarge], []⟩ := by decide +kernel
  have haccepted : Accepted "full" "pct:150" "0" "default" "jpg" := by
    have hsize : Size.parse "pct:150" = .ok (.ok ⟨.percent (.ofInt 150), false⟩) := by
      decide +kernel
    have hrotation : Rotation.parse "0" = .ok (.ok ⟨.zero, false⟩) := by decide +kernel
    exact ⟨⟨.full, rfl⟩, ⟨_, hsize⟩, ⟨_, hrotation⟩, ⟨.default, rfl⟩, ⟨.jpg, rfl⟩⟩
  obtain rfl := Except.ok.inj (hreport.symm.trans hcheck)
  cases hvalid.mpr haccepted

end Request

end IiifRules
