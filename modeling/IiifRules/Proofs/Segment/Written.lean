import Mathlib
import IiifRules.Proofs.Segment.Plain
import IiifRules.Proofs.Segment.RoundTrip
import IiifRules.Proofs.Uri.Segments

/-! # Values written as segments

A text that is read as a region, a size or a rotation holds no character that ends a segment of a
URI. Conversely a value within the bounds of the grammar is written as such a text, and the text is
read again, except that a percentage may have too many digits for that.

* `Region.isSegment_of_parse`, `Size.isSegment_of_parse`, `Rotation.isSegment_of_parse`: what is
  read is a proper segment.
* `Region.InRange`, `SizeForm.InRange`: the values within the bounds of the grammar.
* `Region.parse_format`, `Size.parse_format`: a value in whole pixels is read again.
* `Region.exists_written`, `Size.exists_written`: any value in range is written, and read again
  exactly if none of its percentages has too many digits. -/

namespace IiifRules

open Numeric Text Segment.Token

/-! ### Texts without separators -/

namespace Uri

/-- A character that does not end a segment of a URI. -/
def IsInner (c : Char) : Prop := c ≠ '/' ∧ c ≠ '?' ∧ c ≠ '#'

instance (c : Char) : Decidable (IsInner c) := inferInstanceAs (Decidable (_ ∧ _))

variable {cs : List Char}

theorem isSegment_of_isInner (hne : cs ≠ []) (h : ∀ c ∈ cs, IsInner c) : IsSegment cs :=
  ⟨hne, fun hc => (h _ hc).1 rfl, fun hc => (h _ hc).2.1 rfl, fun hc => (h _ hc).2.2 rfl⟩

theorem isInner_of_isDigit {c : Char} (h : c.isDigit = true) : IsInner c := by
  refine ⟨?_, ?_, ?_⟩
  all_goals
    rintro rfl
    exact absurd h (by decide)

theorem isInner_of_mem_append {a b : List Char} (ha : ∀ c ∈ a, IsInner c)
    (hb : ∀ c ∈ b, IsInner c) : ∀ c ∈ a ++ b, IsInner c := by
  intro c hc
  rcases List.mem_append.mp hc with hc | hc
  · exact ha c hc
  · exact hb c hc

theorem isInner_of_mem_cons {c : Char} (hc : IsInner c) (h : ∀ d ∈ cs, IsInner d) :
    ∀ d ∈ c :: cs, IsInner d := by
  intro d hd
  rcases List.mem_cons.mp hd with rfl | hd
  · exact hc
  · exact h d hd

theorem isInner_of_mem_join {fs : List (List Char)} (h : ∀ f ∈ fs, ∀ c ∈ f, IsInner c) :
    ∀ c ∈ join ',' fs, IsInner c := by
  intro c hc
  rcases mem_join hc with rfl | ⟨f, hf, hcf⟩
  · decide
  · exact h f hf c hcf

theorem isInner_of_readNatural {n : ℕ} (h : readNatural cs = .ok (some n)) :
    ∀ c ∈ cs, IsInner c :=
  fun c hc => isInner_of_isDigit (isDigit_of_readNatural h c hc)

theorem isInner_of_readDecimal {places? : Option ℕ} {x : Binary64}
    (h : readDecimal places? cs = .ok (some x)) : ∀ c ∈ cs, IsInner c := by
  rcases readDecimal_cases h with ⟨hnat, -⟩ | ⟨whole, fraction, rfl, hw, hf, -⟩
  · exact fun c hc => isInner_of_isDigit (isDigit_of_isDigits (isDigits_of_isNatural hnat) c hc)
  · refine isInner_of_mem_append ?_ (isInner_of_mem_cons (by decide) ?_)
    · exact fun c hc => isInner_of_isDigit (isDigit_of_isDigits (isDigits_of_isNatural hw) c hc)
    · exact fun c hc => isInner_of_isDigit ((isFraction_cases hf).1 c hc)

theorem ne_nil_of_readDecimal {places? : Option ℕ} {x : Binary64}
    (h : readDecimal places? cs = .ok (some x)) : cs ≠ [] := by
  rcases readDecimal_cases h with ⟨hnat, -⟩ | ⟨whole, fraction, rfl, -⟩
  · rintro rfl
    cases hnat
  · simp

end Uri

open Uri

theorem join_four_ne_nil {a b c d : List Char} : join ',' [a, b, c, d] ≠ [] := by
  rw [join_cons (by simp)]
  simp

/-- **A text of a region** is a proper segment. -/
theorem Region.isSegment_of_spells {cs : List Char} {r : Region} (h : Spells cs r) :
    IsSegment cs := by
  cases h with
  | full => exact isSegment_of_isInner (by simp) (by simp [IsInner])
  | square => exact isSegment_of_isInner (by simp) (by simp [IsInner])
  | pixels hx hy hw hh =>
    refine isSegment_of_isInner join_four_ne_nil (isInner_of_mem_join ?_)
    simp only [List.forall_mem_cons]
    exact ⟨isInner_of_readNatural hx, isInner_of_readNatural hy, isInner_of_readNatural hw,
      isInner_of_readNatural hh, by simp⟩
  | percent hx hy hw hh =>
    refine isSegment_of_isInner (by simp) (isInner_of_mem_append (by simp [IsInner])
      (isInner_of_mem_join ?_))
    simp only [List.forall_mem_cons]
    exact ⟨isInner_of_readDecimal hx, isInner_of_readDecimal hy, isInner_of_readDecimal hw,
      isInner_of_readDecimal hh, by simp⟩

theorem Region.isSegment_of_parse {text : String} {r : Region} (h : parse text = .ok (.ok r)) :
    IsSegment text.toList :=
  isSegment_of_spells (spells_of_parse h)

/-- **A text of a size** is a proper segment, with a caret or without. -/
theorem Size.isSegment_of_spells {cs : List Char} {form : SizeForm} (upscale : Bool)
    (h : form.Spells cs) : IsSegment ((if upscale then ['^'] else []) ++ cs) := by
  have hcs : cs ≠ [] ∧ ∀ c ∈ cs, IsInner c := by
    cases h with
    | max => exact ⟨by simp, by simp [IsInner]⟩
    | width hw =>
      exact ⟨by simp, isInner_of_mem_append (isInner_of_readNatural hw) (by simp [IsInner])⟩
    | height hh => exact ⟨by simp, isInner_of_mem_cons (by decide) (isInner_of_readNatural hh)⟩
    | percent hn =>
      exact ⟨by simp, isInner_of_mem_append (by simp [IsInner]) (isInner_of_readDecimal hn)⟩
    | exact hw hh =>
      exact ⟨by simp, isInner_of_mem_append (isInner_of_readNatural hw)
        (isInner_of_mem_cons (by decide) (isInner_of_readNatural hh))⟩
    | confined hw hh =>
      exact ⟨by simp, isInner_of_mem_cons (by decide) (isInner_of_mem_append
        (isInner_of_readNatural hw) (isInner_of_mem_cons (by decide) (isInner_of_readNatural hh)))⟩
  refine isSegment_of_isInner (by simp [hcs.1]) (isInner_of_mem_append ?_ hcs.2)
  cases upscale <;> simp [IsInner]

theorem Size.isSegment_of_parse {text : String} {s : Size} (h : parse text = .ok (.ok s)) :
    IsSegment text.toList := by
  obtain ⟨cs, htext, hs⟩ := spells_of_parse h
  rw [htext]
  exact isSegment_of_spells s.upscale hs

theorem Rotation.isSegment_of_parse {text : String} {r : Rotation} (h : parse text = .ok (.ok r)) :
    IsSegment text.toList := by
  obtain ⟨cs, htext, hread, -⟩ := parse_cases h
  rw [htext]
  refine isSegment_of_isInner (by simp [ne_nil_of_readDecimal hread])
    (isInner_of_mem_append ?_ (isInner_of_readDecimal hread))
  cases r.mirror <;> simp [IsInner]

/-! ### Numbers in range -/

/-- An integer that is not negative and not too long to be written. -/
def IsCoordinate (n : ℤ) : Prop := 0 ≤ n ∧ Numeral.writable n = true

/-- A positive integer that is not too long to be written. -/
def IsExtent (n : ℤ) : Prop := 0 < n ∧ Numeral.writable n = true

theorem IsCoordinate.exists_readNatural {n : ℤ} (h : IsCoordinate n) :
    ∃ (m : ℕ) (cs : List Char), n = m ∧ readNatural cs = .ok (some m) := by
  obtain ⟨m, rfl⟩ := Int.eq_ofNat_of_zero_le h.1
  exact ⟨m, _, rfl, readNatural_digits h.2⟩

theorem IsExtent.exists_readNatural {n : ℤ} (h : IsExtent n) :
    ∃ (m : ℕ) (cs : List Char), n = m ∧ readNatural cs = .ok (some m) ∧ 0 < m := by
  obtain ⟨m, cs, rfl, hm⟩ := IsCoordinate.exists_readNatural ⟨h.1.le, h.2⟩
  exact ⟨m, cs, rfl, hm, by exact_mod_cast h.1⟩

namespace Numeric.Binary64

/-- **A finite number that is not negative**; a zero may carry a sign. -/
def NonNegative (x : Binary64) : Prop := le .zero x = true ∧ x.lt (.infinite false) = true

/-- **A finite number above zero.** -/
def Positive (x : Binary64) : Prop := lt .zero x = true ∧ x.lt (.infinite false) = true

variable {x : Binary64}

theorem exists_zero_eq : ∃ fits, zero = finite false 0 fits := by
  obtain ⟨u, fits, hzero, hu⟩ := ofInt_exact (n := 0) le_rfl (by norm_num)
  rw [Int.cast_zero, eq_comm, div_eq_zero_iff] at hu
  have hu0 : u = 0 := by
    rcases hu with hu | hu
    · exact_mod_cast hu
    · exact absurd hu unitsPerOne_cast_pos.ne'
  subst hu0
  exact ⟨fits, hzero⟩

/-- A number that is not negative is written without a sign. -/
theorem NonNegative.exists_plain (h : x.NonNegative) :
    ∃ units fits, x.plain = (finite false units fits).plain := by
  obtain ⟨hle, hlt⟩ := h
  obtain ⟨fits0, hzero⟩ := exists_zero_eq
  cases x with
  | nan => cases hlt
  | infinite neg =>
    cases neg
    · cases hlt
    · rw [hzero] at hle
      cases hle
  | finite neg units fits =>
    cases neg
    · exact ⟨units, fits, rfl⟩
    · have hunits : units = 0 := by
        rw [hzero] at hle
        simp [le, lt, isNaN, signed] at hle
        exact hle
      subst hunits
      exact ⟨0, fits, by simp [plain, toInt?, signed]⟩

theorem Positive.exists_eq (h : x.Positive) : ∃ units fits, x = finite false units fits := by
  obtain ⟨hpos, hlt⟩ := h
  obtain ⟨fits0, hzero⟩ := exists_zero_eq
  cases x with
  | nan => cases hlt
  | infinite neg =>
    cases neg
    · cases hlt
    · rw [hzero] at hpos
      cases hpos
  | finite neg units fits =>
    cases neg
    · exact ⟨units, fits, rfl⟩
    · rw [hzero] at hpos
      simp [lt, signed] at hpos
      omega

/-- A number above zero is not at most zero. -/
theorem Positive.le_zero (h : x.Positive) : x.le .zero = false := by
  unfold le
  rw [h.1]
  simp

/-- **A number that is not negative** is read from its plain text, or refused for its length. -/
theorem NonNegative.exists_readDecimal (h : x.NonNegative) : ∃ y, readDecimal none x.plain =
    .ok (if decimalDigits < digitCount x.plain then none else some y) := by
  obtain ⟨units, fits, hplain⟩ := h.exists_plain
  rw [hplain]
  exact ⟨_, readDecimal_plain fits⟩

theorem Positive.readDecimal (h : x.Positive) : readDecimal none x.plain =
    .ok (if decimalDigits < digitCount x.plain then none else some x) := by
  obtain ⟨units, fits, rfl⟩ := h.exists_eq
  exact readDecimal_plain fits

theorem Positive.nonNegative (h : x.Positive) : x.NonNegative := by
  obtain ⟨units, fits, rfl⟩ := h.exists_eq
  obtain ⟨fits0, hzero⟩ := exists_zero_eq
  refine ⟨?_, h.2⟩
  rw [hzero]
  simp [le, lt, isNaN, signed]

theorem NonNegative.isDigit_or_point (h : x.NonNegative) :
    ∀ c ∈ x.plain, c.isDigit = true ∨ c = '.' := by
  obtain ⟨units, fits, hplain⟩ := h.exists_plain
  rw [hplain]
  exact isDigit_or_point_of_mem_plain fits

theorem NonNegative.isInner (h : x.NonNegative) : ∀ c ∈ x.plain, IsInner c := by
  intro c hc
  rcases h.isDigit_or_point c hc with hd | rfl
  · exact isInner_of_isDigit hd
  · decide

theorem NonNegative.comma_notMem (h : x.NonNegative) : ',' ∉ x.plain := by
  intro hc
  rcases h.isDigit_or_point ',' hc with hd | hd <;> exact absurd hd (by decide)

end Numeric.Binary64

/-! ### Regions in range -/

namespace Region

/-- **A region within the bounds of the grammar.** -/
inductive InRange : Region → Prop
  | full : InRange .full
  | square : InRange .square
  | pixels {x y w h : ℤ} (hx : IsCoordinate x) (hy : IsCoordinate y) (hw : IsExtent w)
      (hh : IsExtent h) : InRange (.pixels x y w h)
  | percent {x y w h : Binary64} (hx : x.NonNegative) (hy : y.NonNegative) (hw : w.Positive)
      (hh : h.Positive) : InRange (.percent x y w h)

/-- The region is not given in percent. -/
def IsWhole : Region → Prop
  | percent .. => False
  | _ => True

/-- **No percentage has too many digits** to be read. -/
def FewDigits : Region → Prop
  | percent x y w h => ∀ v ∈ [x, y, w, h], digitCount v.plain ≤ decimalDigits
  | _ => True

variable {r : Region}

theorem format_of_spells {cs : List Char} (h : Spells cs r) :
    r.format = .ok (String.ofList cs) := by
  rw [format, formatChars_of_spells h]
  rfl

/-- **A region in whole pixels** is read again. -/
theorem parse_format (h : r.InRange) (hwhole : r.IsWhole) :
    ∃ text, r.format = .ok text ∧ parse text = .ok (.ok r) := by
  have hspells : ∃ cs, Spells cs r := by
    cases h with
    | full => exact ⟨_, .full⟩
    | square => exact ⟨_, .square⟩
    | pixels hx hy hw hh =>
      obtain ⟨x, cx, rfl, hcx⟩ := hx.exists_readNatural
      obtain ⟨y, cy, rfl, hcy⟩ := hy.exists_readNatural
      obtain ⟨w, cw, rfl, hcw, hw0⟩ := hw.exists_readNatural
      obtain ⟨h, ch, rfl, hch, hh0⟩ := hh.exists_readNatural
      exact ⟨_, .pixels hcx hcy hcw hch hw0 hh0⟩
    | percent => exact absurd hwhole not_false
  obtain ⟨cs, hcs⟩ := hspells
  exact ⟨_, format_of_spells hcs, parse_of_spells (by rwa [String.toList_ofList])⟩

/-- The coordinates of a rectangle in percent are read exactly if all of them are short. -/
theorem exists_parsePercent_plain (text : String) {x y w h : Binary64} (hx : x.NonNegative)
    (hy : y.NonNegative) (hw : w.Positive) (hh : h.Positive) :
    ∃ p, parsePercent text [x.plain, y.plain, w.plain, h.plain] = .ok p ∧
      ((∃ r, p = .ok r) ↔ FewDigits (.percent x y w h)) := by
  obtain ⟨x', hx'⟩ := hx.exists_readDecimal
  obtain ⟨y', hy'⟩ := hy.exists_readDecimal
  unfold parsePercent FewDigits
  simp only [hx', hy', hw.readDecimal, hh.readDecimal, Outcome.ok_bind, List.forall_mem_cons]
  by_cases h1 : decimalDigits < digitCount x.plain
  · rw [if_pos h1]
    exact ⟨_, rfl, by simp; omega⟩
  · by_cases h2 : decimalDigits < digitCount y.plain
    · rw [if_neg h1, if_pos h2]
      exact ⟨_, rfl, by simp; omega⟩
    · by_cases h3 : decimalDigits < digitCount w.plain
      · rw [if_neg h1, if_neg h2, if_pos h3]
        exact ⟨_, rfl, by simp; omega⟩
      · by_cases h4 : decimalDigits < digitCount h.plain
        · rw [if_neg h1, if_neg h2, if_neg h3, if_pos h4]
          exact ⟨_, rfl, by simp; omega⟩
        · rw [if_neg h1, if_neg h2, if_neg h3, if_neg h4]
          dsimp only
          rw [hw.le_zero, hh.le_zero]
          refine ⟨_, rfl, ⟨fun _ => ⟨not_lt.mp h1, not_lt.mp h2, not_lt.mp h3, not_lt.mp h4, ?_⟩,
            fun _ => ⟨_, rfl⟩⟩⟩
          simp

/-- **A region in range is written** as a proper segment, and the segment is read exactly if no
percentage has too many digits. -/
theorem exists_written (h : r.InRange) : ∃ text p, r.format = .ok text ∧
    IsSegment text.toList ∧ parse text = .ok p ∧ ((∃ r', p = .ok r') ↔ r.FewDigits) := by
  by_cases hwhole : r.IsWhole
  · obtain ⟨text, hformat, hparse⟩ := parse_format h hwhole
    have hfew : r.FewDigits := by
      cases r with
      | percent => exact absurd hwhole not_false
      | _ => trivial
    exact ⟨text, _, hformat, isSegment_of_parse hparse, hparse, by simp [hfew]⟩
  · cases h with
    | full => exact absurd trivial hwhole
    | square => exact absurd trivial hwhole
    | pixels => exact absurd trivial hwhole
    | @percent x y w h hx hy hw hh =>
      have hcommas : ∀ f ∈ [x.plain, y.plain, w.plain, h.plain], ',' ∉ f := by
        simp [hx.comma_notMem, hy.comma_notMem, hw.nonNegative.comma_notMem,
          hh.nonNegative.comma_notMem]
      generalize htext : String.ofList
        ("pct:".toList ++ join ',' [x.plain, y.plain, w.plain, h.plain]) = text
      have hchars := congrArg String.toList htext
      rw [String.toList_ofList] at hchars
      obtain ⟨p, hp, hiff⟩ := exists_parsePercent_plain text hx hy hw hh
      refine ⟨text, p, by rw [← htext]; rfl, ?_, ?_, hiff⟩
      · rw [← hchars]
        refine isSegment_of_isInner (by simp) (isInner_of_mem_append (by simp [IsInner])
          (isInner_of_mem_join ?_))
        simp only [List.forall_mem_cons]
        exact ⟨hx.isInner, hy.isInner, hw.nonNegative.isInner, hh.nonNegative.isInner, by simp⟩
      · have hne : ∀ s : String, ¬"pct:".toList <+: s.toList → text ≠ s := by
          rintro s hs rfl
          rw [← hchars] at hs
          exact hs (List.prefix_append _ _)
        unfold parse
        rw [if_neg (hne _ (by decide)), if_neg (hne _ (by decide)), ← hchars, after?_append]
        dsimp only
        rw [fields_join (by simp) hcommas]
        exact hp

end Region

/-! ### Sizes in range -/

/-- **A form of size within the bounds of the grammar.** -/
inductive SizeForm.InRange : SizeForm → Prop
  | max : InRange .max
  | width {w : ℤ} (hw : IsExtent w) : InRange (.width w)
  | height {h : ℤ} (hh : IsExtent h) : InRange (.height h)
  | percent {n : Binary64} (hn : n.Positive) : InRange (.percent n)
  | exact {w h : ℤ} (hw : IsExtent w) (hh : IsExtent h) : InRange (.exact w h)
  | confined {w h : ℤ} (hw : IsExtent w) (hh : IsExtent h) : InRange (.confined w h)

/-- The size is not given in percent. -/
def SizeForm.IsWhole : SizeForm → Prop
  | percent _ => False
  | _ => True

/-- **The percentage has not too many digits** to be read. -/
def SizeForm.FewDigits : SizeForm → Prop
  | percent n => digitCount n.plain ≤ decimalDigits
  | _ => True

namespace Size

variable {s : Size}

theorem format_of_spells {cs : List Char} (h : s.form.Spells cs) :
    s.format = .ok (String.ofList ((if s.upscale then ['^'] else []) ++ cs)) := by
  rw [format, formatChars, formChars_of_spells h]
  rfl

/-- **A size in whole pixels** is read again. -/
theorem parse_format (h : s.form.InRange) (hwhole : s.form.IsWhole) :
    ∃ text, s.format = .ok text ∧ parse text = .ok (.ok s) := by
  obtain ⟨form, upscale⟩ := s
  have hspells : ∃ cs, form.Spells cs := by
    cases h with
    | max => exact ⟨_, .max⟩
    | width hw =>
      obtain ⟨w, cw, rfl, hcw, hw0⟩ := hw.exists_readNatural
      exact ⟨_, .width hcw hw0⟩
    | height hh =>
      obtain ⟨h, ch, rfl, hch, hh0⟩ := hh.exists_readNatural
      exact ⟨_, .height hch hh0⟩
    | percent => exact absurd hwhole not_false
    | exact hw hh =>
      obtain ⟨w, cw, rfl, hcw, hw0⟩ := hw.exists_readNatural
      obtain ⟨h, ch, rfl, hch, hh0⟩ := hh.exists_readNatural
      exact ⟨_, .exact hcw hch hw0 hh0⟩
    | confined hw hh =>
      obtain ⟨w, cw, rfl, hcw, hw0⟩ := hw.exists_readNatural
      obtain ⟨h, ch, rfl, hch, hh0⟩ := hh.exists_readNatural
      exact ⟨_, .confined hcw hch hw0 hh0⟩
  obtain ⟨cs, hcs⟩ := hspells
  exact ⟨_, format_of_spells hcs, parse_of_spells (by rw [String.toList_ofList]) hcs⟩

/-- A percentage is read exactly if it is short. -/
theorem exists_parse_percent (upscale : Bool) {n : Binary64} (hn : n.Positive) (text : String)
    (htext : text.toList = (if upscale then ['^'] else []) ++ ("pct:".toList ++ n.plain)) :
    ∃ p, parse text = .ok p ∧
      p = if decimalDigits < digitCount n.plain then .error ⟨.size, text, some .percentage⟩
        else .ok ⟨.percent n, upscale⟩ := by
  have hform : parseForm ("pct:".toList ++ n.plain) =
      .ok (if decimalDigits < digitCount n.plain then .error (some .percentage)
        else .ok (.percent n)) := by
    unfold parseForm
    rw [if_neg (by simp), after?_append]
    dsimp only
    unfold parsePercent
    rw [hn.readDecimal, Outcome.ok_bind]
    split_ifs with hlong
    · rfl
    · dsimp only
      rw [hn.le_zero]
      rfl
  have hcaret : ¬['^'] <+: "pct:".toList ++ n.plain := by simp
  unfold parse
  rw [htext]
  cases upscale with
  | true =>
    rw [if_pos rfl, after?_append]
    dsimp only
    rw [hform, Outcome.ok_bind]
    split_ifs <;> exact ⟨_, rfl, rfl⟩
  | false =>
    rw [if_neg (by simp), List.nil_append, after?_eq_none.mpr hcaret]
    dsimp only
    rw [hform, Outcome.ok_bind]
    split_ifs <;> exact ⟨_, rfl, rfl⟩

/-- **A size in range is written** as a proper segment; the segment is read as the size if its
percentage has not too many digits, and refused otherwise. -/
theorem exists_written (h : s.form.InRange) : ∃ text p, s.format = .ok text ∧
    IsSegment text.toList ∧ parse text = .ok p ∧ (s.form.FewDigits → p = .ok s) ∧
      (¬s.form.FewDigits → ∃ e, p = .error e) := by
  by_cases hwhole : s.form.IsWhole
  · obtain ⟨text, hformat, hparse⟩ := parse_format h hwhole
    have hfew : s.form.FewDigits := by
      cases hform : s.form with
      | percent =>
        rw [hform] at hwhole
        exact absurd hwhole not_false
      | _ => trivial
    exact ⟨text, _, hformat, isSegment_of_parse hparse, hparse, fun _ => rfl,
      fun hnot => absurd hfew hnot⟩
  · obtain ⟨form, upscale⟩ := s
    cases h with
    | @percent n hn =>
      have hchars : (String.ofList ((if upscale then ['^'] else []) ++
          ("pct:".toList ++ n.plain))).toList = (if upscale then ['^'] else []) ++
          ("pct:".toList ++ n.plain) := String.toList_ofList
      obtain ⟨p, hp, hcases⟩ := exists_parse_percent upscale hn _ hchars
      refine ⟨_, p, rfl, ?_, hp, ?_, ?_⟩
      · rw [hchars]
        refine isSegment_of_isInner (by simp) (isInner_of_mem_append ?_
          (isInner_of_mem_append (by simp [IsInner]) hn.nonNegative.isInner))
        cases upscale <;> simp [IsInner]
      · intro hfew
        rw [hcases, if_neg (not_lt.mpr hfew)]
      · intro hmany
        rw [hcases, if_pos (not_le.mp hmany)]
        exact ⟨_, rfl⟩
    | _ => exact absurd trivial hwhole

end Size

end IiifRules
