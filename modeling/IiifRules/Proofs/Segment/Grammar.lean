import Mathlib
import IiifRules.Proofs.Segment.Token
import IiifRules.Segment.Region
import IiifRules.Segment.Rotation
import IiifRules.Segment.Size

/-! # The texts that are read as segments

For each segment the texts that stand for a value, as a relation of text and value. What is read
stands for its value, and every text of a value is read as that value.

* `Region.Spells`, `Region.spells_of_parse`, `Region.parse_of_spells`: regions.
* `SizeForm.Spells`, `Size.spells_of_parse`, `Size.parse_of_spells`: sizes, without and with the
  caret.
* `Rotation.parse_cases`: rotations. -/

namespace IiifRules

open Numeric Text Segment.Token

/-- A text that begins with a digit begins with no other character. -/
theorem not_prefix_of_isDigit {c d : Char} {beginning rest : List Char} (hc : c.isDigit = true)
    (hd : d.isDigit = false) : ¬d :: beginning <+: c :: rest := by
  rw [List.cons_prefix_cons]
  rintro ⟨rfl, -⟩
  rw [hc] at hd
  cases hd

/-! ### Regions -/

/-- **The texts of a region.** -/
inductive Region.Spells : List Char → Region → Prop
  | full : Spells "full".toList .full
  | square : Spells "square".toList .square
  | pixels {cx cy cw ch : List Char} {x y w h : ℕ} (hx : readNatural cx = .ok (some x))
      (hy : readNatural cy = .ok (some y)) (hw : readNatural cw = .ok (some w))
      (hh : readNatural ch = .ok (some h)) (hw0 : 0 < w) (hh0 : 0 < h) :
      Spells (join ',' [cx, cy, cw, ch]) (.pixels x y w h)
  | percent {cx cy cw ch : List Char} {x y w h : Binary64} (hx : readDecimal none cx = .ok (some x))
      (hy : readDecimal none cy = .ok (some y)) (hw : readDecimal none cw = .ok (some w))
      (hh : readDecimal none ch = .ok (some h)) (hw0 : w.le .zero = false)
      (hh0 : h.le .zero = false) :
      Spells ("pct:".toList ++ join ',' [cx, cy, cw, ch]) (.percent x y w h)

namespace Region

variable {text : String} {r : Region} {cs : List Char}

theorem spells_of_parsePixels (h : parsePixels text (fields ',' cs) = .ok (.ok r)) :
    Spells cs r := by
  rw [← join_fields ',' cs]
  unfold parsePixels at h
  split at h
  · rename_i cx cy cw ch hparts
    rw [hparts]
    obtain ⟨x?, hx, h⟩ := Outcome.bind_eq_ok.mp h
    obtain ⟨y?, hy, h⟩ := Outcome.bind_eq_ok.mp h
    obtain ⟨w?, hw, h⟩ := Outcome.bind_eq_ok.mp h
    obtain ⟨h?, hh, h⟩ := Outcome.bind_eq_ok.mp h
    split at h
    · split_ifs at h with h0
      · cases h
      · cases h
        rw [not_or] at h0
        exact .pixels hx hy hw hh (Nat.pos_of_ne_zero h0.1) (Nat.pos_of_ne_zero h0.2)
    · cases h
  · cases h

theorem spells_of_parsePercent (h : parsePercent text (fields ',' cs) = .ok (.ok r)) :
    Spells ("pct:".toList ++ cs) r := by
  rw [← join_fields ',' cs]
  unfold parsePercent at h
  split at h
  · rename_i cx cy cw ch hparts
    rw [hparts]
    obtain ⟨x?, hx, h⟩ := Outcome.bind_eq_ok.mp h
    obtain ⟨y?, hy, h⟩ := Outcome.bind_eq_ok.mp h
    obtain ⟨w?, hw, h⟩ := Outcome.bind_eq_ok.mp h
    obtain ⟨h?, hh, h⟩ := Outcome.bind_eq_ok.mp h
    split at h
    · split_ifs at h with h0
      · cases h
      · cases h
        rw [Bool.or_eq_true, not_or, Bool.not_eq_true, Bool.not_eq_true] at h0
        exact .percent hx hy hw hh h0.1 h0.2
    · cases h
  · cases h

/-- **A text that is read as a region** is one of its texts. -/
theorem spells_of_parse (h : parse text = .ok (.ok r)) : Spells text.toList r := by
  unfold parse at h
  split_ifs at h with hfull hsquare
  · cases h; rw [hfull]; exact .full
  · cases h; rw [hsquare]; exact .square
  · split at h
    · rename_i rest hrest
      rw [after?_eq_some.mp hrest]
      exact spells_of_parsePercent h
    · exact spells_of_parsePixels h

theorem parsePixels_of_spells (text : String) {cx cy cw ch : List Char} {x y w h : ℕ}
    (hx : readNatural cx = .ok (some x)) (hy : readNatural cy = .ok (some y))
    (hw : readNatural cw = .ok (some w)) (hh : readNatural ch = .ok (some h)) (hw0 : 0 < w)
    (hh0 : 0 < h) : parsePixels text (fields ',' (join ',' [cx, cy, cw, ch])) =
      .ok (.ok (.pixels x y w h)) := by
  rw [fields_join (by simp) (by simp [comma_notMem_of_readNatural hx,
    comma_notMem_of_readNatural hy, comma_notMem_of_readNatural hw,
    comma_notMem_of_readNatural hh])]
  unfold parsePixels
  dsimp only
  rw [hx, hy, hw, hh]
  simp only [Outcome.ok_bind]
  rw [if_neg (by omega)]
  rfl

theorem parsePercent_of_spells (text : String) {cx cy cw ch : List Char} {x y w h : Binary64}
    (hx : readDecimal none cx = .ok (some x)) (hy : readDecimal none cy = .ok (some y))
    (hw : readDecimal none cw = .ok (some w)) (hh : readDecimal none ch = .ok (some h))
    (hw0 : w.le .zero = false) (hh0 : h.le .zero = false) :
    parsePercent text (fields ',' (join ',' [cx, cy, cw, ch])) =
      .ok (.ok (.percent x y w h)) := by
  rw [fields_join (by simp) (by simp [comma_notMem_of_readDecimal hx,
    comma_notMem_of_readDecimal hy, comma_notMem_of_readDecimal hw,
    comma_notMem_of_readDecimal hh])]
  unfold parsePercent
  dsimp only
  rw [hx, hy, hw, hh]
  simp only [Outcome.ok_bind]
  rw [hw0, hh0]
  rfl

/-- **Every text of a region is read** as that region. -/
theorem parse_of_spells (h : Spells text.toList r) : parse text = .ok (.ok r) := by
  unfold parse
  generalize hcs : text.toList = cs at h
  have hne : ∀ {s : String}, ¬s.toList <+: cs → text ≠ s := by
    rintro s hs rfl
    exact hs (hcs ▸ List.prefix_rfl)
  cases h with
  | full => rw [if_pos (String.toList_inj.mp hcs)]
  | square =>
    rw [if_neg (hne (by decide)), if_pos (String.toList_inj.mp hcs)]
  | @pixels cx cy cw ch x y w h hx hy hw hh hw0 hh0 =>
    have hread := parsePixels_of_spells text hx hy hw hh hw0 hh0
    obtain ⟨c, ds, rfl, hc⟩ := exists_cons_of_readNatural hx
    have hnot : ∀ {s : String} {d b}, s.toList = d :: b → d.isDigit = false →
        ¬s.toList <+: join ',' [c :: ds, cy, cw, ch] := by
      intro s d b hs hd
      rw [hs]
      exact not_prefix_of_isDigit hc hd
    rw [if_neg (hne (hnot rfl rfl)), if_neg (hne (hnot rfl rfl)),
      after?_eq_none.mpr (hnot rfl rfl)]
    exact hread
  | percent hx hy hw hh hw0 hh0 =>
    rw [if_neg (hne (by simp)), if_neg (hne (by simp)), after?_append]
    exact parsePercent_of_spells text hx hy hw hh hw0 hh0

end Region

/-! ### Sizes -/

/-- **The texts of a size** without its caret. -/
inductive SizeForm.Spells : List Char → SizeForm → Prop
  | max : Spells "max".toList .max
  | width {cw : List Char} {w : ℕ} (hw : readNatural cw = .ok (some w)) (hw0 : 0 < w) :
      Spells (cw ++ [',']) (.width w)
  | height {ch : List Char} {h : ℕ} (hh : readNatural ch = .ok (some h)) (hh0 : 0 < h) :
      Spells (',' :: ch) (.height h)
  | percent {cn : List Char} {n : Binary64} (hn : readDecimal none cn = .ok (some n))
      (hn0 : (n.le .zero && Binary64.le .zero n) = false) :
      Spells ("pct:".toList ++ cn) (.percent n)
  | exact {cw ch : List Char} {w h : ℕ} (hw : readNatural cw = .ok (some w))
      (hh : readNatural ch = .ok (some h)) (hw0 : 0 < w) (hh0 : 0 < h) :
      Spells (cw ++ ',' :: ch) (.exact w h)
  | confined {cw ch : List Char} {w h : ℕ} (hw : readNatural cw = .ok (some w))
      (hh : readNatural ch = .ok (some h)) (hw0 : 0 < w) (hh0 : 0 < h) :
      Spells ('!' :: (cw ++ ',' :: ch)) (.confined w h)

namespace Size

variable {text : String} {cs : List Char} {form : SizeForm}

/-- A length that is neither missing its digits nor zero: it is left out, or it is positive. -/
theorem readOptional_cases {o : Option (Option ℕ)} (h : readOptional cs = .ok o)
    (hdigits : o ≠ some none) (hzero : o ≠ some (some 0)) :
    (cs = [] ∧ o = none) ∨ ∃ n, readNatural cs = .ok (some n) ∧ 0 < n ∧ o = some (some n) := by
  unfold readOptional at h
  split_ifs at h with hempty
  · left
    cases h
    exact ⟨by simpa using hempty, rfl⟩
  · right
    obtain ⟨n?, hn, rfl⟩ := Outcome.map_eq_ok.mp h
    cases n? with
    | none => exact absurd rfl hdigits
    | some n =>
      refine ⟨n, hn, Nat.pos_of_ne_zero ?_, rfl⟩
      rintro rfl
      exact hzero rfl

/-- A width and a height, or one of them if the size is not confined. -/
theorem parseDimensions_cases {confined : Bool} (h : parseDimensions confined cs = .ok (.ok form)) :
    (∃ cw ch w h, cs = cw ++ ',' :: ch ∧ readNatural cw = .ok (some w) ∧
      readNatural ch = .ok (some h) ∧ 0 < w ∧ 0 < h ∧
      form = if confined then .confined w h else .exact w h) ∨
    (confined = false ∧ SizeForm.Spells cs form) := by
  unfold parseDimensions at h
  rcases cut_cases ',' cs with ⟨-, hcut⟩ | ⟨cw, ch, -, hcs, hcut⟩
  · rw [hcut] at h
    cases h
  · rw [hcut] at h
    obtain ⟨w?, hreadw, h⟩ := Outcome.bind_eq_ok.mp h
    obtain ⟨h?, hreadh, h⟩ := Outcome.bind_eq_ok.mp h
    split_ifs at h with hdigits hzero
    · cases h
    · cases h
    · rw [not_or] at hdigits hzero
      rw [hcs]
      rcases readOptional_cases hreadw hdigits.1 hzero.1 with ⟨rfl, rfl⟩ | ⟨w, hw, hw0, rfl⟩
      · rcases readOptional_cases hreadh hdigits.2 hzero.2 with ⟨rfl, rfl⟩ | ⟨h', hh, hh0, rfl⟩
        · cases confined <;> cases h
        · right
          cases confined <;> cases h
          exact ⟨rfl, .height hh hh0⟩
      · rcases readOptional_cases hreadh hdigits.2 hzero.2 with ⟨rfl, rfl⟩ | ⟨h', hh, hh0, rfl⟩
        · right
          cases confined <;> cases h
          exact ⟨rfl, .width hw hw0⟩
        · left
          refine ⟨cw, ch, w, h', rfl, hw, hh, hw0, hh0, ?_⟩
          cases h
          rfl

theorem spells_of_parseForm (h : parseForm cs = .ok (.ok form)) : SizeForm.Spells cs form := by
  unfold parseForm at h
  split_ifs at h with hmax
  · cases h; rw [hmax]; exact .max
  · split at h
    · rename_i rest hrest
      rw [after?_eq_some.mp hrest]
      unfold parsePercent at h
      obtain ⟨n?, hn, h⟩ := Outcome.bind_eq_ok.mp h
      cases n? with
      | none => cases h
      | some n =>
        dsimp only at h
        split_ifs at h with hzero
        · cases h
        · cases h
          exact .percent hn (Bool.eq_false_of_not_eq_true hzero)
    · split at h
      · rename_i rest hrest
        rw [after?_eq_some.mp hrest]
        rcases parseDimensions_cases h with ⟨cw, ch, w, h, rfl, hw, hh, hw0, hh0, rfl⟩ | ⟨hc, -⟩
        · exact .confined hw hh hw0 hh0
        · cases hc
      · rcases parseDimensions_cases h with ⟨cw, ch, w, h, rfl, hw, hh, hw0, hh0, rfl⟩ | ⟨-, hs⟩
        · exact .exact hw hh hw0 hh0
        · exact hs

/-- **A text that is read as a size** is one of the texts of its form, after a caret if the size
may be enlarged. -/
theorem spells_of_parse {s : Size} (h : parse text = .ok (.ok s)) :
    ∃ cs, text.toList = (if s.upscale then ['^'] else []) ++ cs ∧ SizeForm.Spells cs s.form := by
  unfold parse at h
  split at h
  rename_i upscale body hbody
  obtain ⟨form?, hform, h⟩ := Outcome.bind_eq_ok.mp h
  cases form? with
  | error reason => cases h
  | ok form =>
    cases h
    exact ⟨body, eq_of_marked hbody, spells_of_parseForm hform⟩

theorem readOptional_of_readNatural {n : ℕ} (h : readNatural cs = .ok (some n)) :
    readOptional cs = .ok (some (some n)) := by
  obtain ⟨c, ds, rfl, -⟩ := exists_cons_of_readNatural h
  unfold readOptional
  rw [if_neg (by simp), h]
  rfl

theorem parseDimensions_of_both (confined : Bool) {cw ch : List Char} {w h : ℕ}
    (hw : readNatural cw = .ok (some w)) (hh : readNatural ch = .ok (some h)) (hw0 : 0 < w)
    (hh0 : 0 < h) : parseDimensions confined (cw ++ ',' :: ch) =
      .ok (.ok (if confined then .confined w h else .exact w h)) := by
  unfold parseDimensions
  rw [cut_append (comma_notMem_of_readNatural hw)]
  dsimp only
  rw [readOptional_of_readNatural hw, readOptional_of_readNatural hh]
  simp only [Outcome.ok_bind]
  rw [if_neg (by simp), if_neg (by simp; omega)]
  rfl

theorem parseDimensions_of_width {cw : List Char} {w : ℕ} (hw : readNatural cw = .ok (some w))
    (hw0 : 0 < w) : parseDimensions false (cw ++ [',']) = .ok (.ok (.width w)) := by
  unfold parseDimensions
  rw [cut_append (comma_notMem_of_readNatural hw)]
  dsimp only
  rw [readOptional_of_readNatural hw]
  simp only [Outcome.ok_bind, readOptional, List.isEmpty_nil, if_true]
  rw [if_neg (by simp), if_neg (by simp; omega)]
  rfl

theorem parseDimensions_of_height {ch : List Char} {h : ℕ} (hh : readNatural ch = .ok (some h))
    (hh0 : 0 < h) : parseDimensions false (',' :: ch) = .ok (.ok (.height h)) := by
  unfold parseDimensions
  rw [show ',' :: ch = [] ++ ',' :: ch from rfl, cut_append (by simp)]
  dsimp only
  rw [readOptional_of_readNatural hh]
  simp only [Outcome.ok_bind, readOptional, List.isEmpty_nil, if_true]
  rw [if_neg (by simp), if_neg (by simp; omega)]
  rfl

/-- **Every text of a form is read** as that form. -/
theorem parseForm_of_spells (h : SizeForm.Spells cs form) : parseForm cs = .ok (.ok form) := by
  -- A text that begins with a digit or a comma is read as a width and a height.
  have hplain : ∀ {c rest}, c.isDigit = true ∨ c = ',' →
      parseForm (c :: rest) = parseDimensions false (c :: rest) := by
    intro c rest hc
    have hnot : ∀ {d b}, d.isDigit = false → d ≠ ',' → ¬d :: b <+: c :: rest := by
      intro d b hd hd'
      rcases hc with hc | rfl
      · exact not_prefix_of_isDigit hc hd
      · rw [List.cons_prefix_cons]
        exact fun h => hd' h.1
    have hmax : c :: rest ≠ "max".toList := by
      intro h
      exact hnot (d := 'm') (b := ['a', 'x']) rfl (by decide) (h ▸ List.prefix_rfl)
    have hpct : ¬"pct:".toList <+: c :: rest :=
      hnot (d := 'p') (b := ['c', 't', ':']) rfl (by decide)
    unfold parseForm
    rw [if_neg hmax, after?_eq_none.mpr hpct]
    dsimp only
    rw [after?_eq_none.mpr (hnot rfl (by decide))]
  cases h with
  | max => rfl
  | width hw hw0 =>
    have hread := parseDimensions_of_width hw hw0
    obtain ⟨c, ds, rfl, hc⟩ := exists_cons_of_readNatural hw
    exact (hplain (.inl hc)).trans hread
  | height hh hh0 => exact (hplain (.inr rfl)).trans (parseDimensions_of_height hh hh0)
  | percent hn hn0 =>
    unfold parseForm
    rw [if_neg (by simp), after?_append]
    dsimp only
    unfold parsePercent
    rw [hn, Outcome.ok_bind]
    dsimp only
    rw [hn0]
    rfl
  | exact hw hh hw0 hh0 =>
    have hread := parseDimensions_of_both false hw hh hw0 hh0
    obtain ⟨c, ds, rfl, hc⟩ := exists_cons_of_readNatural hw
    exact (hplain (.inl hc)).trans hread
  | @confined cw ch w h hw hh hw0 hh0 =>
    have hpct : ¬"pct:".toList <+: '!' :: (cw ++ ',' :: ch) := by simp
    unfold parseForm
    rw [if_neg (by simp), after?_eq_none.mpr hpct]
    dsimp only
    rw [show '!' :: (cw ++ ',' :: ch) = ['!'] ++ (cw ++ ',' :: ch) from rfl, after?_append]
    exact parseDimensions_of_both true hw hh hw0 hh0

/-- No text of a form begins with a caret. -/
theorem caret_notPrefix_of_spells (h : SizeForm.Spells cs form) : ¬['^'] <+: cs := by
  cases h with
  | max => decide
  | width hw =>
    obtain ⟨c, ds, rfl, hc⟩ := exists_cons_of_readNatural hw
    exact not_prefix_of_isDigit hc rfl
  | height => simp
  | percent => simp
  | exact hw =>
    obtain ⟨c, ds, rfl, hc⟩ := exists_cons_of_readNatural hw
    exact not_prefix_of_isDigit hc rfl
  | confined => simp

/-- **Every text of a size is read** as that size. -/
theorem parse_of_spells {upscale : Bool}
    (htext : text.toList = (if upscale then ['^'] else []) ++ cs) (h : SizeForm.Spells cs form) :
    parse text = .ok (.ok ⟨form, upscale⟩) := by
  unfold parse
  rw [htext]
  cases upscale with
  | true =>
    rw [if_pos rfl, after?_append]
    dsimp only
    rw [parseForm_of_spells h]
    rfl
  | false =>
    rw [if_neg (by simp), List.nil_append, after?_eq_none.mpr (caret_notPrefix_of_spells h)]
    dsimp only
    rw [parseForm_of_spells h]
    rfl

end Size

/-! ### Rotations -/

/-- **A text that is read as a rotation** is a decimal of at most one place, after an exclamation
mark if the image is mirrored. -/
theorem Rotation.parse_cases {text : String} {r : Rotation} (h : parse text = .ok (.ok r)) :
    ∃ cs, text.toList = (if r.mirror then ['!'] else []) ++ cs ∧
      readDecimal (some 1) cs = .ok (some r.degrees) ∧
      Binary64.lt (.ofInt 360) r.degrees = false := by
  unfold parse at h
  split at h
  rename_i mirror body hbody
  obtain ⟨degrees?, hdegrees, h⟩ := Outcome.bind_eq_ok.mp h
  cases degrees? with
  | none =>
    obtain ⟨again, -, h⟩ := Outcome.bind_eq_ok.mp h
    cases again <;> cases h
  | some degrees =>
    dsimp only at h
    split_ifs at h with hrange
    · cases h
    · cases h
      exact ⟨body, eq_of_marked hbody, hdegrees, Bool.eq_false_of_not_eq_true hrange⟩

end IiifRules
