import Mathlib
import IiifRules.Proofs.Segment.Canonical
import IiifRules.Proofs.Segment.Grammar

/-! # The language of each segment

For each segment the texts of its grammar with the value that a text stands for, given by the
canonical spelling of numbers. A text without long runs of digits is accepted exactly if it is in
the grammar, and it is read as the value it stands for.

* `Region.Grammar`, `Region.spells_iff`: regions.
* `SizeForm.Grammar`, `Size.Grammar`, `SizeForm.spells_iff`: sizes.
* `Rotation.Grammar`, `Rotation.parse_iff`: rotations.
* `parse_iff_grammar`: what each parser accepts. -/

namespace IiifRules

open Numeric Text Segment.Token

variable {cs : List Char} {text : String}

/-! ### Regions -/

/-- **The region grammar**: a text and the region it stands for. -/
inductive Region.Grammar : List Char → Region → Prop
  | full : Grammar "full".toList .full
  | square : Grammar "square".toList .square
  | pixels {cx cy cw ch : List Char} (hx : CanonicalNatural cx) (hy : CanonicalNatural cy)
      (hw : CanonicalNatural cw) (hh : CanonicalNatural ch) (hw0 : Numeral.value cw ≠ 0)
      (hh0 : Numeral.value ch ≠ 0) :
      Grammar (cx ++ ',' :: (cy ++ ',' :: (cw ++ ',' :: ch)))
        (.pixels (Numeral.value cx) (Numeral.value cy) (Numeral.value cw) (Numeral.value ch))
  | percent {cx cy cw ch : List Char} {i j k l : ℕ} {qx qy qw qh : ℚ} {x y w h : Binary64}
      (hx : CanonicalDecimal cx i qx) (hy : CanonicalDecimal cy j qy)
      (hw : CanonicalDecimal cw k qw) (hh : CanonicalDecimal ch l qh) (hw0 : qw ≠ 0) (hh0 : qh ≠ 0)
      (nx : x.IsNearest qx) (ny : y.IsNearest qy) (nw : w.IsNearest qw) (nh : h.IsNearest qh) :
      Grammar ("pct:".toList ++ (cx ++ ',' :: (cy ++ ',' :: (cw ++ ',' :: ch))))
        (.percent x y w h)

theorem le_zero_eq_false_iff {places : ℕ} {q : ℚ} {x : Binary64} (h : CanonicalDecimal cs places q)
    (hx : x.IsNearest q) : x.le .zero = false ↔ q ≠ 0 := by
  rw [← Bool.not_eq_true, not_iff_not, h.le_zero_iff hx]

theorem Region.spells_iff {r : Region} (hshort : ShortRuns cs) : Spells cs r ↔ Grammar cs r := by
  have hjoined : ∀ {cx cy cw ch : List Char},
      (cx ++ ',' :: (cy ++ ',' :: (cw ++ ',' :: ch))) <:+ cs →
      ShortRuns cx ∧ ShortRuns cy ∧ ShortRuns cw ∧ ShortRuns ch := by
    intro cx cy cw ch hsuffix
    have hpart : ∀ part ∈ [cx, cy, cw, ch], ShortRuns part := fun part hmem =>
      hshort.of_infix ((@infix_of_mem_join ',' _ _ hmem).trans hsuffix.isInfix)
    exact ⟨hpart _ (by simp), hpart _ (by simp), hpart _ (by simp), hpart _ (by simp)⟩
  constructor
  · intro h
    cases h with
    | full => exact .full
    | square => exact .square
    | pixels hx hy hw hh hw0 hh0 =>
      obtain ⟨sx, sy, sw, sh⟩ := hjoined List.suffix_rfl
      obtain ⟨nx, rfl⟩ := (readNatural_iff sx).mp hx
      obtain ⟨ny, rfl⟩ := (readNatural_iff sy).mp hy
      obtain ⟨nw, rfl⟩ := (readNatural_iff sw).mp hw
      obtain ⟨nh, rfl⟩ := (readNatural_iff sh).mp hh
      exact .pixels nx ny nw nh hw0.ne' hh0.ne'
    | percent hx hy hw hh hw0 hh0 =>
      obtain ⟨sx, sy, sw, sh⟩ := hjoined (List.suffix_append _ _)
      obtain ⟨_, _, dx, -, nx⟩ := (readDecimal_iff sx).mp hx
      obtain ⟨_, _, dy, -, ny⟩ := (readDecimal_iff sy).mp hy
      obtain ⟨_, _, dw, -, nw⟩ := (readDecimal_iff sw).mp hw
      obtain ⟨_, _, dh, -, nh⟩ := (readDecimal_iff sh).mp hh
      exact .percent dx dy dw dh ((le_zero_eq_false_iff dw nw).mp hw0)
        ((le_zero_eq_false_iff dh nh).mp hh0) nx ny nw nh
  · intro h
    cases h with
    | full => exact .full
    | square => exact .square
    | pixels hx hy hw hh hw0 hh0 =>
      obtain ⟨sx, sy, sw, sh⟩ := hjoined List.suffix_rfl
      exact .pixels ((readNatural_iff sx).mpr ⟨hx, rfl⟩) ((readNatural_iff sy).mpr ⟨hy, rfl⟩)
        ((readNatural_iff sw).mpr ⟨hw, rfl⟩) ((readNatural_iff sh).mpr ⟨hh, rfl⟩)
        (Nat.pos_of_ne_zero hw0) (Nat.pos_of_ne_zero hh0)
    | percent hx hy hw hh hw0 hh0 nx ny nw nh =>
      obtain ⟨sx, sy, sw, sh⟩ := hjoined (List.suffix_append _ _)
      exact .percent ((readDecimal_iff sx).mpr ⟨_, _, hx, nofun, nx⟩)
        ((readDecimal_iff sy).mpr ⟨_, _, hy, nofun, ny⟩)
        ((readDecimal_iff sw).mpr ⟨_, _, hw, nofun, nw⟩)
        ((readDecimal_iff sh).mpr ⟨_, _, hh, nofun, nh⟩)
        ((le_zero_eq_false_iff hw nw).mpr hw0) ((le_zero_eq_false_iff hh nh).mpr hh0)

theorem Region.parse_iff {r : Region} (hshort : ShortRuns text.toList) :
    parse text = .ok (.ok r) ↔ Grammar text.toList r := by
  rw [← spells_iff hshort]
  exact ⟨spells_of_parse, parse_of_spells⟩

/-! ### Sizes -/

/-- **The grammar of a size** without its caret. -/
inductive SizeForm.Grammar : List Char → SizeForm → Prop
  | max : Grammar "max".toList .max
  | width {cw : List Char} (hw : CanonicalNatural cw) (hw0 : Numeral.value cw ≠ 0) :
      Grammar (cw ++ [',']) (.width (Numeral.value cw))
  | height {ch : List Char} (hh : CanonicalNatural ch) (hh0 : Numeral.value ch ≠ 0) :
      Grammar (',' :: ch) (.height (Numeral.value ch))
  | percent {cn : List Char} {places : ℕ} {q : ℚ} {n : Binary64}
      (hn : CanonicalDecimal cn places q) (hn0 : q ≠ 0) (nearest : n.IsNearest q) :
      Grammar ("pct:".toList ++ cn) (.percent n)
  | exact {cw ch : List Char} (hw : CanonicalNatural cw) (hh : CanonicalNatural ch)
      (hw0 : Numeral.value cw ≠ 0) (hh0 : Numeral.value ch ≠ 0) :
      Grammar (cw ++ ',' :: ch) (.exact (Numeral.value cw) (Numeral.value ch))
  | confined {cw ch : List Char} (hw : CanonicalNatural cw) (hh : CanonicalNatural ch)
      (hw0 : Numeral.value cw ≠ 0) (hh0 : Numeral.value ch ≠ 0) :
      Grammar ('!' :: (cw ++ ',' :: ch)) (.confined (Numeral.value cw) (Numeral.value ch))

/-- **The size grammar**: a form, after a caret if the size may be enlarged. -/
def Size.Grammar (cs : List Char) (s : Size) : Prop :=
  ∃ body, cs = (if s.upscale then ['^'] else []) ++ body ∧ SizeForm.Grammar body s.form

theorem SizeForm.spells_iff {form : SizeForm} (hshort : ShortRuns cs) :
    Spells cs form ↔ Grammar cs form := by
  have hfirst : ∀ {a b : List Char}, cs = a ++ b → ShortRuns a := fun h =>
    hshort.of_infix (h ▸ (List.prefix_append _ _).isInfix)
  have hlast : ∀ {a b : List Char}, cs = a ++ b → ShortRuns b := fun h =>
    hshort.of_infix (h ▸ (List.suffix_append _ _).isInfix)
  constructor
  · intro h
    cases h with
    | max => exact .max
    | width hw hw0 =>
      obtain ⟨natural, rfl⟩ := (readNatural_iff (hfirst rfl)).mp hw
      exact .width natural hw0.ne'
    | height hh hh0 =>
      obtain ⟨natural, rfl⟩ := (readNatural_iff (hlast (a := [',']) rfl)).mp hh
      exact .height natural hh0.ne'
    | percent hn hn0 =>
      obtain ⟨_, _, decimal, -, nearest⟩ := (readDecimal_iff (hlast rfl)).mp hn
      rw [nearest.zero_le, Bool.and_true] at hn0
      exact .percent decimal ((le_zero_eq_false_iff decimal nearest).mp hn0) nearest
    | exact hw hh hw0 hh0 =>
      obtain ⟨nw, rfl⟩ := (readNatural_iff (hfirst rfl)).mp hw
      obtain ⟨nh, rfl⟩ := (readNatural_iff (hlast (List.append_cons ..))).mp hh
      exact .exact nw nh hw0.ne' hh0.ne'
    | @confined cw ch w h hw hh hw0 hh0 =>
      have hwidth : cw <:+: '!' :: (cw ++ ',' :: ch) := ⟨['!'], ',' :: ch, by simp⟩
      have hcomma : '!' :: (cw ++ ',' :: ch) = '!' :: (cw ++ [',']) ++ ch := by simp
      obtain ⟨nw, rfl⟩ := (readNatural_iff (hshort.of_infix hwidth)).mp hw
      obtain ⟨nh, rfl⟩ := (readNatural_iff (hlast hcomma)).mp hh
      exact .confined nw nh hw0.ne' hh0.ne'
  · intro h
    cases h with
    | max => exact .max
    | width hw hw0 =>
      exact .width ((readNatural_iff (hfirst rfl)).mpr ⟨hw, rfl⟩) (Nat.pos_of_ne_zero hw0)
    | height hh hh0 =>
      exact .height ((readNatural_iff (hlast (a := [',']) rfl)).mpr ⟨hh, rfl⟩)
        (Nat.pos_of_ne_zero hh0)
    | percent hn hn0 nearest =>
      refine .percent ((readDecimal_iff (hlast rfl)).mpr ⟨_, _, hn, by simp, nearest⟩) ?_
      rw [nearest.zero_le, Bool.and_true]
      exact (le_zero_eq_false_iff hn nearest).mpr hn0
    | exact hw hh hw0 hh0 =>
      exact .exact ((readNatural_iff (hfirst rfl)).mpr ⟨hw, rfl⟩)
        ((readNatural_iff (hlast (List.append_cons ..))).mpr ⟨hh, rfl⟩)
        (Nat.pos_of_ne_zero hw0) (Nat.pos_of_ne_zero hh0)
    | @confined cw ch hw hh hw0 hh0 =>
      have hwidth : cw <:+: '!' :: (cw ++ ',' :: ch) := ⟨['!'], ',' :: ch, by simp⟩
      have hcomma : '!' :: (cw ++ ',' :: ch) = '!' :: (cw ++ [',']) ++ ch := by simp
      exact .confined ((readNatural_iff (hshort.of_infix hwidth)).mpr ⟨hw, rfl⟩)
        ((readNatural_iff (hlast hcomma)).mpr ⟨hh, rfl⟩)
        (Nat.pos_of_ne_zero hw0) (Nat.pos_of_ne_zero hh0)

theorem Size.parse_iff {s : Size} (hshort : ShortRuns text.toList) :
    parse text = .ok (.ok s) ↔ Grammar text.toList s := by
  have hbody : ∀ {body}, text.toList = (if s.upscale then ['^'] else []) ++ body →
      ShortRuns body := fun htext =>
    hshort.of_infix (htext ▸ (List.suffix_append _ _).isInfix)
  constructor
  · intro h
    obtain ⟨body, htext, hspells⟩ := spells_of_parse h
    exact ⟨body, htext, (SizeForm.spells_iff (hbody htext)).mp hspells⟩
  · rintro ⟨body, htext, hgrammar⟩
    exact parse_of_spells htext ((SizeForm.spells_iff (hbody htext)).mpr hgrammar)

/-! ### Rotations -/

/-- **The rotation grammar**: a decimal of at most one place that is not beyond 360, after an
exclamation mark if the image is mirrored. -/
def Rotation.Grammar (cs : List Char) (r : Rotation) : Prop :=
  ∃ body places q, cs = (if r.mirror then ['!'] else []) ++ body ∧ CanonicalDecimal body places q ∧
    places ≤ 1 ∧ q ≤ 360 ∧ r.degrees.IsNearest q

theorem exists_cons_of_readDecimal {places? : Option ℕ} {x : Binary64}
    (h : readDecimal places? cs = .ok (some x)) : ∃ c ds, cs = c :: ds ∧ c.isDigit = true := by
  have hnatural : ∀ {ds}, isNatural ds = true → ∃ c rest, ds = c :: rest ∧ c.isDigit = true := by
    intro ds hds
    have natural := isNatural_iff.mp hds
    obtain ⟨c, rest, rfl⟩ := List.exists_cons_of_ne_nil natural.ne_nil
    exact ⟨c, rest, rfl, natural.isDigit c (by simp)⟩
  rcases readDecimal_cases h with ⟨hnat, -⟩ | ⟨whole, fraction, rfl, hnat, -⟩
  · exact hnatural hnat
  · obtain ⟨c, rest, rfl, hc⟩ := hnatural hnat
    exact ⟨c, rest ++ '.' :: fraction, rfl, hc⟩

theorem Rotation.parse_of_readDecimal {r : Rotation}
    (htext : text.toList = (if r.mirror then ['!'] else []) ++ cs)
    (hread : readDecimal (some 1) cs = .ok (some r.degrees))
    (hlimit : ¬Binary64.lt (.ofInt 360) r.degrees = true) : parse text = .ok (.ok r) := by
  obtain ⟨degrees, mirror⟩ := r
  dsimp only at htext hread hlimit
  unfold parse
  rw [htext]
  cases mirror with
  | true =>
    rw [if_pos rfl, after?_append]
    dsimp only
    rw [hread, Outcome.ok_bind]
    dsimp only
    rw [if_neg hlimit]
    rfl
  | false =>
    have hmark : ¬['!'] <+: cs := by
      obtain ⟨c, ds, rfl, hc⟩ := exists_cons_of_readDecimal hread
      exact not_prefix_of_isDigit hc rfl
    rw [if_neg (by simp), List.nil_append, after?_eq_none.mpr hmark]
    dsimp only
    rw [hread, Outcome.ok_bind]
    dsimp only
    rw [if_neg hlimit]
    rfl

theorem Rotation.parse_iff {r : Rotation} (hshort : ShortRuns text.toList) :
    parse text = .ok (.ok r) ↔ Grammar text.toList r := by
  have hbeyond : ∀ {body places q}, CanonicalDecimal body places q → r.degrees.IsNearest q →
      (Binary64.lt (.ofInt 360) r.degrees = true ↔ 360 < q) := by
    intro body places q decimal nearest
    simpa using decimal.lt_iff nearest (m := 360) (by norm_num) (by norm_num)
  constructor
  · intro h
    obtain ⟨body, htext, hread, hlimit⟩ := parse_cases h
    have hbody : ShortRuns body := hshort.of_infix (htext ▸ (List.suffix_append _ _).isInfix)
    obtain ⟨places, q, decimal, hplaces, nearest⟩ := (readDecimal_iff hbody).mp hread
    refine ⟨body, places, q, htext, decimal, hplaces 1 rfl, ?_, nearest⟩
    rw [← not_lt, ← hbeyond decimal nearest, hlimit]
    exact Bool.false_ne_true
  · rintro ⟨body, places, q, htext, decimal, hplaces, hlimit, nearest⟩
    have hbody : ShortRuns body := hshort.of_infix (htext ▸ (List.suffix_append _ _).isInfix)
    have hread : readDecimal (some 1) body = .ok (some r.degrees) :=
      (readDecimal_iff hbody).mpr ⟨places, q, decimal, by simpa using hplaces, nearest⟩
    refine parse_of_readDecimal htext hread ?_
    rw [hbeyond decimal nearest]
    exact not_lt.mpr hlimit

/-! ### What is accepted -/

/-- **Every parser accepts exactly its grammar.** A text without long runs of digits is answered,
and it is read as a value exactly if it stands for the value in the grammar. -/
theorem parse_iff_grammar (hshort : ShortRuns text.toList) :
    (∃ p, Region.parse text = .ok p ∧ ∀ r, p = .ok r ↔ Region.Grammar text.toList r) ∧
    (∃ p, Size.parse text = .ok p ∧ ∀ s, p = .ok s ↔ Size.Grammar text.toList s) ∧
    (∃ p, Rotation.parse text = .ok p ∧ ∀ r, p = .ok r ↔ Rotation.Grammar text.toList r) := by
  refine ⟨?_, ?_, ?_⟩
  · obtain ⟨p, hp⟩ := Region.exists_parse hshort
    refine ⟨p, hp, fun r => ?_⟩
    rw [← Region.parse_iff hshort, hp, Except.ok.injEq]
  · obtain ⟨p, hp⟩ := Size.exists_parse hshort
    refine ⟨p, hp, fun s => ?_⟩
    rw [← Size.parse_iff hshort, hp, Except.ok.injEq]
  · obtain ⟨p, hp⟩ := Rotation.exists_parse hshort
    refine ⟨p, hp, fun r => ?_⟩
    rw [← Rotation.parse_iff hshort, hp, Except.ok.injEq]

/-- Half a degree after an exclamation mark is read as what it stands for. -/
theorem parse_half_degree : ShortRuns "!22.5".toList ∧ ∃ r : Rotation,
    Rotation.parse "!22.5" = .ok (.ok r) ∧ Rotation.Grammar "!22.5".toList r ∧ r.mirror = true ∧
      r.degrees.IsNearest (45 / 2) := by
  have hshort : ShortRuns "!22.5".toList := shortRuns_of_length (by decide)
  have hnearest : (Binary64.ofDecimal false 225 (-(1 : ℕ))).IsNearest (45 / 2) := by
    have h := Binary64.isNearest_ofDecimal (show 1 ≤ 30 by norm_num)
      (show 225 < 10 ^ 15 by norm_num)
    norm_num at h
    exact h
  have hdecimal : CanonicalDecimal "22.5".toList 1 (45 / 2) := by
    have natural : CanonicalNatural "22".toList := isNatural_iff.mp (by decide)
    have fraction : isFraction "5".toList = true := by decide
    obtain ⟨ne_nil, isDigit, last⟩ := isFraction_iff.mp fraction
    have h := CanonicalDecimal.point natural ne_nil isDigit last (by decide)
    have hvalue : (Numeral.value ("22".toList ++ "5".toList) / 10 ^ "5".toList.length : ℚ) =
        45 / 2 := by
      rw [show Numeral.value ("22".toList ++ "5".toList) = 225 by decide,
        show "5".toList.length = 1 from rfl]
      norm_num
    rwa [hvalue] at h
  have hgrammar : Rotation.Grammar "!22.5".toList ⟨.ofDecimal false 225 (-(1 : ℕ)), true⟩ :=
    ⟨_, 1, 45 / 2, rfl, hdecimal, le_rfl, by norm_num, hnearest⟩
  obtain ⟨-, -, p, hp, hiff⟩ := parse_iff_grammar hshort
  exact ⟨hshort, _, by rw [hp, (hiff _).mpr hgrammar], hgrammar, rfl, hnearest⟩

end IiifRules
