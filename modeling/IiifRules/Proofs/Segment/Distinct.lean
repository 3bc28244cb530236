import Mathlib
import IiifRules.Proofs.Segment.Written

/-! # Values in whole pixels and their texts

A region or a size in whole pixels is written as a text that is read as the same value again, so
that no two of them are written alike. Nor is a region ever written like a size, which has fewer
commas.

* `Region.Integral`, `Size.Integral`: values in whole pixels within the bounds of the grammar.
* `Region.eq_of_format_eq`, `Size.eq_of_format_eq`: what two values with one text come to.
* `Region.format_ne`: a region is not written like a size.
* `integral_parse_format`: all of it. -/

namespace IiifRules

open Numeric Text Segment.Token

/-- **A region in whole pixels** within the bounds of the grammar. -/
def Region.Integral (r : Region) : Prop := r.InRange ∧ r.IsWhole

/-- **A size in whole pixels** within the bounds of the grammar, with a caret or without. -/
def Size.Integral (s : Size) : Prop := s.form.InRange ∧ s.form.IsWhole

/-! ### One value for each text -/

/-- Values that are read again from what they are written as are not written alike. -/
theorem eq_of_parse_format {α : Type} {format : α → Except Failure String}
    {parse : String → Except Failure (Parsed α)} {a b : α}
    (ha : ∃ text, format a = .ok text ∧ parse text = .ok (.ok a))
    (hb : ∃ text, format b = .ok text ∧ parse text = .ok (.ok b)) (h : format a = format b) :
    a = b := by
  obtain ⟨text, hformat, hparse⟩ := ha
  obtain ⟨text', hformat', hparse'⟩ := hb
  rw [hformat, hformat'] at h
  cases h
  rw [hparse] at hparse'
  cases hparse'
  rfl

theorem Region.eq_of_format_eq {r r' : Region} (h : r.Integral) (h' : r'.Integral)
    (heq : r.format = r'.format) : r = r' :=
  eq_of_parse_format (parse_format h.1 h.2) (parse_format h'.1 h'.2) heq

theorem Size.eq_of_format_eq {s s' : Size} (h : s.Integral) (h' : s'.Integral)
    (heq : s.format = s'.format) : s = s' :=
  eq_of_parse_format (parse_format h.1 h.2) (parse_format h'.1 h'.2) heq

/-! ### Regions and sizes apart -/

section Commas

variable {cs : List Char}

theorem count_comma_of_readNatural {n : ℕ} (h : readNatural cs = .ok (some n)) :
    cs.count ',' = 0 :=
  List.count_eq_zero.mpr (comma_notMem_of_readNatural h)

/-- A region in whole pixels has three commas or is one of two words. -/
theorem Region.Spells.commas {r : Region} (h : Spells cs r) (hwhole : r.IsWhole) :
    cs.count ',' = 3 ∨ cs = "full".toList ∨ cs = "square".toList := by
  cases h with
  | full => right; left; rfl
  | square => right; right; rfl
  | pixels hx hy hw hh =>
    left
    simp [join, count_comma_of_readNatural hx, count_comma_of_readNatural hy,
      count_comma_of_readNatural hw, count_comma_of_readNatural hh]
  | percent => exact absurd hwhole not_false

/-- A size in whole pixels has one comma or is one word. -/
theorem SizeForm.Spells.commas {form : SizeForm} (h : form.Spells cs) (hwhole : form.IsWhole) :
    cs.count ',' = 1 ∨ cs = "max".toList := by
  cases h with
  | max => right; rfl
  | width hw => left; simp [count_comma_of_readNatural hw]
  | height hh => left; simp [count_comma_of_readNatural hh]
  | percent => exact absurd hwhole not_false
  | exact hw hh =>
    left
    simp [count_comma_of_readNatural hw, count_comma_of_readNatural hh]
  | confined hw hh =>
    left
    simp [count_comma_of_readNatural hw, count_comma_of_readNatural hh]

end Commas

theorem Region.format_ne {r : Region} {s : Size} (hr : r.Integral) (hs : s.Integral) :
    r.format ≠ s.format := by
  obtain ⟨text, hformat, hparse⟩ := Region.parse_format hr.1 hr.2
  obtain ⟨text', hformat', hparse'⟩ := Size.parse_format hs.1 hs.2
  obtain ⟨cs, htext, hform⟩ := Size.spells_of_parse hparse'
  rw [hformat, hformat']
  intro heq
  cases heq
  have hregion := (spells_of_parse hparse).commas hr.2
  have hsize := hform.commas hs.2
  rw [htext] at hregion
  have hmark : ((if s.upscale then ['^'] else []) : List Char).count ',' = 0 := by
    cases s.upscale <;> rfl
  rcases hsize with hone | rfl
  · have hcount : ((if s.upscale then ['^'] else []) ++ cs).count ',' = 1 := by
      rw [List.count_append, hmark, hone]
    rcases hregion with hthree | hword | hword
    · omega
    · rw [hword] at hcount
      exact absurd hcount (by decide)
    · rw [hword] at hcount
      exact absurd hcount (by decide)
  · generalize s.upscale = upscale at hregion
    cases upscale <;> exact absurd hregion (by decide)

/-! ### All of it -/

/-- **Regions and sizes in whole pixels are read again** from what they are written as, and no two
of them are written alike. -/
theorem integral_parse_format :
    (∀ r : Region, r.Integral → ∃ text, r.format = .ok text ∧ Region.parse text = .ok (.ok r)) ∧
    (∀ s : Size, s.Integral → ∃ text, s.format = .ok text ∧ Size.parse text = .ok (.ok s)) ∧
    (∀ r r' : Region, r.Integral → r'.Integral → r.format = r'.format → r = r') ∧
    (∀ s s' : Size, s.Integral → s'.Integral → s.format = s'.format → s = s') ∧
    ∀ (r : Region) (s : Size), r.Integral → s.Integral → r.format ≠ s.format :=
  ⟨fun _ h => Region.parse_format h.1 h.2, fun _ h => Size.parse_format h.1 h.2,
    fun _ _ => Region.eq_of_format_eq, fun _ _ => Size.eq_of_format_eq,
    fun _ _ => Region.format_ne⟩

/-- A rectangle and an enlarged size, each with a length beyond any machine word. -/
theorem integral_parse_format_of_large :
    let r : Region := .pixels 0 800 (10 ^ 40) 600
    let s : Size := ⟨.confined (10 ^ 40) 600, true⟩
    r.Integral ∧ s.Integral ∧
      (∃ text, r.format = .ok text ∧ Region.parse text = .ok (.ok r)) ∧
      (∃ text, s.format = .ok text ∧ Size.parse text = .ok (.ok s)) ∧ r.format ≠ s.format := by
  intro r s
  have hr : r.Integral :=
    ⟨.pixels ⟨by decide, by decide⟩ ⟨by decide, by decide⟩ ⟨by decide, by decide +kernel⟩
      ⟨by decide, by decide⟩, trivial⟩
  have hs : s.Integral :=
    ⟨.confined ⟨by decide, by decide +kernel⟩ ⟨by decide, by decide⟩, trivial⟩
  obtain ⟨hregion, hsize, -, -, hne⟩ := integral_parse_format
  exact ⟨hr, hs, hregion r hr, hsize s hs, hne r s hr hs⟩

end IiifRules
