import Mathlib
import IiifRules.Proofs.Segment.Grammar
import IiifRules.Proofs.Segment.Token

/-! # Segments written as they were read

* `Region.formatChars_of_spells`, `Size.formatChars_of_spells`: a value is written as any text that
  stands for it, so that there is one such text only.
* `format_parse`: a text that is read as a region, a size or a rotation is written again. -/

namespace IiifRules

open Numeric Text Segment.Token

theorem Region.formatChars_of_spells {cs : List Char} {r : Region} (h : Spells cs r) :
    r.formatChars = .ok cs := by
  cases h with
  | full => rfl
  | square => rfl
  | @pixels cx cy cw ch x y w h hx hy hw hh =>
    have hparts : [(x : ℤ), y, w, h].mapM Numeral.writeChars = .ok [cx, cy, cw, ch] :=
      Outcome.mapM_eq_ok.mpr (.cons (writeChars_of_readNatural hx)
        (.cons (writeChars_of_readNatural hy) (.cons (writeChars_of_readNatural hw)
          (.cons (writeChars_of_readNatural hh) .nil))))
    rw [formatChars, hparts]
    rfl
  | percent hx hy hw hh =>
    rw [formatChars, List.map_cons, List.map_cons, List.map_cons, List.map_cons, List.map_nil,
      plain_of_readDecimal hx, plain_of_readDecimal hy, plain_of_readDecimal hw,
      plain_of_readDecimal hh]

theorem Size.formChars_of_spells {cs : List Char} {form : SizeForm} (h : form.Spells cs) :
    formChars form = .ok cs := by
  cases h with
  | max => rfl
  | width hw => rw [formChars, writeChars_of_readNatural hw]; rfl
  | height hh => rw [formChars, writeChars_of_readNatural hh]; rfl
  | percent hn => rw [formChars, plain_of_readDecimal hn]
  | exact hw hh =>
    rw [formChars, writeChars_of_readNatural hw, writeChars_of_readNatural hh]; rfl
  | confined hw hh =>
    rw [formChars, writeChars_of_readNatural hw, writeChars_of_readNatural hh]; rfl

theorem Region.format_of_parse {text : String} {r : Region} (h : parse text = .ok (.ok r)) :
    r.format = .ok text := by
  rw [format, formatChars_of_spells (spells_of_parse h)]
  exact congrArg Except.ok String.ofList_toList

theorem Size.format_of_parse {text : String} {s : Size} (h : parse text = .ok (.ok s)) :
    s.format = .ok text := by
  obtain ⟨cs, htext, hs⟩ := spells_of_parse h
  rw [format, formatChars, formChars_of_spells hs]
  exact congrArg Except.ok (htext ▸ String.ofList_toList)

theorem Rotation.format_of_parse {text : String} {r : Rotation} (h : parse text = .ok (.ok r)) :
    r.format = text := by
  obtain ⟨cs, htext, hread, -⟩ := parse_cases h
  have hchars : r.formatChars = text.toList := by
    rw [formatChars, htext]
    rcases toInt?_or_fixed_of_readDecimal hread with ⟨n, hint, hn⟩ | ⟨hint, hfixed⟩
    · rw [hint, ← hn]
    · rw [hint, ← hfixed]
  rw [format, hchars, String.ofList_toList]

/-- **A segment that is read is written again**, character by character. -/
theorem format_parse (text : String) :
    (∀ r : Region, Region.parse text = .ok (.ok r) → r.format = .ok text) ∧
    (∀ s : Size, Size.parse text = .ok (.ok s) → s.format = .ok text) ∧
    (∀ r : Rotation, Rotation.parse text = .ok (.ok r) → r.format = text) :=
  ⟨fun _ => Region.format_of_parse, fun _ => Size.format_of_parse,
    fun _ => Rotation.format_of_parse⟩

/-- A rectangle in percent, an enlarged size and a mirrored rotation, written again. -/
theorem format_parse_of_decimals :
    (∃ r, Region.parse "pct:0.000012,7.5,99.99999999999,0.1" = .ok (.ok r) ∧
      r.format = .ok "pct:0.000012,7.5,99.99999999999,0.1") ∧
    (∃ s, Size.parse "^pct:120.5" = .ok (.ok s) ∧ s.format = .ok "^pct:120.5") ∧
    (∃ r, Rotation.parse "!22.5" = .ok (.ok r) ∧ r.format = "!22.5") := by
  refine ⟨⟨.percent (.ofDecimal false 12 (-6)) (.ofDecimal false 75 (-1))
      (.ofDecimal false 9999999999999 (-11)) (.ofDecimal false 1 (-1)), ?_⟩,
    ⟨⟨.percent (.ofDecimal false 1205 (-1)), true⟩, ?_⟩, ⟨⟨.ofDecimal false 225 (-1), true⟩, ?_⟩⟩
  · have h : Region.parse "pct:0.000012,7.5,99.99999999999,0.1" = .ok (.ok (.percent
        (.ofDecimal false 12 (-6)) (.ofDecimal false 75 (-1))
        (.ofDecimal false 9999999999999 (-11)) (.ofDecimal false 1 (-1)))) := by
      decide +kernel
    exact ⟨h, (format_parse _).1 _ h⟩
  · have h : Size.parse "^pct:120.5" =
        .ok (.ok ⟨.percent (.ofDecimal false 1205 (-1)), true⟩) := by
      decide +kernel
    exact ⟨h, (format_parse _).2.1 _ h⟩
  · have h : Rotation.parse "!22.5" = .ok (.ok ⟨.ofDecimal false 225 (-1), true⟩) := by
      decide +kernel
    exact ⟨h, (format_parse _).2.2 _ h⟩

end IiifRules
