import Mathlib
import IiifRules.Json.Reader
import IiifRules.Json.Writer
import IiifRules.Proofs.Segment.Token
import IiifRules.Proofs.Text.Utf8

/-! # Tokens of a JSON text that are read back

Texts and numbers as they are written, in the middle of a longer text.

* `readText_writeText`: a text between marks is read back, whichever of its characters are escaped.
* `readNumber_chars`: so is an integer that is not too long, if nothing follows that would go on
  with it. -/

namespace IiifRules.Json

open Numeric Text

/-! ### Escapes -/

/-- A hexadecimal digit is read back. -/
theorem value?_lower : ∀ d < 16, Hex.value? (Hex.lower d) = some d := by decide

theorem unit?_digits {n : ℕ} (h : n < 0x10000) (rest : List Char) :
    unit? (Hex.digits 4 n ++ rest) = some n := by
  have hdigits : Hex.digits 4 n = [Hex.lower (n / 16 / 16 / 16 % 16), Hex.lower (n / 16 / 16 % 16),
      Hex.lower (n / 16 % 16), Hex.lower (n % 16)] := rfl
  rw [hdigits]
  simp only [List.cons_append, List.nil_append, unit?,
    value?_lower _ (Nat.mod_lt _ (by decide : 0 < 16)), Option.bind_eq_bind, Option.bind_some,
    Option.some.injEq]
  omega

theorem drop_digits (n : ℕ) (rest : List Char) : (Hex.digits 4 n ++ rest).drop 4 = rest := by
  rfl

variable {start offset fuel : ℕ} {cs rest seen : List Char} {c : Char}

/-- A unit that begins no pair is a character by itself. -/
theorem codeEscape?_unit (offset : ℕ) {n : ℕ} (h : n < 0xD800 ∨ 0xDC00 ≤ n) (hn : n < 0x10000)
    (hrest : rest ≠ []) :
    codeEscape? (Hex.digits 4 n ++ rest) offset = .ok (unitChar n, 4) := by
  unfold codeEscape?
  rw [drop_digits, unit?_digits hn, if_neg (by simpa using hrest)]
  dsimp only
  rw [if_neg (by omega)]

/-- **A pair of units** is one character. -/
theorem codeEscape?_pair (offset : ℕ) {high low : ℕ} (hh : 0xD800 ≤ high) (hh' : high < 0xDC00)
    (hl : 0xDC00 ≤ low) (hl' : low < 0xE000) (hrest : rest ≠ []) :
    codeEscape? (Hex.digits 4 high ++ (unitEscape low ++ rest)) offset =
      .ok (Char.ofNat (0x10000 + (high - 0xD800) * 0x400 + (low - 0xDC00)), 10) := by
  have hdrop : (unitEscape low ++ rest).drop 2 = Hex.digits 4 low ++ rest := rfl
  have hdrop' : (unitEscape low ++ rest).drop 6 = rest := rfl
  have htake : (unitEscape low ++ rest).take 2 = ['\\', 'u'] := rfl
  unfold codeEscape?
  rw [drop_digits, unit?_digits (by omega), if_neg (by simp [unitEscape])]
  dsimp only
  rw [hdrop, hdrop', htake, unit?_digits (by omega),
    if_pos ⟨hh, hh', by simpa using hrest, rfl⟩]
  dsimp only
  rw [if_pos ⟨hl, hl'⟩]

theorem readText_code {n : ℕ} (h : codeEscape? cs (offset + 1) = .ok (c, n)) :
    readText start (fuel + 1) ⟨'\\' :: 'u' :: cs, offset⟩ seen =
      readText start fuel ⟨cs.drop n, offset + (n + 2)⟩ (c :: seen) := by
  simp [readText, h, Cursor.advance]

theorem readText_letter {e : Char} (h : letterEscape? e = some c) :
    readText start (fuel + 1) ⟨'\\' :: e :: cs, offset⟩ seen =
      readText start fuel ⟨cs, offset + 2⟩ (c :: seen) := by
  have he : e ≠ 'u' := by
    rintro rfl
    cases h
  simp [readText, h, Cursor.advance]

theorem readText_plain (hmark : c ≠ '"') (hslash : c ≠ '\\') (hcontrol : 0x20 ≤ c.toNat) :
    readText start (fuel + 1) ⟨c :: cs, offset⟩ seen =
      readText start fuel ⟨cs, offset + 1⟩ (c :: seen) := by
  simp [readText, hslash, hcontrol, Cursor.advance]

theorem unitChar_toNat (c : Char) : unitChar c.toNat = c := by
  have := toNat_cases c
  rw [unitChar, if_neg (by omega), Char.ofNat_toNat]

theorem readText_unitEscape (hn : c.toNat < 0x10000) (hrest : rest ≠ []) :
    readText start (fuel + 1) ⟨unitEscape c.toNat ++ rest, offset⟩ seen =
      readText start fuel ⟨rest, offset + (unitEscape c.toNat).length⟩ (c :: seen) := by
  have h := codeEscape?_unit (offset + 1) (by have := toNat_cases c; omega) hn hrest
  rw [unitChar_toNat] at h
  exact readText_code h

/-- **An escape by code** is read back, by one unit or by two. -/
theorem readText_codeEscape (hrest : rest ≠ []) :
    readText start (fuel + 1) ⟨codeEscape c.toNat ++ rest, offset⟩ seen =
      readText start fuel ⟨rest, offset + (codeEscape c.toNat).length⟩ (c :: seen) := by
  have hc := toNat_cases c
  unfold codeEscape
  split_ifs with hn
  · exact readText_unitEscape hn hrest
  · set high := 0xD800 + (c.toNat - 0x10000) / 0x400 with hhigh
    set low := 0xDC00 + (c.toNat - 0x10000) % 0x400 with hlow
    have hhigh' : 0xD800 ≤ high := by omega
    have hlow' : 0xDC00 ≤ low := by omega
    have h := codeEscape?_pair (offset + 1) hhigh' (by omega) hlow' (by omega) hrest
    rw [show 0x10000 + (high - 0xD800) * 0x400 + (low - 0xDC00) = c.toNat by omega,
      Char.ofNat_toNat] at h
    rw [List.append_assoc]
    exact readText_code h

/-- **A character is read back**, escaped or not. -/
theorem readText_escapeChar (ascii : Bool) (c : Char) (hrest : rest ≠ []) :
    readText start (fuel + 1) ⟨escapeChar ascii c ++ rest, offset⟩ seen =
      readText start fuel ⟨rest, offset + (escapeChar ascii c).length⟩ (c :: seen) := by
  unfold escapeChar
  split_ifs with hmark hslash hline hreturn htab hback hfeed hcontrol hascii
  · exact readText_letter (by rw [hmark]; rfl)
  · exact readText_letter (by rw [hslash]; rfl)
  · exact readText_letter (by rw [hline]; rfl)
  · exact readText_letter (by rw [hreturn]; rfl)
  · exact readText_letter (by rw [htab]; rfl)
  · exact readText_letter (by rw [hback]; rfl)
  · exact readText_letter (by rw [hfeed]; rfl)
  · exact readText_unitEscape (by omega) hrest
  · exact readText_codeEscape hrest
  · exact readText_plain hmark hslash (not_lt.mp hcontrol)

/-- **The characters of a text** are read back up to the mark at its end. -/
theorem readText_flatMap (ascii : Bool) (cs : List Char) (hfuel : cs.length < fuel) :
    readText start fuel ⟨cs.flatMap (escapeChar ascii) ++ '"' :: rest, offset⟩ seen =
      .ok (String.ofList (seen.reverse ++ cs),
        ⟨rest, offset + (cs.flatMap (escapeChar ascii)).length + 1⟩) := by
  induction cs generalizing fuel offset seen with
  | nil =>
    obtain ⟨fuel, rfl⟩ : ∃ k, fuel = k + 1 := ⟨fuel - 1, by simp at hfuel; omega⟩
    simp [readText, Cursor.advance]
  | cons c cs ih =>
    obtain ⟨fuel, rfl⟩ : ∃ k, fuel = k + 1 := ⟨fuel - 1, by simp at hfuel; omega⟩
    rw [List.flatMap_cons, List.append_assoc, readText_escapeChar ascii c (by simp),
      ih (by simpa using hfuel), List.reverse_cons, List.append_assoc, List.singleton_append,
      List.length_append, Nat.add_assoc offset]

theorem length_le_flatMap (ascii : Bool) (cs : List Char) :
    cs.length ≤ (cs.flatMap (escapeChar ascii)).length := by
  have hpos : ∀ c, 1 ≤ (escapeChar ascii c).length := by
    intro c
    unfold escapeChar codeEscape unitEscape
    split_ifs <;> simp
  induction cs with
  | nil => simp
  | cons c cs ih =>
    rw [List.flatMap_cons, List.length_append, List.length_cons]
    have := hpos c
    omega

/-- **A text between marks** is read back. -/
theorem readText_writeText (start offset : ℕ) (rest : List Char) (ascii : Bool) (s : String) :
    readText start ((writeText ascii s ++ rest).length + 1)
      (Cursor.advance ⟨writeText ascii s ++ rest, offset⟩ 1) [] =
      .ok (s, ⟨rest, offset + (writeText ascii s).length⟩) := by
  have hsplit : writeText ascii s ++ rest =
      '"' :: (s.toList.flatMap (escapeChar ascii) ++ '"' :: rest) := by
    simp [writeText]
  have hadvance : Cursor.advance ⟨writeText ascii s ++ rest, offset⟩ 1 =
      ⟨s.toList.flatMap (escapeChar ascii) ++ '"' :: rest, offset + 1⟩ := by
    rw [hsplit]
    rfl
  rw [hadvance, readText_flatMap ascii _ (by
    have := length_le_flatMap ascii s.toList
    simp only [writeText, List.length_cons, List.length_append]
    omega)]
  simp [writeText]
  omega

/-! ### Numbers -/

/-- What may follow a number. -/
def Stops (rest : List Char) : Prop :=
  ∀ c ∈ rest.head?, c.isDigit = false ∧ c ≠ '.' ∧ c ≠ 'e' ∧ c ≠ 'E'

theorem Stops.takeWhile_append (h : Stops rest) {ds : List Char}
    (hds : ∀ c ∈ ds, c.isDigit = true) : (ds ++ rest).takeWhile Char.isDigit = ds := by
  rw [List.takeWhile_append_of_pos hds]
  cases rest with
  | nil => simp
  | cons c rest => rw [List.takeWhile_cons_of_neg (by simp [(h c rfl).1]), List.append_nil]

theorem Stops.fractionPart_eq (h : Stops rest) : fractionPart rest = [] := by
  unfold fractionPart
  split
  · exact absurd rfl (h '.' rfl).2.1
  · rfl

theorem Stops.exponentPart_eq (h : Stops rest) : exponentPart rest = (0, 0) := by
  unfold exponentPart
  split
  · rename_i e rest
    obtain ⟨-, -, he, he'⟩ := h e rfl
    simp [he, he']
  · rfl

/-- The digits in front of a point are those of a number as it is written. -/
theorem Stops.whole_eq (h : Stops rest) (n : ℕ) :
    (if (Numeral.digits n ++ rest).head? = some '0' then ['0']
      else (Numeral.digits n ++ rest).takeWhile Char.isDigit) = Numeral.digits n := by
  rcases Segment.Token.isNatural_cases (Segment.Token.isNatural_digits n) with h0 | ⟨c, ds, hc, hne⟩
  · simp [h0]
  · rw [hc, List.cons_append, List.head?_cons, if_neg (by simpa using hne), ← List.cons_append,
      ← hc]
    exact h.takeWhile_append fun c hc => Numeral.isDigit_of_mem_digits hc

theorem read_digits {n : ℕ} (h : (Numeral.digits n).length ≤ Numeral.digitLimit) :
    Numeral.read (Numeral.digits n) = .ok n := by
  rw [Numeral.read, if_neg (by omega), Numeral.value_digits]

/-- **An integer** that is not too long is read back. -/
theorem readNumber_chars {i : ℤ} (hi : Numeral.writable i = true) (h : Stops rest) :
    readNumber ⟨Numeral.chars i ++ rest, offset⟩ =
      .ok (.int i, ⟨rest, offset + (Numeral.chars i).length⟩) := by
  have hlength : (Numeral.digits i.natAbs).length ≤ Numeral.digitLimit := of_decide_eq_true hi
  have hne : Numeral.digits i.natAbs ≠ [] := List.ne_nil_of_length_pos (Numeral.length_digits_pos _)
  have hdrop : (Numeral.digits i.natAbs ++ rest).drop (Numeral.digits i.natAbs).length = rest :=
    List.drop_left
  unfold readNumber Numeral.chars
  by_cases hneg : i < 0
  · have habs : -(i.natAbs : ℤ) = i := by omega
    simp only [hneg, ↓reduceIte, List.cons_append, List.head?_cons, List.drop_succ_cons,
      List.drop_zero, h.whole_eq, hdrop, h.fractionPart_eq, h.exponentPart_eq, List.isEmpty_nil,
      List.isEmpty_iff, hne, Nat.add_zero, Cursor.advance, read_digits hlength, habs,
      and_self, List.length_cons, Nat.add_comm 1]
  · have hhead : (Numeral.digits i.natAbs ++ rest).head? ≠ some '-' := by
      rw [List.head?_append_of_ne_nil _ hne]
      intro h
      exact absurd (Numeral.isDigit_of_mem_digits (List.mem_of_head? h)) (by decide)
    have habs : (i.natAbs : ℤ) = i := by omega
    simp only [hneg, ↓reduceIte, hhead,
      List.drop_zero, h.whole_eq, hdrop, h.fractionPart_eq, h.exponentPart_eq, List.isEmpty_nil,
      List.isEmpty_iff, hne, Nat.add_zero, Nat.zero_add, Cursor.advance, read_digits hlength, habs,
      and_self]

end IiifRules.Json
