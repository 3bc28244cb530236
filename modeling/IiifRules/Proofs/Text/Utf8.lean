import Mathlib
import IiifRules.Text.Utf8

/-! # Characters as bytes and back

The first byte of an encoded character says how many follow it and, where a shorter form, a
surrogate or a number above all characters could follow, between which bounds the second one lies.
The bytes of a character keep to that, so that they are read as the character again, whatever comes
after them.

* `announce?_two`, `announce?_three`, `announce?_four`: what the first byte announces.
* `decodeFrom_encodeChar`: the bytes of one character.
* `decode_encode`: **what is encoded is decoded to the same characters**. -/

namespace IiifRules.Text

theorem toNat_cases (c : Char) : c.toNat < 0xD800 ∨ 0xE000 ≤ c.toNat ∧ c.toNat < 0x110000 := by
  rcases c.valid with h | ⟨h, h'⟩
  · exact .inl h
  · exact .inr ⟨h, h'⟩

namespace Utf8

variable {n t code least greatest : ℕ} {bs : List ℕ}

/-! ### First bytes -/

theorem announce?_two (h : 0x80 ≤ n) (h' : n < 0x800) :
    announce? (0xC0 + n / 64) = some ⟨1, n / 64, 0x80, 0xBF⟩ := by
  unfold announce?
  rw [if_pos (by omega), Nat.add_sub_cancel_left]

/-- A form of three bytes: the second one is bounded after the first byte of the least codes and of
those before the surrogates. -/
theorem announce?_three (h : 0x800 ≤ n) (h' : n < 0x10000) (hsurrogate : n < 0xD800 ∨ 0xDFFF < n) :
    ∃ least greatest, announce? (0xE0 + n / 4096) = some ⟨2, n / 4096, least, greatest⟩ ∧
      least ≤ 0x80 + n / 64 % 64 ∧ 0x80 + n / 64 % 64 ≤ greatest := by
  unfold announce?
  rw [if_neg (by omega)]
  by_cases hfirst : n / 4096 = 0
  · refine ⟨0xA0, 0xBF, ?_, by omega, by omega⟩
    rw [if_pos (by omega), hfirst]
  · rw [if_neg (by omega)]
    by_cases hbefore : n / 4096 = 0xD
    · refine ⟨0x80, 0x9F, ?_, by omega, by omega⟩
      rw [if_pos (by omega), hbefore]
    · refine ⟨0x80, 0xBF, ?_, by omega, by omega⟩
      rw [if_neg (by omega), if_pos (by omega), Nat.add_sub_cancel_left]

/-- A form of four bytes: the second one is bounded after the first byte of the least codes and of
the greatest. -/
theorem announce?_four (h : 0x10000 ≤ n) (h' : n < 0x110000) :
    ∃ least greatest, announce? (0xF0 + n / 262144) = some ⟨3, n / 262144, least, greatest⟩ ∧
      least ≤ 0x80 + n / 4096 % 64 ∧ 0x80 + n / 4096 % 64 ≤ greatest := by
  unfold announce?
  rw [if_neg (by omega), if_neg (by omega), if_neg (by omega), if_neg (by omega)]
  by_cases hfirst : n / 262144 = 0
  · refine ⟨0x90, 0xBF, ?_, by omega, by omega⟩
    rw [if_pos (by omega), hfirst]
  · rw [if_neg (by omega)]
    by_cases hlast : n / 262144 = 4
    · refine ⟨0x80, 0x8F, ?_, by omega, by omega⟩
      rw [if_neg (by omega), if_pos (by omega), hlast]
    · refine ⟨0x80, 0xBF, ?_, by omega, by omega⟩
      rw [if_pos (by omega), Nat.add_sub_cancel_left]

/-! ### One byte after the other -/

theorem decodeFrom_ascii (h : n < 0x80) :
    decodeFrom none (n :: bs) = Char.ofNat n :: decodeFrom none bs := by
  rw [decodeFrom, step, start, if_pos h]
  rfl

theorem decodeFrom_announced {p : Pending} (h : announce? n = some p) :
    decodeFrom none (n :: bs) = decodeFrom (some p) bs := by
  have hlarge : ¬n < 0x80 := by
    intro hlt
    unfold announce? at h
    split_ifs at h <;> omega
  rw [decodeFrom, step, start, if_neg hlarge, h]
  rfl

/-- A byte between the bounds is taken, and more are to come. -/
theorem decodeFrom_more (left : ℕ) (hlow : least ≤ 0x80 + t) (hhigh : 0x80 + t ≤ greatest) :
    decodeFrom (some ⟨left + 2, code, least, greatest⟩) ((0x80 + t) :: bs) =
      decodeFrom (some ⟨left + 1, code * 64 + t, 0x80, 0xBF⟩) bs := by
  have hmore : ¬left + 2 ≤ 1 := by omega
  have hleft : left + 2 - 1 = left + 1 := by omega
  rw [decodeFrom, step, if_pos ⟨hlow, hhigh⟩]
  dsimp only
  rw [if_neg hmore, Nat.add_sub_cancel_left, hleft]
  rfl

/-- The last byte completes the character. -/
theorem decodeFrom_last (ht : t < 64) :
    decodeFrom (some ⟨1, code, 0x80, 0xBF⟩) ((0x80 + t) :: bs) =
      Char.ofNat (code * 64 + t) :: decodeFrom none bs := by
  have hlow : 0x80 ≤ 0x80 + t := by omega
  have hhigh : 0x80 + t ≤ 0xBF := by omega
  rw [decodeFrom, step, if_pos ⟨hlow, hhigh⟩]
  dsimp only
  rw [if_pos le_rfl, Nat.add_sub_cancel_left]
  rfl

/-! ### Characters -/

/-- **The bytes of a character** are read as the character, whatever follows. -/
theorem decodeFrom_encodeChar (c : Char) (bs : List ℕ) :
    decodeFrom none (encodeChar c ++ bs) = c :: decodeFrom none bs := by
  have hc := toNat_cases c
  have hself : ∀ n, n = c.toNat → Char.ofNat n = c := by
    rintro n rfl
    exact Char.ofNat_toNat c
  unfold encodeChar
  dsimp only
  split_ifs with h1 h2 h3
  · rw [List.cons_append, List.nil_append, decodeFrom_ascii h1, Char.ofNat_toNat]
  · have hfirst := announce?_two (n := c.toNat) (by omega) h2
    simp only [List.cons_append, List.nil_append]
    rw [decodeFrom_announced hfirst, decodeFrom_last (by omega), hself _ (by omega)]
  · obtain ⟨least, greatest, hfirst, hlow, hhigh⟩ :=
      announce?_three (n := c.toNat) (by omega) h3 (by omega)
    simp only [List.cons_append, List.nil_append]
    rw [decodeFrom_announced hfirst, decodeFrom_more 0 hlow hhigh, decodeFrom_last (by omega),
      hself _ (by omega)]
  · obtain ⟨least, greatest, hfirst, hlow, hhigh⟩ :=
      announce?_four (n := c.toNat) (by omega) (by omega)
    simp only [List.cons_append, List.nil_append]
    rw [decodeFrom_announced hfirst, decodeFrom_more 1 hlow hhigh,
      decodeFrom_more 0 (by omega) (by omega), decodeFrom_last (by omega), hself _ (by omega)]

/-- **What is encoded is decoded** to the same characters. -/
theorem decode_encode (cs : List Char) : decode (encode cs) = cs := by
  unfold decode encode
  induction cs with
  | nil => rfl
  | cons c cs ih => rw [List.flatMap_cons, decodeFrom_encodeChar, ih]

/-- The bytes of a character lie below 256. -/
theorem lt_of_mem_encodeChar {c : Char} {b : ℕ} (h : b ∈ encodeChar c) : b < 256 := by
  have hc := toNat_cases c
  unfold encodeChar at h
  dsimp only at h
  split_ifs at h with h1 h2 h3
  all_goals
    simp only [List.mem_cons, List.not_mem_nil, or_false] at h
    omega

theorem lt_of_mem_encode {cs : List Char} {b : ℕ} (h : b ∈ encode cs) : b < 256 := by
  obtain ⟨c, -, hb⟩ := List.mem_flatMap.mp h
  exact lt_of_mem_encodeChar hb

end Utf8

end IiifRules.Text
