import Mathlib
import IiifRules.Proofs.Segment.Written
import IiifRules.Proofs.Text.Utf8
import IiifRules.Uri.Percent

/-! # Identifiers as segments

An identifier of any characters is written with a few characters of ASCII, so that it is one segment
of a URI, and it is read back: each byte from its letter or its escape, then each character from its
bytes.

* `Percent.Encoded`: the texts of letters, digits, four marks and escapes.
* `Percent.encoded_encodeChars`, `Percent.isSegment_encodeChars`: what is written is such a text,
  and a proper segment.
* `Percent.decodeChars_encodeChars`: **what is written is read back**. -/

namespace IiifRules.Uri.Percent

open Text

variable {b : ℕ} {c : Char} {cs rest : List Char}

/-! ### The texts of encoded identifiers -/

/-- A letter, a digit or a mark, which stands for itself. -/
def IsPlain (c : Char) : Prop := c.isAlphanum = true ∨ c ∈ ['_', '.', '-', '~']

/-- A digit, or a letter from `A` to `F`. -/
def IsHex (c : Char) : Prop := c.isDigit = true ∨ 'A' ≤ c ∧ c ≤ 'F'

/-- **An encoded text**: characters that stand for themselves, and escapes of two hexadecimal
digits. -/
inductive Encoded : List Char → Prop
  | nil : Encoded []
  | plain {c : Char} {rest : List Char} (hc : IsPlain c) (hrest : Encoded rest) :
      Encoded (c :: rest)
  | escape {high low : Char} {rest : List Char} (hhigh : IsHex high) (hlow : IsHex low)
      (hrest : Encoded rest) : Encoded ('%' :: high :: low :: rest)

instance (c : Char) : Decidable (IsPlain c) := inferInstanceAs (Decidable (_ ∨ _))

instance (c : Char) : Decidable (IsHex c) := inferInstanceAs (Decidable (_ ∨ _))

/-! ### Bytes -/

theorem isHex_upper : ∀ d < 16, IsHex (Hex.upper d) := by decide

/-- A hexadecimal digit is read back. -/
theorem value?_upper : ∀ d < 16, Hex.value? (Hex.upper d) = some d := by decide

theorem isPlain_of_isUnreserved : ∀ b < 256, isUnreserved b = true → IsPlain (Char.ofNat b) := by
  decide +kernel

theorem toNat_of_isUnreserved : ∀ b < 256, isUnreserved b = true →
    (Char.ofNat b).toNat = b ∧ b < 0x80 ∧ Char.ofNat b ≠ '%' := by
  decide +kernel

theorem encoded_encodeByte (hb : b < 256) (h : Encoded rest) : Encoded (encodeByte b ++ rest) := by
  unfold encodeByte
  split_ifs with hplain
  · exact .plain (isPlain_of_isUnreserved b hb hplain) h
  · exact .escape (isHex_upper _ (by omega)) (isHex_upper _ (by omega)) h

/-- A character that begins no escape is a part by itself. -/
theorem parts_cons (hc : c ≠ '%') (rest : List Char) :
    parts (c :: rest) = partOf c :: parts rest := by
  rcases rest with _ | ⟨high, _ | ⟨low, rest⟩⟩
  · rfl
  · rfl
  · rw [parts, if_neg hc]

theorem escaped?_upper (hb : b < 256) :
    escaped? (Hex.upper (b / 16)) (Hex.upper (b % 16)) = some b := by
  unfold escaped?
  rw [value?_upper _ (by omega), value?_upper _ (by omega)]
  simp only [Option.bind_eq_bind, Option.bind_some, Option.pure_def, Option.some.injEq]
  omega

/-- **A byte is read back** from its letter or from its escape. -/
theorem parts_encodeByte (hb : b < 256) (rest : List Char) :
    parts (encodeByte b ++ rest) = .byte b :: parts rest := by
  unfold encodeByte
  split_ifs with hplain
  · obtain ⟨hself, hascii, hpercent⟩ := toNat_of_isUnreserved b hb hplain
    rw [List.cons_append, List.nil_append, parts_cons hpercent, partOf, hself, if_pos hascii]
  · simp only [List.cons_append, List.nil_append]
    rw [parts, if_pos rfl, escaped?_upper hb]

theorem parts_flatMap {bs : List ℕ} (h : ∀ b ∈ bs, b < 256) :
    parts (bs.flatMap encodeByte) = bs.map .byte := by
  induction bs with
  | nil => rfl
  | cons b bs ih =>
    have hb : b < 256 := h b (by simp)
    have hbs := ih fun b' hb' => h b' (by simp [hb'])
    rw [List.flatMap_cons, parts_encodeByte hb, hbs, List.map_cons]

/-! ### Characters -/

/-- Where every part is a byte, the bytes are decoded. -/
theorem decodeParts_map (pending : Option Utf8.Pending) (bs : List ℕ) :
    decodeParts pending (bs.map .byte) = Utf8.decodeFrom pending bs := by
  induction bs generalizing pending with
  | nil => rfl
  | cons b bs ih =>
    simp only [List.map_cons, decodeParts, Utf8.decodeFrom, ih]

/-- **What is written is read back.** -/
theorem decodeChars_encodeChars (cs : List Char) : decodeChars (encodeChars cs) = cs := by
  have hbytes : parts (encodeChars cs) = (Utf8.encode cs).map .byte :=
    parts_flatMap fun _ => Utf8.lt_of_mem_encode
  unfold decodeChars
  rw [hbytes, decodeParts_map]
  exact Utf8.decode_encode cs

/-- **What is written is an encoded text.** -/
theorem encoded_encodeChars (cs : List Char) : Encoded (encodeChars cs) := by
  have hbytes : ∀ b ∈ Utf8.encode cs, b < 256 := fun _ => Utf8.lt_of_mem_encode
  unfold encodeChars
  generalize Utf8.encode cs = bs at hbytes
  induction bs with
  | nil => exact .nil
  | cons b bs ih =>
    rw [List.flatMap_cons]
    exact encoded_encodeByte (hbytes b (by simp)) (ih fun b' hb' => hbytes b' (by simp [hb']))

/-! ### Segments -/

theorem IsPlain.isInner (h : IsPlain c) : IsInner c := by
  refine ⟨?_, ?_, ?_⟩
  all_goals
    rintro rfl
    exact absurd h (by decide)

theorem IsHex.isInner (h : IsHex c) : IsInner c := by
  refine ⟨?_, ?_, ?_⟩
  all_goals
    rintro rfl
    exact absurd h (by decide)

theorem Encoded.isInner (h : Encoded cs) : ∀ c ∈ cs, IsInner c := by
  induction h with
  | nil => nofun
  | plain hc _ ih => exact isInner_of_mem_cons hc.isInner ih
  | escape hhigh hlow _ ih =>
    have hpercent : IsInner '%' := by decide
    exact isInner_of_mem_cons hpercent
      (isInner_of_mem_cons hhigh.isInner (isInner_of_mem_cons hlow.isInner ih))

/-- **An identifier that is not empty is written as a proper segment.** -/
theorem isSegment_encodeChars (h : cs ≠ []) : IsSegment (encodeChars cs) := by
  refine isSegment_of_isInner ?_ (encoded_encodeChars cs).isInner
  intro hnil
  have hback := decodeChars_encodeChars cs
  rw [hnil] at hback
  exact h hback.symm

end IiifRules.Uri.Percent
