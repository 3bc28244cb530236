import Mathlib
import IiifRules.Proofs.Segment.Canonical

/-! # The texts that are answered

A text that does not match its grammar is answered with an error that names the axis and repeats the
text. One thing keeps a text from being answered: among the runs that are read as numerals, a
canonical natural number that has more digits than a numeral may have. Nothing else of the text
counts, neither its other characters nor a run of digits that is not read.

* `SucceedsIff`: when an operation comes to an answer, and what the answer is like.
* `Region.numerals`, `Size.numerals`, `Rotation.numerals`: the runs that are read as numerals.
* `Region.succeedsIff_parse`, `Size.succeedsIff_parse`, `Rotation.succeedsIff_parse`: each parser.
* `answers_iff`: the texts that are answered, for all three. -/

namespace IiifRules

open Numeric Text Segment.Token

/-! ### Operations that may fail for a numeral -/

section SucceedsIff

variable {α β : Type} {P P' : Prop} {Q : α → Prop} {R : β → Prop} {x : Except Failure α}

/-- **The operation comes to an answer** of the kind `Q` if `P` holds, and it fails for the length
of a numeral if not. -/
def SucceedsIff (x : Except Failure α) (P : Prop) (Q : α → Prop) : Prop :=
  (P → ∃ a, x = .ok a ∧ Q a) ∧ (¬P → x = .error .digitLimit)

theorem succeedsIff_ok {a : α} (h : Q a) : SucceedsIff (.ok a) True Q :=
  ⟨fun _ => ⟨a, rfl, h⟩, fun hnot => absurd trivial hnot⟩

theorem SucceedsIff.congr (h : SucceedsIff x P Q) (hP : P ↔ P') : SucceedsIff x P' Q := by
  rwa [← propext hP]

/-- **A step and what follows it** come to an answer if both do. -/
theorem SucceedsIff.bind {f : α → Except Failure β} (hx : SucceedsIff x P Q)
    (hf : ∀ a, P → Q a → SucceedsIff (f a) P' R) : SucceedsIff (x >>= f) (P ∧ P') R := by
  constructor
  · rintro ⟨hP, hP'⟩
    obtain ⟨a, ha, hQ⟩ := hx.1 hP
    obtain ⟨b, hb, hR⟩ := (hf a hP hQ).1 hP'
    exact ⟨b, Outcome.bind_eq_ok.mpr ⟨a, ha, hb⟩, hR⟩
  · intro hnot
    by_cases hP : P
    · obtain ⟨a, ha, hQ⟩ := hx.1 hP
      rw [ha, Outcome.ok_bind]
      exact (hf a hP hQ).2 fun hP' => hnot ⟨hP, hP'⟩
    · rw [hx.2 hP]
      rfl

/-- A step before what always comes to an answer. -/
theorem SucceedsIff.bind_total {f : α → Except Failure β} (hx : SucceedsIff x P Q)
    (hf : ∀ a, SucceedsIff (f a) True R) : SucceedsIff (x >>= f) P R :=
  (hx.bind fun a _ _ => hf a).congr (and_iff_left trivial)

theorem SucceedsIff.map (h : SucceedsIff x P Q) {f : α → β} (hf : ∀ a, Q a → R (f a)) :
    SucceedsIff (x.map f) P R := by
  constructor
  · intro hP
    obtain ⟨a, rfl, hQ⟩ := h.1 hP
    exact ⟨f a, rfl, hf a hQ⟩
  · intro hnot
    rw [h.2 hnot]
    rfl

theorem SucceedsIff.iff (h : SucceedsIff x P Q) : (∃ a, x = .ok a ∧ Q a) ↔ P := by
  constructor
  · rintro ⟨a, ha, -⟩
    by_contra hnot
    rw [h.2 hnot] at ha
    cases ha
  · exact h.1

end SucceedsIff

/-! ### Numerals -/

/-- **The run is not too long a numeral**: it is no numeral at all, or it can be read. -/
def ReadableRun (run : List Char) : Prop :=
  CanonicalNatural run → run.length ≤ Numeral.digitLimit

/-- The answer names the axis and repeats the text if it is an error. -/
def Names {α : Type} (axis : Axis) (text : String) (p : Parsed α) : Prop :=
  ∀ e, p = .error e → e.axis = axis ∧ e.token = text

variable {text : String} {cs : List Char}

theorem names_ok {α : Type} {axis : Axis} {a : α} : Names axis text (.ok a) := nofun

theorem names_error {α : Type} {axis : Axis} {reason : Option GrammarReason} :
    Names (α := α) axis text (.error ⟨axis, text, reason⟩) := by
  rintro _ ⟨rfl⟩
  exact ⟨rfl, rfl⟩

/-- **A natural number is read** if it is not too long. -/
theorem succeedsIff_readNatural (cs : List Char) :
    SucceedsIff (readNatural cs) (ReadableRun cs) fun _ => True := by
  unfold readNatural ReadableRun
  rw [← isNatural_iff]
  split_ifs with hnat
  · unfold Numeral.read
    split_ifs with hlong
    · exact ⟨fun hle => absurd (hle hnat) (by omega), fun _ => rfl⟩
    · exact ⟨fun _ => ⟨_, rfl, trivial⟩, fun hnot => absurd (fun _ => by omega) hnot⟩
  · exact ⟨fun _ => ⟨_, rfl, trivial⟩, fun hnot => absurd (fun h => absurd h hnat) hnot⟩

/-- **A decimal is read** if the part before its point is not too long. -/
theorem succeedsIff_readDecimal (places? : Option ℕ) (cs : List Char) :
    SucceedsIff (readDecimal places? cs) (ReadableRun (cut '.' cs).1) fun _ => True := by
  unfold readDecimal
  refine (succeedsIff_readNatural (cut '.' cs).1).bind_total fun n? => ?_
  cases n? with
  | none => exact succeedsIff_ok trivial
  | some n =>
    dsimp only
    split_ifs <;> exact succeedsIff_ok trivial

/-! ### Regions -/

namespace Region

/-- The parts if there are four of them. -/
def fourOf : List (List Char) → List (List Char)
  | [x, y, w, h] => [x, y, w, h]
  | _ => []

/-- **The runs of a region that are read as numerals**: its coordinates, those in percent without
what follows the point. -/
def numerals (text : String) : List (List Char) :=
  match after? "pct:".toList text.toList with
  | some rest => (fourOf (fields ',' rest)).map fun part => (cut '.' part).1
  | none => fourOf (fields ',' text.toList)

/-- Four parts that are read one after the other. -/
theorem succeedsIff_four {α β : Type} {read : List Char → Except Failure α}
    {numeral : List Char → List Char} {k : α → α → α → α → Except Failure β} {R : β → Prop}
    (hread : ∀ part, SucceedsIff (read part) (ReadableRun (numeral part)) fun _ => True)
    (hk : ∀ a b c d, SucceedsIff (k a b c d) True R) (x y w h : List Char) :
    SucceedsIff (do k (← read x) (← read y) (← read w) (← read h))
      (∀ run ∈ [x, y, w, h].map numeral, ReadableRun run) R := by
  have hchain := (hread x).bind fun a _ _ => (hread y).bind fun b _ _ =>
    (hread w).bind fun c _ _ => (hread h).bind fun d _ _ => hk a b c d
  exact hchain.congr (by simp)

theorem succeedsIff_parsePixels (text : String) (parts : List (List Char)) :
    SucceedsIff (parsePixels text parts) (∀ run ∈ fourOf parts, ReadableRun run)
      (Names .region text) := by
  unfold parsePixels fourOf
  split
  · rename_i x y w h
    refine (succeedsIff_four succeedsIff_readNatural (fun x? y? w? h? => ?_) x y w h).congr
      (by simp)
    split
    · split_ifs
      · exact succeedsIff_ok names_error
      · exact succeedsIff_ok names_ok
    · exact succeedsIff_ok names_error
  · exact (succeedsIff_ok names_error).congr (by simp)

theorem succeedsIff_parsePercent (text : String) (parts : List (List Char)) :
    SucceedsIff (parsePercent text parts)
      (∀ run ∈ (fourOf parts).map fun part => (cut '.' part).1, ReadableRun run)
      (Names .region text) := by
  unfold parsePercent fourOf
  split
  · rename_i x y w h
    refine succeedsIff_four (succeedsIff_readDecimal none) (fun x? y? w? h? => ?_) x y w h
    split
    · split_ifs
      · exact succeedsIff_ok names_error
      · exact succeedsIff_ok names_ok
    · exact succeedsIff_ok names_error
  · exact (succeedsIff_ok names_error).congr (by simp)

/-- **Reading a region** comes to an answer if no coordinate is too long. -/
theorem succeedsIff_parse (text : String) :
    SucceedsIff (parse text) (∀ run ∈ numerals text, ReadableRun run) (Names .region text) := by
  unfold parse
  split_ifs with hfull hsquare
  · rw [hfull]
    exact (succeedsIff_ok names_ok).congr (iff_of_true trivial nofun)
  · rw [hsquare]
    exact (succeedsIff_ok names_ok).congr (iff_of_true trivial nofun)
  · unfold numerals
    cases after? "pct:".toList text.toList with
    | some rest => exact succeedsIff_parsePercent text _
    | none => exact succeedsIff_parsePixels text _

end Region

/-! ### Sizes -/

namespace Size

/-- What stands before and after the first comma. -/
def sides (cs : List Char) : List (List Char) :=
  match cut ',' cs with
  | (w, some h) => [w, h]
  | (_, none) => []

/-- The runs of a size without its caret that are read as numerals. -/
def bodyNumerals (cs : List Char) : List (List Char) :=
  match after? "pct:".toList cs with
  | some rest => [(cut '.' rest).1]
  | none => sides ((after? ['!'] cs).getD cs)

/-- **The runs of a size that are read as numerals**: a percentage without what follows the point,
or what stands before and after the first comma. -/
def numerals (text : String) : List (List Char) :=
  bodyNumerals ((after? ['^'] text.toList).getD text.toList)

theorem succeedsIff_readOptional (cs : List Char) :
    SucceedsIff (readOptional cs) (ReadableRun cs) fun _ => True := by
  unfold readOptional
  split_ifs with hempty
  · rw [List.isEmpty_iff] at hempty
    refine (succeedsIff_ok trivial).congr ?_
    rw [true_iff, hempty]
    exact fun hnat => absurd rfl hnat.ne_nil
  · exact (succeedsIff_readNatural cs).map fun _ _ => trivial

theorem succeedsIff_parseDimensions (confined : Bool) (cs : List Char) :
    SucceedsIff (parseDimensions confined cs) (∀ run ∈ sides cs, ReadableRun run)
      fun _ => True := by
  unfold parseDimensions sides
  obtain ⟨w, _ | h⟩ := cut ',' cs
  · exact (succeedsIff_ok trivial).congr (by simp)
  · dsimp only
    refine ((succeedsIff_readOptional w).bind fun w? _ _ =>
      (succeedsIff_readOptional h).bind_total fun h? => ?_).congr (by simp)
    split_ifs <;> exact succeedsIff_ok trivial

theorem succeedsIff_parseForm (cs : List Char) :
    SucceedsIff (parseForm cs) (∀ run ∈ bodyNumerals cs, ReadableRun run) fun _ => True := by
  unfold parseForm
  split_ifs with hmax
  · rw [hmax]
    exact (succeedsIff_ok trivial).congr (iff_of_true trivial nofun)
  · unfold bodyNumerals
    cases after? "pct:".toList cs with
    | some rest =>
      dsimp only
      unfold parsePercent
      refine ((succeedsIff_readDecimal none rest).bind_total fun n? => ?_).congr (by simp)
      cases n? with
      | none => exact succeedsIff_ok trivial
      | some n =>
        dsimp only
        split_ifs <;> exact succeedsIff_ok trivial
    | none =>
      cases after? ['!'] cs with
      | some rest => exact succeedsIff_parseDimensions true rest
      | none => exact succeedsIff_parseDimensions false cs

/-- **Reading a size** comes to an answer if no length or percentage is too long. -/
theorem succeedsIff_parse (text : String) :
    SucceedsIff (parse text) (∀ run ∈ numerals text, ReadableRun run) (Names .size text) := by
  unfold parse numerals
  cases after? ['^'] text.toList with
  | none =>
    refine (succeedsIff_parseForm _).bind_total fun form? => ?_
    cases form? with
    | ok form => exact succeedsIff_ok names_ok
    | error reason => exact succeedsIff_ok names_error
  | some rest =>
    refine (succeedsIff_parseForm _).bind_total fun form? => ?_
    cases form? with
    | ok form => exact succeedsIff_ok names_ok
    | error reason => exact succeedsIff_ok names_error

end Size

/-! ### Rotations -/

namespace Rotation

/-- **The run of a rotation that is read as a numeral**: the degrees without what follows the
point. -/
def numerals (text : String) : List (List Char) :=
  [(cut '.' ((after? ['!'] text.toList).getD text.toList)).1]

/-- **Reading a rotation** comes to an answer if its degrees are not too long. -/
theorem succeedsIff_parse (text : String) :
    SucceedsIff (parse text) (∀ run ∈ numerals text, ReadableRun run) (Names .rotation text) := by
  unfold parse
  split
  rename_i mirror body hbody
  have hnumerals : numerals text = [(cut '.' body).1] := by
    unfold numerals
    cases hafter : after? ['!'] text.toList with
    | none =>
      rw [hafter] at hbody
      cases hbody
      rfl
    | some rest =>
      rw [hafter] at hbody
      cases hbody
      rfl
  refine ((succeedsIff_readDecimal (some 1) body).bind fun degrees? hread _ => ?_).congr
    (P := _ ∧ ReadableRun (cut '.' body).1) (by simp [hnumerals])
  cases degrees? with
  | some degrees =>
    refine SucceedsIff.congr (P := True) ?_ (iff_of_true trivial hread)
    dsimp only
    split_ifs
    · exact succeedsIff_ok names_error
    · exact succeedsIff_ok names_ok
  | none =>
    refine (succeedsIff_readDecimal Option.none body).bind_total fun again => ?_
    cases again with
    | some degrees => exact succeedsIff_ok names_error
    | none => exact succeedsIff_ok names_error

end Rotation

/-! ### What is answered -/

/-- **The text is answered**: with a value, or with an error that names the axis and repeats the
text. -/
def Answers {α : Type} (axis : Axis) (text : String) (x : Except Failure (Parsed α)) : Prop :=
  ∃ p, x = .ok p ∧ Names axis text p

/-- **Every text is answered unless it has too long a numeral** where one is read. -/
theorem answers_iff (text : String) :
    (Answers .region text (Region.parse text) ↔ ∀ run ∈ Region.numerals text, ReadableRun run) ∧
    (Answers .size text (Size.parse text) ↔ ∀ run ∈ Size.numerals text, ReadableRun run) ∧
    (Answers .rotation text (Rotation.parse text) ↔
      ∀ run ∈ Rotation.numerals text, ReadableRun run) :=
  ⟨(Region.succeedsIff_parse text).iff, (Size.succeedsIff_parse text).iff,
    (Rotation.succeedsIff_parse text).iff⟩

/-- **A natural number that is too long** is not answered as a rotation. -/
theorem Rotation.not_answers_of_long (hnatural : CanonicalNatural text.toList)
    (hlong : Numeral.digitLimit < text.toList.length) :
    ¬Answers .rotation text (Rotation.parse text) := by
  intro h
  have hmark : ¬['!'] <+: text.toList := fun hmarked =>
    absurd (hnatural.isDigit '!' (hmarked.subset (by simp))) (by decide)
  have hpoint := point_notMem_of_isNatural (isNatural_iff.mpr hnatural)
  have hnumeral : text.toList ∈ Rotation.numerals text := by
    unfold Rotation.numerals
    rw [after?_eq_none.mpr hmark, Option.getD_none, cut_of_notMem hpoint]
    exact List.mem_singleton_self _
  have hshort := (Rotation.succeedsIff_parse text).iff.mp h _ hnumeral hnatural
  omega

theorem canonicalNatural_replicate {n : ℕ} (hn : 0 < n) :
    CanonicalNatural (List.replicate n '1') where
  ne_nil := by
    rw [ne_eq, List.replicate_eq_nil_iff]
    exact hn.ne'
  isDigit c hc := by
    rw [List.eq_of_mem_replicate hc]
    rfl
  eq_nil_of_zero rest hrest :=
    absurd (List.eq_of_mem_replicate (hrest ▸ List.mem_cons_self)) (by decide)

/-- The rotation of 4301 ones is not answered. -/
theorem not_answers_of_many_digits : ¬∀ text : String,
    Answers .region text (Region.parse text) ∧ Answers .size text (Size.parse text) ∧
      Answers .rotation text (Rotation.parse text) := by
  intro h
  obtain ⟨-, -, hrotation⟩ := h (String.ofList (List.replicate 4301 '1'))
  have hnatural := canonicalNatural_replicate (show 0 < 4301 by norm_num)
  refine Rotation.not_answers_of_long ?_ ?_ hrotation
  · rwa [String.toList_ofList]
  · rw [String.toList_ofList, List.length_replicate]
    decide

end IiifRules
