import Mathlib
import IiifRules.Proofs.Segment.Token
import IiifRules.Segment.Region
import IiifRules.Segment.Rotation
import IiifRules.Segment.Size

/-! # Segments without long runs of digits

Only a run of more digits than a numeral may have keeps a segment from being read: a segment without
such a run is read as a value or refused with a reason.

* `Segment.Token.ShortRuns`: no run of digits is too long.
* `Region.exists_parse`, `Size.exists_parse`, `Rotation.exists_parse`: such a text is judged. -/

namespace IiifRules

open Numeric Text

namespace Segment.Token

/-- **No run of digits is longer** than a numeral may be. -/
def ShortRuns (cs : List Char) : Prop :=
  ∀ run, run <:+: cs → (∀ c ∈ run, c.isDigit = true) → run.length ≤ Numeral.digitLimit

variable {cs cs' : List Char}

theorem ShortRuns.of_infix (h : ShortRuns cs) (hcs : cs' <:+: cs) : ShortRuns cs' :=
  fun run hrun => h run (hrun.trans hcs)

theorem shortRuns_of_length (h : cs.length ≤ Numeral.digitLimit) : ShortRuns cs :=
  fun _ hrun _ => hrun.length_le.trans h

theorem exists_readNatural_of_shortRuns (h : ShortRuns cs) : ∃ n?, readNatural cs = .ok n? := by
  unfold readNatural
  split_ifs with hnat
  · have hlen := h cs List.infix_rfl (isDigit_of_isDigits (isDigits_of_isNatural hnat))
    unfold Numeral.read
    rw [if_neg (by omega)]
    exact ⟨_, rfl⟩
  · exact ⟨none, rfl⟩

theorem exists_readDecimal (h : ShortRuns cs) (places? : Option ℕ) :
    ∃ x?, readDecimal places? cs = .ok x? := by
  have hwhole : ShortRuns (cut '.' cs).1 := by
    rcases cut_cases '.' cs with ⟨-, hcut⟩ | ⟨a, b, -, hcs, hcut⟩
    · rw [hcut]
      exact h
    · rw [hcut]
      exact h.of_infix (hcs ▸ (List.prefix_append _ _).isInfix)
  unfold readDecimal
  refine Outcome.exists_bind (exists_readNatural_of_shortRuns hwhole) fun n? _ => ?_
  cases n? with
  | none => exact ⟨none, rfl⟩
  | some n =>
    dsimp only
    split_ifs <;> exact ⟨_, rfl⟩

/-- What follows a beginning, or the text without it. -/
theorem ShortRuns.of_after {beginning rest : List Char} (h : ShortRuns cs)
    (hrest : after? beginning cs = some rest) : ShortRuns rest :=
  h.of_infix (after?_eq_some.mp hrest ▸ (List.suffix_append _ _).isInfix)

end Segment.Token

open Segment.Token

variable {text : String} {cs : List Char}

namespace Region

/-- Four parts that are read one after the other. -/
theorem exists_four {α β : Type} {read : List Char → Except Failure α} {x y w h : List Char}
    {k : α → α → α → α → Except Failure β} (hread : ∀ part ∈ [x, y, w, h], ∃ a, read part = .ok a)
    (hk : ∀ a b c d, ∃ r, k a b c d = .ok r) :
    ∃ r, (do k (← read x) (← read y) (← read w) (← read h)) = .ok r := by
  refine Outcome.exists_bind (hread x (by simp)) fun _ _ => ?_
  refine Outcome.exists_bind (hread y (by simp)) fun _ _ => ?_
  refine Outcome.exists_bind (hread w (by simp)) fun _ _ => ?_
  exact Outcome.exists_bind (hread h (by simp)) fun _ _ => hk _ _ _ _

theorem exists_parsePixels (h : ShortRuns cs) : ∃ p, parsePixels text (fields ',' cs) = .ok p := by
  have hread : ∀ part ∈ fields ',' cs, ∃ n?, readNatural part = .ok n? := fun part hpart =>
    exists_readNatural_of_shortRuns (h.of_infix (infix_of_mem_fields hpart))
  unfold parsePixels
  split
  · rename_i hparts
    rw [hparts] at hread
    refine exists_four hread fun x? y? w? h? => ?_
    split
    · split_ifs <;> exact ⟨_, rfl⟩
    · exact ⟨_, rfl⟩
  · exact ⟨_, rfl⟩

theorem exists_parsePercent (h : ShortRuns cs) :
    ∃ p, parsePercent text (fields ',' cs) = .ok p := by
  have hread : ∀ part ∈ fields ',' cs, ∃ x?, readDecimal none part = .ok x? := fun part hpart =>
    exists_readDecimal (h.of_infix (infix_of_mem_fields hpart)) none
  unfold parsePercent
  split
  · rename_i hparts
    rw [hparts] at hread
    refine exists_four hread fun x? y? w? h? => ?_
    split
    · split_ifs <;> exact ⟨_, rfl⟩
    · exact ⟨_, rfl⟩
  · exact ⟨_, rfl⟩

/-- **A text without long runs** is read as a region or refused. -/
theorem exists_parse (h : ShortRuns text.toList) : ∃ p, parse text = .ok p := by
  unfold parse
  split_ifs
  · exact ⟨_, rfl⟩
  · exact ⟨_, rfl⟩
  · split
    · rename_i rest hrest
      exact exists_parsePercent (h.of_after hrest)
    · exact exists_parsePixels h

end Region

namespace Size

theorem exists_readOptional (h : ShortRuns cs) : ∃ o, readOptional cs = .ok o := by
  unfold readOptional
  split_ifs
  · exact ⟨none, rfl⟩
  · obtain ⟨n?, hn⟩ := exists_readNatural_of_shortRuns h
    exact ⟨some n?, Outcome.map_eq_ok.mpr ⟨n?, hn, rfl⟩⟩

theorem exists_parseDimensions (confined : Bool) (h : ShortRuns cs) :
    ∃ p, parseDimensions confined cs = .ok p := by
  unfold parseDimensions
  rcases cut_cases ',' cs with ⟨-, hcut⟩ | ⟨a, b, -, hcs, hcut⟩
  · rw [hcut]
    exact ⟨_, rfl⟩
  · rw [hcut]
    have ha : ShortRuns a := h.of_infix (hcs ▸ (List.prefix_append _ _).isInfix)
    have hb : ShortRuns b :=
      h.of_infix (hcs ▸ ((List.suffix_cons _ _).trans (List.suffix_append _ _)).isInfix)
    refine Outcome.exists_bind (exists_readOptional ha) fun w? _ => ?_
    refine Outcome.exists_bind (exists_readOptional hb) fun h? _ => ?_
    split_ifs <;> exact ⟨_, rfl⟩

theorem exists_parseForm (h : ShortRuns cs) : ∃ p, parseForm cs = .ok p := by
  unfold parseForm
  split_ifs
  · exact ⟨_, rfl⟩
  · split
    · rename_i rest hrest
      unfold parsePercent
      refine Outcome.exists_bind (exists_readDecimal (h.of_after hrest) none) fun n? _ => ?_
      cases n? with
      | none => exact ⟨_, rfl⟩
      | some n =>
        dsimp only
        split_ifs <;> exact ⟨_, rfl⟩
    · split
      · rename_i rest hrest
        exact exists_parseDimensions true (h.of_after hrest)
      · exact exists_parseDimensions false h

/-- **A text without long runs** is read as a size or refused. -/
theorem exists_parse (h : ShortRuns text.toList) : ∃ p, parse text = .ok p := by
  unfold parse
  split
  rename_i upscale body hbody
  have hshort : ShortRuns body :=
    h.of_infix (eq_of_marked hbody ▸ (List.suffix_append _ _).isInfix)
  refine Outcome.exists_bind (exists_parseForm hshort) fun form? _ => ?_
  cases form? <;> exact ⟨_, rfl⟩

end Size

/-- **A text without long runs** is read as a rotation or refused. -/
theorem Rotation.exists_parse (h : ShortRuns text.toList) : ∃ p, parse text = .ok p := by
  unfold parse
  split
  rename_i mirror body hbody
  have hshort : ShortRuns body :=
    h.of_infix (eq_of_marked hbody ▸ (List.suffix_append _ _).isInfix)
  refine Outcome.exists_bind (exists_readDecimal hshort (some 1)) fun degrees? _ => ?_
  cases degrees? with
  | some degrees =>
    dsimp only
    split_ifs <;> exact ⟨_, rfl⟩
  | none =>
    refine Outcome.exists_bind (exists_readDecimal hshort Option.none) fun again _ => ?_
    cases again <;> exact ⟨_, rfl⟩

end IiifRules
