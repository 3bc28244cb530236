import Mathlib

/-! # Lists with items inserted

`Interleaved xs zs ys` says that `ys` is `xs` with the items of `zs` inserted, wherever they stand.
What is computed item by item from `ys` is what is computed from `xs`, with what is computed from
`zs` inserted.

* `Interleaved.filterMap`, `Interleaved.map`, `Interleaved.filter`: item by item.
* `Interleaved.filterMap_eq`: items that come to nothing may be left out.
* `Interleaved.any_eq`: whether some item has a property.
* `Interleaved.append`: one list after the other. -/

namespace IiifRules

variable {α β : Type}

/-- **The third list is the first one with the items of the second inserted.** -/
inductive Interleaved : List α → List α → List α → Prop
  | nil : Interleaved [] [] []
  | kept {a : α} {xs zs ys : List α} (h : Interleaved xs zs ys) :
      Interleaved (a :: xs) zs (a :: ys)
  | inserted {z : α} {xs zs ys : List α} (h : Interleaved xs zs ys) :
      Interleaved xs (z :: zs) (z :: ys)

namespace Interleaved

variable {xs zs ys xs' zs' ys' : List α}

theorem refl (xs : List α) : Interleaved xs [] xs := by
  induction xs with
  | nil => exact .nil
  | cons x xs ih => exact ih.kept

theorem eq_of_nil (h : Interleaved xs [] ys) : ys = xs := by
  generalize hzs : ([] : List α) = zs at h
  induction h with
  | nil => rfl
  | kept h ih => rw [ih hzs]
  | inserted h ih => cases hzs

/-- **Items inserted into two lists** are inserted into both, one after the other. -/
theorem append (h : Interleaved xs zs ys) (h' : Interleaved xs' zs' ys') :
    Interleaved (xs ++ xs') (zs ++ zs') (ys ++ ys') := by
  induction h with
  | nil => exact h'
  | kept h ih => exact ih.kept
  | inserted h ih => exact ih.inserted

theorem filterMap (h : Interleaved xs zs ys) (f : α → Option β) :
    Interleaved (xs.filterMap f) (zs.filterMap f) (ys.filterMap f) := by
  induction h with
  | nil => exact .nil
  | @kept a xs zs ys h ih =>
    cases ha : f a with
    | none => simpa [ha] using ih
    | some b => simpa [ha] using ih.kept
  | @inserted z xs zs ys h ih =>
    cases hz : f z with
    | none => simpa [hz] using ih
    | some b => simpa [hz] using ih.inserted

theorem map (h : Interleaved xs zs ys) (f : α → β) :
    Interleaved (xs.map f) (zs.map f) (ys.map f) := by
  simpa only [List.filterMap_eq_map] using h.filterMap (some ∘ f)

theorem filter (h : Interleaved xs zs ys) (p : α → Bool) :
    Interleaved (xs.filter p) (zs.filter p) (ys.filter p) := by
  simpa only [List.filterMap_eq_filter] using h.filterMap (Option.guard fun a => p a)

/-- **Inserted items that come to nothing** may be left out. -/
theorem filterMap_eq (h : Interleaved xs zs ys) {f : α → Option β} (hz : ∀ z ∈ zs, f z = none) :
    ys.filterMap f = xs.filterMap f := by
  have hmap := h.filterMap f
  rw [List.filterMap_eq_nil_iff.mpr hz] at hmap
  exact hmap.eq_of_nil

theorem any_eq (h : Interleaved xs zs ys) (p : α → Bool) :
    ys.any p = (xs.any p || zs.any p) := by
  induction h with
  | nil => rfl
  | kept h ih => rw [List.any_cons, List.any_cons, ih, Bool.or_assoc]
  | inserted h ih => rw [List.any_cons, List.any_cons, ih, Bool.or_left_comm]

end Interleaved

end IiifRules
