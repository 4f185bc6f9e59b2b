-- SUMMARY: The first element of a set in an order, as an `Option`, and how it is found block by block: the specification of a search loop that visits candidates in order and stops at the first hit.
import Mathlib

/-!
# The first element of a set

A search that visits candidates in increasing order and stops at the first one
that passes its test returns the least element of the set of passing candidates,
or nothing when that set is empty. `IsFirst s o` says this of `o : Option α`.

A search over a sequence of blocks (the rounds of a `while` loop, the rows of a
table) returns the first hit of the first block that has one. `union_left` and
`union_right` are that step for a block that lies before the rest, and `image`
moves a search from the indices of a block to the positions they stand for.
-/

namespace Set

variable {α β : Type*}

/-- `o` is the least element of `s`, or `none` when `s` is empty. -/
def IsFirst [LE α] (s : Set α) : Option α → Prop
  | some a => IsLeast s a
  | none => s = ∅

namespace IsFirst

@[simp] theorem some_iff [LE α] {s : Set α} {a : α} : s.IsFirst (some a) ↔ IsLeast s a :=
  Iff.rfl

@[simp] theorem none_iff [LE α] {s : Set α} : s.IsFirst none ↔ s = ∅ :=
  Iff.rfl

/-- A search has one answer. -/
theorem unique [PartialOrder α] {s : Set α} {o o' : Option α} (h : s.IsFirst o)
    (h' : s.IsFirst o') : o = o' := by
  cases o with
  | none =>
    cases o' with
    | none => rfl
    | some b => exact absurd (h ▸ h'.1) (Set.notMem_empty b)
  | some a =>
    cases o' with
    | none => exact absurd (h' ▸ h.1) (Set.notMem_empty a)
    | some b => rw [IsLeast.unique h h']

/-- What a search returns is some element exactly when that element is the least. -/
theorem eq_some_iff [PartialOrder α] {s : Set α} {o : Option α} (h : s.IsFirst o) {a : α} :
    o = some a ↔ IsLeast s a := by
  constructor
  · rintro rfl
    exact h
  · intro ha
    exact h.unique (show s.IsFirst (some a) from ha)

/-- A search returns nothing exactly when nothing passes. -/
theorem eq_none_iff [PartialOrder α] {s : Set α} {o : Option α} (h : s.IsFirst o) :
    o = none ↔ s = ∅ := by
  constructor
  · rintro rfl
    exact h
  · intro hs
    exact h.unique (show s.IsFirst none from hs)

theorem not_mem_of_lt [Preorder α] {s : Set α} {o : Option α} (h : s.IsFirst o) {x : α}
    (hx : ∀ a, o = some a → x < a) : x ∉ s := by
  intro hmem
  cases o with
  | none => exact Set.notMem_empty x (h ▸ hmem)
  | some a => exact absurd (h.2 hmem) (not_le_of_gt (hx a rfl))

/-- The first element of a block that lies before the rest is the first of the whole. -/
theorem union_left [Preorder α] {s t : Set α} {a : α} (h : IsLeast s a)
    (hst : ∀ x ∈ s, ∀ y ∈ t, x ≤ y) : (s ∪ t).IsFirst (some a) :=
  ⟨Or.inl h.1, fun _ hy => hy.elim (h.2 ·) (hst a h.1 _)⟩

/-- A block with no element is passed over. -/
theorem union_right [LE α] {s t : Set α} {o : Option α} (hs : s = ∅) (h : t.IsFirst o) :
    (s ∪ t).IsFirst o := by
  rwa [hs, Set.empty_union]

/-- A search over indices is a search over what they index, when the indexing keeps the order. -/
theorem image [Preorder α] [Preorder β] {f : α → β} (hf : Monotone f) {s : Set α} {o : Option α}
    (h : s.IsFirst o) : (f '' s).IsFirst (o.map f) := by
  cases o with
  | none => simp only [none_iff] at h; simp [h]
  | some a => exact hf.map_isLeast h

end IsFirst

end Set
