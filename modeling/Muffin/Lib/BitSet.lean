-- SUMMARY: Bit masks read as sets of bit positions: the set operations behind `|||`, `&&&`, `~~~`, single-bit masks and the trailing-zero count.
import Mathlib

/-!
# Bit masks as sets of positions

A `BitVec w` used as a mask stands for the set of positions of its set bits.
`BitVec.bitSet` is that set. The lemmas below push the mask operations down to
set operations (`|||` is union, `&&&` intersection, `~~~` complement inside
`[0, w)`), so that an invariant about masks can be stated and proved in terms
of membership. The trailing-zero count `BitVec.ctz` is the least element of
the set of a non-zero mask.
-/

namespace BitVec

variable {w : Nat}

/-- The positions of the set bits of `x`. -/
def bitSet (x : BitVec w) : Set Nat := {i | x.getLsbD i = true}

@[simp] theorem mem_bitSet {x : BitVec w} {i : Nat} : i ∈ x.bitSet ↔ x.getLsbD i = true :=
  Iff.rfl

theorem lt_of_mem_bitSet {x : BitVec w} {i : Nat} (h : i ∈ x.bitSet) : i < w := by
  by_contra hge
  simp [BitVec.getLsbD_of_ge x i (Nat.le_of_not_lt hge)] at h

theorem bitSet_subset_Iio (x : BitVec w) : x.bitSet ⊆ Set.Iio w :=
  fun _ h => lt_of_mem_bitSet h

@[simp] theorem bitSet_zero : (0#w).bitSet = ∅ := by
  ext i
  simp

@[simp] theorem bitSet_or (x y : BitVec w) : (x ||| y).bitSet = x.bitSet ∪ y.bitSet := by
  ext i
  simp

@[simp] theorem bitSet_and (x y : BitVec w) : (x &&& y).bitSet = x.bitSet ∩ y.bitSet := by
  ext i
  simp

@[simp] theorem bitSet_not (x : BitVec w) : (~~~x).bitSet = Set.Iio w \ x.bitSet := by
  ext i
  simp

/-- A single-bit mask inside the width is the singleton of its position. -/
theorem bitSet_twoPow {i : Nat} (h : i < w) : (twoPow w i).bitSet = {i} := by
  ext j
  simp only [mem_bitSet, getLsbD_twoPow, Set.mem_singleton_iff]
  constructor
  · intro hj
    simp at hj
    exact hj.2.symm
  · rintro rfl
    simp [h]

/-- Two masks are equal exactly when they have the same set bits. -/
theorem eq_iff_bitSet_eq {x y : BitVec w} : x = y ↔ x.bitSet = y.bitSet := by
  constructor
  · rintro rfl
    rfl
  · intro h
    apply eq_of_getLsbD_eq
    intro i _
    have hi := congrArg (i ∈ ·) h
    simp only [mem_bitSet, eq_iff_iff] at hi
    cases hx : x.getLsbD i <;> cases hy : y.getLsbD i <;> simp_all

theorem eq_zero_iff_bitSet_eq_empty {x : BitVec w} : x = 0#w ↔ x.bitSet = ∅ := by
  rw [eq_iff_bitSet_eq, bitSet_zero]

/-- The mask test `x & y == 0` says that the two sets of positions are disjoint. -/
theorem and_eq_zero_iff_disjoint {x y : BitVec w} :
    x &&& y = 0#w ↔ Disjoint x.bitSet y.bitSet := by
  rw [eq_zero_iff_bitSet_eq_empty, bitSet_and, Set.disjoint_iff_inter_eq_empty]

/-- Testing one bit inside the width is a membership test. -/
theorem and_twoPow_ne_zero_iff {x : BitVec w} {i : Nat} (h : i < w) :
    x &&& twoPow w i ≠ 0#w ↔ i ∈ x.bitSet := by
  rw [Ne, and_eq_zero_iff_disjoint, bitSet_twoPow h, Set.disjoint_singleton_right,
    Classical.not_not]

/-- Clearing the bits of `m` leaves none of them. -/
theorem disjoint_and_not (x m : BitVec w) : Disjoint (x &&& ~~~m).bitSet m.bitSet := by
  rw [bitSet_and, bitSet_not]
  exact Set.disjoint_left.mpr fun _ hi hm => hi.2.2 hm

/-- Clearing bits only removes positions. -/
theorem bitSet_and_not_subset (x m : BitVec w) : (x &&& ~~~m).bitSet ⊆ x.bitSet := by
  rw [bitSet_and]
  exact Set.inter_subset_left

/-- Clearing the bits of `m` and then testing against `m` always gives zero. -/
theorem and_not_and_self (x m : BitVec w) : x &&& ~~~m &&& m = 0#w :=
  and_eq_zero_iff_disjoint.mpr (disjoint_and_not x m)

/-! ## Trailing zeros -/

/-- The trailing-zero count of a non-zero mask is one of its set bits. -/
theorem ctz_mem_bitSet {x : BitVec w} (hx : x ≠ 0#w) : x.ctz.toNat ∈ x.bitSet :=
  getLsbD_true_ctz_of_ne_zero hx

/-- No bit below the trailing-zero count is set. -/
theorem not_mem_bitSet_of_lt_ctz {x : BitVec w} {i : Nat} (hi : i < x.ctz.toNat) :
    i ∉ x.bitSet := by
  simp [getLsbD_false_of_lt_ctz hi]

/-- The trailing-zero count of a non-zero mask is its least set bit. -/
theorem ctz_le_of_mem_bitSet {x : BitVec w} {i : Nat} (hi : i ∈ x.bitSet) :
    x.ctz.toNat ≤ i :=
  Nat.le_of_not_lt fun hlt => not_mem_bitSet_of_lt_ctz hlt hi

end BitVec
