-- SUMMARY: The parts of Rust's core library the kernel's arithmetic rests on: 64-bit unsigned integers as bounded naturals, checked and wrapping operations, panics, and `Layout`.
import Mathlib

/-!
# Rust core semantics

A `u64` or `usize` value is a natural number below `2 ^ 64`. The checked
operations return `none` where Rust's return `None`, the wrapping ones reduce
modulo `2 ^ 64`, and a `panic!` (or a failed `assert!`) is the value `Panic`
that ends the computation. `Layout` is a size together with a power-of-two
alignment that `Layout::from_size_align` accepted.

Nothing here refers to the kernel: these are the library functions its code
calls, with the meaning their documentation gives them.
-/

namespace Rust

/-- `2 ^ 64`: the values of `u64` and of `usize` on x86-64 are the naturals below it. -/
def U64_LIMIT : Nat := 2 ^ 64

/-- A `panic!`, with its message. -/
structure Panic where
  msg : String
  deriving DecidableEq, Repr

/-- `u64::checked_add`. -/
def checkedAdd (a b : Nat) : Option Nat :=
  if a + b < U64_LIMIT then some (a + b) else none

/-- `u64::checked_sub`. -/
def checkedSub (a b : Nat) : Option Nat :=
  if b ≤ a then some (a - b) else none

/-- `u64::checked_mul`. -/
def checkedMul (a b : Nat) : Option Nat :=
  if a * b < U64_LIMIT then some (a * b) else none

/-- `!x` on `u64` or `usize`: every bit of `x` flipped. -/
def bitNot (x : Nat) : Nat := U64_LIMIT - 1 - x

/-- `u64::wrapping_sub`, for operands below `2 ^ 64`: a borrow wraps around `2 ^ 64`. -/
def wrappingSub (a b : Nat) : Nat := if b ≤ a then a - b else U64_LIMIT - (b - a)

/-- `u64::checked_next_multiple_of`: `None` for a zero divisor or on overflow. -/
def checkedNextMultipleOf (a m : Nat) : Option Nat :=
  if m = 0 then none
  else if a % m = 0 then some a
  else checkedAdd a (m - a % m)

/-- `i32::try_from(usize)`: `None` above `i32::MAX`. -/
def i32TryFromUsize (n : Nat) : Option Int := if n ≤ 0x7FFF_FFFF then some n else none

/-- `2 ^ 32`: the values of `u32`. -/
def U32_LIMIT : Nat := 2 ^ 32

/-- `usize::div_ceil`. -/
def divCeil (a b : Nat) : Nat := (a + b - 1) / b

theorem checkedAdd_eq_some {a b c : Nat} : checkedAdd a b = some c ↔ a + b < U64_LIMIT ∧ c = a + b := by
  unfold checkedAdd
  split <;> simp_all [eq_comm]

theorem checkedSub_eq_none {a b : Nat} : checkedSub a b = none ↔ a < b := by
  unfold checkedSub
  split <;> simp_all

theorem checkedAdd_of_lt {a b : Nat} (h : a + b < U64_LIMIT) : checkedAdd a b = some (a + b) :=
  if_pos h

theorem checkedSub_of_le {a b : Nat} (h : b ≤ a) : checkedSub a b = some (a - b) :=
  if_pos h

theorem checkedMul_of_lt {a b : Nat} (h : a * b < U64_LIMIT) : checkedMul a b = some (a * b) :=
  if_pos h

theorem wrappingSub_of_le {a b : Nat} (hb : b ≤ a) : wrappingSub a b = a - b :=
  if_pos hb

theorem checkedNextMultipleOf_eq_some {a m c : Nat} (h : checkedNextMultipleOf a m = some c) :
    0 < m ∧ a ≤ c ∧ c % m = 0 ∧ c < a + m := by
  unfold checkedNextMultipleOf at h
  split at h
  · cases h
  · split at h
    · cases h
      exact ⟨by omega, le_rfl, ‹_›, by omega⟩
    · obtain ⟨-, rfl⟩ := checkedAdd_eq_some.1 h
      have hlt := Nat.mod_lt a (Nat.pos_of_ne_zero ‹m ≠ 0›)
      have hdiv := Nat.div_add_mod a m
      refine ⟨by omega, by omega, ?_, by omega⟩
      rw [show a + (m - a % m) = m * (a / m + 1) by rw [Nat.mul_add]; omega]
      exact Nat.mul_mod_right m _

/-- Rounding up to a multiple of `m` succeeds when there is room for one more `m`. -/
theorem checkedNextMultipleOf_of_add_le {a m : Nat} (hm : 0 < m) (h : a + m ≤ U64_LIMIT) :
    ∃ c, checkedNextMultipleOf a m = some c := by
  unfold checkedNextMultipleOf checkedAdd
  have hlt := Nat.mod_lt a hm
  split_ifs <;> first | omega | exact ⟨_, rfl⟩

/-- `u64::to_le_bytes`: the eight bytes of a `u64`, least significant first. -/
def toLeBytes (n : Nat) : List Nat := (List.range 8).map fun i => n / 256 ^ i % 256

/-- A value below `2 ^ n` has bit `n` clear. -/
theorem and_two_pow_of_lt {x n : Nat} (h : x < 2 ^ n) : x &&& 2 ^ n = 0 := by
  apply Nat.eq_of_testBit_eq
  intro i
  rw [Nat.testBit_and, Nat.testBit_two_pow, Nat.zero_testBit]
  by_cases hi : n = i
  · subst hi
    simp [Nat.testBit_lt_two_pow h]
  · simp [hi]

/-- `x & !(2 ^ k - 1)` rounds `x` down to a multiple of `2 ^ k`. -/
theorem and_bitNot_two_pow_sub_one {x k : Nat} (hk : k ≤ 64) (hx : x < U64_LIMIT) :
    x &&& bitNot (2 ^ k - 1) = x - x % 2 ^ k := by
  -- both sides are `x` with its low `k` bits cleared
  have hmask : bitNot (2 ^ k - 1) = (2 ^ (64 - k) - 1) * 2 ^ k := by
    have h₁ : U64_LIMIT = 2 ^ (64 - k) * 2 ^ k := by
      rw [← Nat.pow_add, Nat.sub_add_cancel hk]
      rfl
    have h₂ := Nat.two_pow_pos k
    have h₃ : 2 ^ k ≤ 2 ^ (64 - k) * 2 ^ k := Nat.le_mul_of_pos_left _ (Nat.two_pow_pos _)
    unfold bitNot
    rw [h₁, Nat.sub_one_mul]
    omega
  have hround : x - x % 2 ^ k = x / 2 ^ k * 2 ^ k := by
    have := Nat.div_add_mod x (2 ^ k)
    rw [Nat.mul_comm] at this
    omega
  rw [hmask, hround]
  apply Nat.eq_of_testBit_eq
  intro i
  rw [Nat.testBit_and, Nat.testBit_mul_two_pow, Nat.testBit_mul_two_pow, Nat.testBit_two_pow_sub_one,
    Nat.testBit_div_two_pow]
  by_cases hi : k ≤ i
  · rw [Nat.sub_add_cancel hi]
    by_cases h64 : i < 64
    · simp only [hi, decide_true, Bool.true_and]
      simp [show i - k < 64 - k by omega]
    · -- bits from 64 on are clear in `x`
      rw [Nat.testBit_lt_two_pow (Nat.lt_of_lt_of_le hx (Nat.pow_le_pow_right (by decide) (by omega)))]
      simp
  · simp [hi]

/-- `usize::saturating_add`. -/
def saturatingAdd (a b : Nat) : Nat := min (a + b) (U64_LIMIT - 1)

/-- `usize::saturating_mul`. -/
def saturatingMul (a b : Nat) : Nat := min (a * b) (U64_LIMIT - 1)

/-- A saturating sum that stayed below a bound under the saturation point did not saturate. -/
theorem saturatingAdd_of_le {a b n : Nat} (hn : n < U64_LIMIT - 1) (h : saturatingAdd a b ≤ n) :
    saturatingAdd a b = a + b := by
  unfold saturatingAdd at *
  omega

-- ---------------------------------------------------------------------------
-- Layout
-- ---------------------------------------------------------------------------

/-- `isize::MAX`. -/
def ISIZE_MAX : Nat := 2 ^ 63 - 1

/-- `core::alloc::Layout`: a size and a power-of-two alignment whose size rounded up to the
    alignment does not exceed `isize::MAX`. -/
structure Layout where
  size : Nat
  align : Nat
  align_pow : ∃ k, align = 2 ^ k
  size_le : size ≤ ISIZE_MAX - (align - 1)

/-- `LayoutError`. -/
structure LayoutError where
  deriving DecidableEq, Repr

/-- `usize::is_power_of_two`, as a decision on naturals below `2 ^ 64`. -/
def isPowerOfTwo (n : Nat) : Bool := (List.range 64).any (fun k => n = 2 ^ k)

theorem isPowerOfTwo_iff {n : Nat} : isPowerOfTwo n = true ↔ ∃ k < 64, n = 2 ^ k := by
  simp [isPowerOfTwo]

/-- `Layout::from_size_align`. -/
def Layout.fromSizeAlign (size align : Nat) : Except LayoutError Layout :=
  if h : isPowerOfTwo align = true then
    if hs : size ≤ ISIZE_MAX - (align - 1) then
      .ok ⟨size, align, (isPowerOfTwo_iff.1 h).imp fun _ hk => hk.2, hs⟩
    else .error ⟨⟩
  else .error ⟨⟩

theorem Layout.fromSizeAlign_ok {size align : Nat} {l : Layout}
    (h : Layout.fromSizeAlign size align = .ok l) : l.size = size ∧ l.align = align := by
  unfold Layout.fromSizeAlign at h
  split at h
  · split at h
    · cases h
      exact ⟨rfl, rfl⟩
    · cases h
  · cases h


/-- `<[T]>::rotate_right(1)` on the first `pos + 1` elements of a slice moves the one at `pos`
    to the front. -/
theorem rotateRight_take_succ {α : Type} {l : List α} {pos : Nat} (h : pos < l.length) :
    (l.take (pos + 1)).rotateRight 1 = l[pos] :: l.take pos := by
  have hlen : (l.take (pos + 1)).length = pos + 1 := by simp; omega
  unfold List.rotateRight
  rw [hlen]
  dsimp only
  split_ifs with hone
  · -- a prefix of one element is its own rotation
    obtain rfl : pos = 0 := by omega
    cases l with
    | nil => simp at h
    | cons x l => rfl
  · have hmod : pos + 1 - 1 % (pos + 1) = pos := by
      rw [Nat.mod_eq_of_lt (by omega)]
      rfl
    simp only [hmod, List.take_take, List.drop_take, Nat.min_eq_left (Nat.le_succ pos),
      Nat.add_sub_cancel_left]
    rw [List.drop_eq_getElem_cons h]
    rfl

end Rust
