-- SUMMARY: Virtual addresses of x86-64 with 4-level paging as the `x86_64` crate defines them: canonical addresses, sign extension, alignment and the checked arithmetic that panics.
import Muffin.Lib.Rust

/-!
# Canonical virtual addresses

With 4-level paging a 64-bit address is canonical when bits 47 to 63 are all
equal: the lower half `[0, 2 ^ 47)` and the upper half `[2 ^ 64 - 2 ^ 47, 2 ^ 64)`.
`VirtAddr` carries that fact, so that a non-canonical address cannot be built.
The operations are those of version 0.15 of the `x86_64` crate: `try_new`
refuses a non-canonical address, `new` panics on one, `new_truncate` sign-extends
bit 47, and `+` and `align_up` panic on overflow.
-/

namespace X86

open Rust

/-- The first address of the upper half, `0xFFFF_8000_0000_0000`. -/
def UPPER_HALF_START : Nat := 0xFFFF_8000_0000_0000

/-- One past the last address of the lower half, `0x0000_8000_0000_0000`. -/
def LOWER_HALF_END : Nat := 0x0000_8000_0000_0000

/-- An address whose bits 47 to 63 are equal. -/
def IsCanonical (a : Nat) : Prop :=
  a < LOWER_HALF_END ∨ (UPPER_HALF_START ≤ a ∧ a < U64_LIMIT)

instance : DecidablePred IsCanonical := fun a => by unfold IsCanonical; infer_instance

/-- The address `a` with bits 48 to 63 replaced by copies of bit 47. -/
def signExtend (a : Nat) : Nat :=
  if a % 0x1_0000_0000_0000 < LOWER_HALF_END then a % 0x1_0000_0000_0000
  else a % 0x1_0000_0000_0000 + 0xFFFF_0000_0000_0000

theorem halves_eq : LOWER_HALF_END = 0x8000_0000_0000 ∧ UPPER_HALF_START = 0xFFFF_8000_0000_0000 ∧
    U64_LIMIT = 0x1_0000_0000_0000_0000 := ⟨rfl, rfl, rfl⟩

theorem signExtend_canonical (a : Nat) : IsCanonical (signExtend a) := by
  obtain ⟨h₁, h₂, h₃⟩ := halves_eq
  unfold signExtend IsCanonical
  split_ifs <;> omega

theorem signExtend_eq_iff {a : Nat} (ha : a < U64_LIMIT) : signExtend a = a ↔ IsCanonical a := by
  obtain ⟨h₁, h₂, h₃⟩ := halves_eq
  unfold signExtend IsCanonical
  split_ifs <;> omega

/-- `VirtAddr`: a canonical 64-bit virtual address. -/
structure VirtAddr where
  val : Nat
  canonical : IsCanonical val
  deriving DecidableEq

namespace VirtAddr

/-- `VirtAddrNotValid`. -/
structure NotValid where
  addr : Nat
  deriving DecidableEq, Repr

theorem val_lt (v : VirtAddr) : v.val < U64_LIMIT := by
  rcases v.canonical with h | h
  · exact lt_trans h (by decide)
  · exact h.2

/-- `VirtAddr::new_truncate`. -/
def newTruncate (a : Nat) : VirtAddr := ⟨signExtend a, signExtend_canonical a⟩

/-- `VirtAddr::try_new`: the address if sign-extending it changes nothing. -/
def tryNew (a : Nat) : Except NotValid VirtAddr :=
  if h : signExtend a = a then .ok ⟨a, h ▸ signExtend_canonical a⟩ else .error ⟨a⟩

/-- `VirtAddr::new`. -/
def new (a : Nat) : Except Panic VirtAddr :=
  match tryNew a with
  | .ok v => .ok v
  | .error _ => .error ⟨"virtual address must be sign extended in bits 48 to 64"⟩

theorem tryNew_ok_iff {a : Nat} (ha : a < U64_LIMIT) :
    (∃ v, tryNew a = .ok v) ↔ IsCanonical a := by
  unfold tryNew
  split <;> rename_i hs
  · exact ⟨fun _ => (signExtend_eq_iff ha).1 hs, fun _ => ⟨_, rfl⟩⟩
  · exact ⟨fun ⟨_, h⟩ => (nomatch h), fun hc => absurd ((signExtend_eq_iff ha).2 hc) hs⟩

theorem tryNew_val {a : Nat} {v : VirtAddr} (h : tryNew a = .ok v) : v.val = a := by
  unfold tryNew at h
  split at h
  · cases h
    rfl
  · cases h

/-- Every address of the upper half is canonical, so `try_new` accepts it. -/
theorem tryNew_upper {a : Nat} (h₁ : UPPER_HALF_START ≤ a) (h₂ : a < U64_LIMIT) :
    tryNew a = .ok ⟨a, .inr ⟨h₁, h₂⟩⟩ := by
  have hs : signExtend a = a := (signExtend_eq_iff h₂).2 (.inr ⟨h₁, h₂⟩)
  simp [tryNew, hs]

/-- Every address of the lower half is canonical, so `try_new` accepts it. -/
theorem tryNew_lower {a : Nat} (h : a < LOWER_HALF_END) : tryNew a = .ok ⟨a, .inl h⟩ := by
  have hs : signExtend a = a := (signExtend_eq_iff (lt_trans h (by decide))).2 (.inl h)
  simp [tryNew, hs]

/-- `VirtAddr::align_down(align)` for a power-of-two `align` below `2 ^ 47`. -/
def alignDown (v : VirtAddr) (align : Nat) : VirtAddr := newTruncate (v.val - v.val % align)

/-- Aligning down a canonical address to 4 KiB keeps its half. -/
theorem alignDown_val (v : VirtAddr) : (v.alignDown 4096).val = v.val - v.val % 4096 := by
  obtain ⟨h₁, h₂, h₃⟩ := halves_eq
  have hc := v.canonical
  unfold alignDown newTruncate signExtend
  unfold IsCanonical at hc
  split_ifs <;> dsimp only <;> omega

/-- `align_up(addr, align)` of the crate: panics when rounding up overflows. -/
def alignUpNat (a align : Nat) : Except Panic Nat :=
  if a % align = 0 then .ok a
  else match checkedAdd a (align - a % align) with
    | some r => .ok r
    | none => .error ⟨"attempt to add with overflow"⟩

/-- `VirtAddr::align_up(align)`. -/
def alignUp (v : VirtAddr) (align : Nat) : Except Panic VirtAddr :=
  (alignUpNat v.val align).map newTruncate

/-- `VirtAddr + u64`: panics on overflow and on a non-canonical sum. -/
def add (v : VirtAddr) (n : Nat) : Except Panic VirtAddr :=
  match checkedAdd v.val n with
  | none => .error ⟨"attempt to add with overflow"⟩
  | some s => match tryNew s with
    | .ok w => .ok w
    | .error _ => .error ⟨"attempt to add resulted in non-canonical virtual address"⟩

/-- `VirtAddr - u64`: panics on underflow and on a non-canonical difference. -/
def subU64 (v : VirtAddr) (n : Nat) : Except Panic VirtAddr :=
  match checkedSub v.val n with
  | none => .error ⟨"attempt to subtract with overflow"⟩
  | some d => new d

/-- `VirtAddr - VirtAddr`, a `u64`: panics when the result would be negative. -/
def sub (v w : VirtAddr) : Except Panic Nat :=
  match checkedSub v.val w.val with
  | some d => .ok d
  | none => .error ⟨"attempt to subtract with overflow"⟩

theorem add_val {v w : VirtAddr} {n : Nat} (h : v.add n = .ok w) : w.val = v.val + n := by
  unfold add at h
  split at h <;> rename_i hs
  · cases h
  · rename_i r
    split at h <;> rename_i hw
    · cases h
      rw [tryNew_val hw, (checkedAdd_eq_some.1 hs).2]
    · cases h

theorem subU64_val {v w : VirtAddr} {n : Nat} (h : v.subU64 n = .ok w) :
    w.val = v.val - n ∧ n ≤ v.val := by
  unfold subU64 new at h
  split at h <;> rename_i hs
  · cases h
  · rename_i d
    unfold checkedSub at hs
    split_ifs at hs with hn
    cases hs
    split at h <;> rename_i hw
    · cases h
      exact ⟨tryNew_val hw, hn⟩
    · cases h

theorem sub_val {v w : VirtAddr} {d : Nat} (h : v.sub w = .ok d) : d = v.val - w.val ∧ w.val ≤ v.val := by
  unfold sub checkedSub at h
  split_ifs at h with hle
  cases h
  exact ⟨rfl, hle⟩

/-- Rounding a canonical address up to a page never moves it down: the one address it can
    reach outside a half, `2 ^ 47`, sign-extends upwards. -/
theorem le_alignUp {v w : VirtAddr} (h : v.alignUp 4096 = .ok w) : v.val ≤ w.val := by
  obtain ⟨h₁, h₂, h₃⟩ := halves_eq
  have hc := v.canonical
  unfold alignUp alignUpNat at h
  unfold IsCanonical at hc
  split_ifs at h with hal
  · cases h
    unfold newTruncate signExtend
    split_ifs <;> dsimp only <;> omega
  · split at h <;> rename_i r hr
    · cases h
      obtain ⟨hlt, rfl⟩ := checkedAdd_eq_some.1 hr
      unfold newTruncate signExtend
      unfold U64_LIMIT at hlt
      split_ifs <;> dsimp only <;> omega
    · cases h

end VirtAddr

/-- `VirtAddr + u64` on an address kept as a natural: panics on overflow and on a non-canonical
    sum. -/
def addrAdd (a n : Nat) : Except Panic Nat :=
  match checkedAdd a n with
  | none => .error ⟨"attempt to add with overflow"⟩
  | some s =>
    match VirtAddr.tryNew s with
    | .ok w => .ok w.val
    | .error _ => .error ⟨"attempt to add resulted in non-canonical virtual address"⟩

theorem addrAdd_eq_ok {a n r : Nat} (h : addrAdd a n = .ok r) : r = a + n ∧ IsCanonical (a + n) := by
  unfold addrAdd at h
  split at h <;> rename_i hs
  · cases h
  · rename_i s
    obtain ⟨hlt, rfl⟩ := checkedAdd_eq_some.1 hs
    split at h <;> rename_i w hw
    · cases h
      rw [VirtAddr.tryNew_val hw]
      exact ⟨rfl, (VirtAddr.tryNew_ok_iff hlt).1 ⟨w, hw⟩⟩
    · cases h

/-- A canonical sum is what `+` returns. -/
theorem addrAdd_of_canonical {a n : Nat} (h : IsCanonical (a + n)) : addrAdd a n = .ok (a + n) := by
  have hlt : a + n < U64_LIMIT := by
    obtain ⟨h₁, -, h₃⟩ := halves_eq
    unfold IsCanonical at h
    omega
  obtain ⟨w, hw⟩ := (VirtAddr.tryNew_ok_iff hlt).2 h
  unfold addrAdd
  rw [checkedAdd_of_lt hlt]
  dsimp only
  rw [hw]
  dsimp only
  rw [VirtAddr.tryNew_val hw]

/-- A sum in the range of 64 bits that is not canonical panics. -/
theorem addrAdd_of_not_canonical {a n : Nat} (hlt : a + n < U64_LIMIT) (h : ¬ IsCanonical (a + n)) :
    addrAdd a n = .error ⟨"attempt to add resulted in non-canonical virtual address"⟩ := by
  unfold addrAdd
  rw [checkedAdd_of_lt hlt]
  dsimp only
  cases hw : VirtAddr.tryNew (a + n) with
  | ok w => exact absurd ((VirtAddr.tryNew_ok_iff hlt).1 ⟨w, hw⟩) h
  | error e => rfl

/-- Whether the address lies in the lower half, where user space lives. -/
def IsLowerHalf (a : Nat) : Prop := a < LOWER_HALF_END

instance : DecidablePred IsLowerHalf := fun a => by unfold IsLowerHalf; infer_instance

-- ---------------------------------------------------------------------------
-- Pages and page-table flags
-- ---------------------------------------------------------------------------

/-- `Size4KiB::SIZE`. -/
def PAGE_SIZE : Nat := 4096

/-- The number of the 4 KiB page that contains an address: `Page::containing_address`. -/
def pageOf (a : Nat) : Nat := a / PAGE_SIZE

/-- `PageTableFlags`: the bits of a page-table entry, as a number. -/
abbrev PageTableFlags := Nat

namespace PageTableFlags

def PRESENT : PageTableFlags := 1
def WRITABLE : PageTableFlags := 2
def USER_ACCESSIBLE : PageTableFlags := 4
def NO_EXECUTE : PageTableFlags := 0x8000_0000_0000_0000

/-- `PageTableFlags::contains`: every bit of `g` is set in `f`. -/
def contains (f g : PageTableFlags) : Bool := f &&& g == g

end PageTableFlags

end X86
