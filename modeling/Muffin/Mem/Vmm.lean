-- SUMMARY: The virtual memory manager of `kernel_virtual_memory`: reserved segments of an address window, marking a fixed segment and reserving a free one, and the page alignment that the kernel's wrappers keep.
import Muffin.Lib.Rust
import Muffin.X86.Addr
import Muffin.Lib.EStateM

/-!
# The virtual memory manager

A `VirtualMemoryManager` hands out segments of the window
`[mem_start, mem_start + mem_size)` and remembers the segments it reserved.
`mark_as_reserved` accepts any segment that overlaps none of the reserved ones;
`reserve(n)` looks for the first gap of `n` bytes from the start of the window.

Lengths here are in bytes, as in the crate. The kernel's wrapper of a process's
manager (`VirtualMemoryAllocator for Arc<RwLock<VirtualMemoryManager>>`) asserts
page alignment before marking and reserves whole pages.

Addresses are naturals. The `VirtAddr + u64` sums of `reserve` (the jump past an
overlapped segment and the two ends it compares) are modelled with their
panics, on overflow and on a non-canonical sum, and so is the underflow of its
`mem_size - 1`; the loop on naturals (`reserveLoop`) is what the checked loop
computes when it does not panic. The sums inside `find_overlapping` are not: they
are only compared, and they can panic only for a segment that reaches into the
non-canonical range or is empty.

Over any run of calls that never reserve or mark an empty segment, the reserved
segments stay pairwise disjoint, `mark_as_reserved` fails exactly on a segment
that meets a reserved one, and `reserve` returns only segments of the window
(`runCalls_new_reserved`). The inclusive end `start + (len - 1)` of
`find_overlapping` is the half-open test there because no segment is empty.

The loop of `reserve` starts at the window's start and only ever jumps to the
end of a reserved segment. When the window starts on a page and every call
marks whole pages from a page and reserves whole pages, as the kernel's
wrappers assert, every reserved segment stays on pages (`PageAligned`), and
the assertion of `VirtualMemoryHigherHalf::reserve` on the segment it gets
back always holds (`runCalls_reserve_page_aligned`).
-/

namespace Muffin.Mem

open Rust X86

/-- `Segment`: `len` bytes from `start`. -/
structure Segment where
  start : Nat
  len : Nat
  deriving DecidableEq, Repr

/-- `AlreadyReserved`. -/
structure AlreadyReserved where
  deriving DecidableEq, Repr

/-- Whether the segments `s` and `e` share an address: the test of `find_overlapping`. -/
def Segment.overlaps (s e : Segment) : Bool :=
  s.start ≤ e.start + (e.len - 1) && e.start ≤ s.start + (s.len - 1)

/-- The order of `Segment`'s derived `Ord`: by start, then by length. -/
def Segment.le (a b : Segment) : Prop := a.start < b.start ∨ (a.start = b.start ∧ a.len ≤ b.len)

instance : DecidableRel Segment.le := fun a b => by unfold Segment.le; infer_instance

/-- `BTreeSet::insert`: the segments stay in order and each is held once. -/
def insertSegment (s : Segment) (l : List Segment) : List Segment :=
  if s ∈ l then l else l.orderedInsert Segment.le s

theorem mem_insertSegment {s x : Segment} {l : List Segment} :
    x ∈ insertSegment s l ↔ x = s ∨ x ∈ l := by
  unfold insertSegment
  split <;> rename_i hs
  · exact ⟨Or.inr, fun h => h.elim (fun hx => hx ▸ hs) id⟩
  · exact List.mem_orderedInsert Segment.le

namespace Segment

/-- The half-open byte ranges `[start, start + len)` of `s` and `e` share an address. -/
def Intersects (s e : Segment) : Prop := s.start < e.start + e.len ∧ e.start < s.start + s.len

theorem Intersects.symm {s e : Segment} (h : s.Intersects e) : e.Intersects s := ⟨h.2, h.1⟩

/-- Segments that share an address fail the test of `find_overlapping`, empty ones included. -/
theorem overlaps_of_intersects {s e : Segment} (h : s.Intersects e) : s.overlaps e = true := by
  unfold Intersects at h
  simp only [overlaps, Bool.and_eq_true, decide_eq_true_eq]
  omega

/-- For segments that are not empty, the inclusive test of `find_overlapping` is the half-open
    one. -/
theorem overlaps_iff {s e : Segment} (hs : 1 ≤ s.len) (he : 1 ≤ e.len) :
    s.overlaps e = true ↔ s.Intersects e := by
  simp only [overlaps, Intersects, Bool.and_eq_true, decide_eq_true_eq]
  omega

end Segment

/-- `VirtualMemoryManager`: the segments are those of a `BTreeSet`, in order. -/
structure VirtualMemoryManager where
  memStart : Nat
  memSize : Nat
  segments : List Segment
  deriving DecidableEq, Repr

namespace VirtualMemoryManager

/-- `VirtualMemoryManager::new`. -/
def new (memStart memSize : Nat) : VirtualMemoryManager := ⟨memStart, memSize, []⟩

/-- `find_overlapping`. -/
def findOverlapping (vmm : VirtualMemoryManager) (s : Segment) : Option Segment :=
  vmm.segments.find? s.overlaps

/-- `mark_as_reserved`: no check against the window, only against the reserved segments. -/
def markAsReserved (vmm : VirtualMemoryManager) (s : Segment) :
    Except AlreadyReserved VirtualMemoryManager :=
  match vmm.findOverlapping s with
  | some _ => .error ⟨⟩
  | none => .ok { vmm with segments := insertSegment s vmm.segments }

/-- The loop of `reserve`: move the candidate past each reserved segment it overlaps. Each
    round moves past a different reserved segment, so one round per reserved segment is
    enough fuel. -/
def reserveLoop (vmm : VirtualMemoryManager) : Nat → Segment → Segment
  | 0, s => s
  | fuel + 1, s =>
    match vmm.findOverlapping s with
    | some e => vmm.reserveLoop fuel { s with start := e.start + e.len }
    | none => s

/-- The loop of `reserve` as the crate runs it: the jump `existing.start + existing.len` is a
    `VirtAddr + u64`. -/
def reserveLoopChecked (vmm : VirtualMemoryManager) : Nat → Segment → Except Panic Segment
  | 0, s => .ok s
  | fuel + 1, s =>
    match vmm.findOverlapping s with
    | some e => do
      let start ← addrAdd e.start e.len
      vmm.reserveLoopChecked fuel { s with start := start }
    | none => .ok s

/-- `reserve(n)`: the first gap of `n` bytes of the window. Both sides of the final comparison
    are `VirtAddr + u64` sums, the window's end first. -/
def reserve (vmm : VirtualMemoryManager) (n : Nat) :
    Except Panic (Option Segment × VirtualMemoryManager) :=
  if n = 0 then .ok (none, vmm)
  else do
    let s ← vmm.reserveLoopChecked vmm.segments.length ⟨vmm.memStart, n⟩
    let some lastOffset := checkedSub vmm.memSize 1 | throw ⟨"attempt to subtract with overflow"⟩
    let windowEnd ← addrAdd vmm.memStart lastOffset
    -- `segment.len` is `n`, at least one
    let segmentEnd ← addrAdd s.start (s.len - 1)
    if windowEnd < segmentEnd then pure (none, vmm)
    else pure (some s, { vmm with segments := insertSegment s vmm.segments })

/-- `release`. -/
def release (vmm : VirtualMemoryManager) (s : Segment) : VirtualMemoryManager :=
  { vmm with segments := vmm.segments.erase s }

/-- A segment that `mark_as_reserved` accepted is reserved afterwards, wherever it lies. -/
theorem markAsReserved_ok {vmm vmm' : VirtualMemoryManager} {s : Segment}
    (h : vmm.markAsReserved s = .ok vmm') : s ∈ vmm'.segments ∧ vmm'.memStart = vmm.memStart ∧
      vmm'.memSize = vmm.memSize := by
  unfold markAsReserved at h
  split at h
  · cases h
  · cases h
    exact ⟨mem_insertSegment.2 (.inl rfl), rfl, rfl⟩

/-- `mark_as_reserved` succeeds exactly when no reserved segment overlaps. -/
theorem markAsReserved_eq_ok_iff {vmm : VirtualMemoryManager} {s : Segment} :
    (∃ vmm', vmm.markAsReserved s = .ok vmm') ↔ ∀ e ∈ vmm.segments, s.overlaps e = false := by
  unfold markAsReserved findOverlapping
  split <;> rename_i hfind
  · obtain ⟨e, he, hov⟩ : ∃ e ∈ vmm.segments, s.overlaps e = true :=
      ⟨_, List.mem_of_find?_eq_some hfind, List.find?_some hfind⟩
    exact ⟨fun ⟨_, h⟩ => (nomatch h), fun hall => by simp [hall e he] at hov⟩
  · exact ⟨fun _ e he => by simpa using List.find?_eq_none.1 hfind e he, fun _ => ⟨_, rfl⟩⟩

theorem findOverlapping_eq_none_iff {vmm : VirtualMemoryManager} {s : Segment} :
    vmm.findOverlapping s = none ↔ ∀ e ∈ vmm.segments, s.overlaps e = false := by
  simp [findOverlapping, List.find?_eq_none]

theorem findOverlapping_eq_some {vmm : VirtualMemoryManager} {s e : Segment}
    (h : vmm.findOverlapping s = some e) : e ∈ vmm.segments ∧ s.overlaps e = true :=
  ⟨List.mem_of_find?_eq_some h, List.find?_some h⟩

-- ---------------------------------------------------------------------------
-- The loop of `reserve`
-- ---------------------------------------------------------------------------

@[simp] theorem len_reserveLoop (vmm : VirtualMemoryManager) (fuel : Nat) (s : Segment) :
    (vmm.reserveLoop fuel s).len = s.len := by
  induction fuel generalizing s with
  | zero => rfl
  | succ fuel ih =>
    unfold reserveLoop
    split
    · exact ih _
    · rfl

/-- The loop only moves the candidate forward: past the end of a segment it overlaps. -/
theorem start_le_reserveLoop (vmm : VirtualMemoryManager) (fuel : Nat) (s : Segment) :
    s.start ≤ (vmm.reserveLoop fuel s).start := by
  induction fuel generalizing s with
  | zero => exact le_rfl
  | succ fuel ih =>
    unfold reserveLoop
    split
    · rename_i e he
      have hov := (findOverlapping_eq_some he).2
      simp only [Segment.overlaps, Bool.and_eq_true, decide_eq_true_eq] at hov
      exact le_trans (by dsimp only; omega) (ih _)
    · exact le_rfl

/-- The reserved segments that do not end before the candidate starts: those the loop may still
    have to move past. -/
def pending (vmm : VirtualMemoryManager) (s : Segment) : Nat :=
  vmm.segments.countP fun e => s.start ≤ e.start + (e.len - 1)

/-- Of two counts over one list, the one of the stronger test is smaller when an element passes
    only the weaker one. -/
theorem countP_lt_countP {α : Type} {l : List α} {p q : α → Bool} (himp : ∀ x ∈ l, p x → q x)
    {a : α} (ha : a ∈ l) (hq : q a) (hp : p a = false) : l.countP p < l.countP q := by
  induction l with
  | nil => cases ha
  | cons x l ih =>
    have hrest : l.countP p ≤ l.countP q :=
      List.countP_mono_left fun y hy => himp y (List.mem_cons_of_mem x hy)
    have hx : p x → q x := himp x List.mem_cons_self
    rw [List.countP_cons, List.countP_cons]
    rcases List.mem_cons.1 ha with rfl | ha
    · rw [if_pos hq, if_neg (by simp [hp])]
      omega
    · have hlt := ih (fun y hy => himp y (List.mem_cons_of_mem x hy)) ha
      -- the head adds no more to the stronger count than to the weaker one
      have hhead : (if p x = true then 1 else 0) ≤ (if q x = true then 1 else 0) := by
        by_cases hpx : p x
        · rw [if_pos hpx, if_pos (hx hpx)]
        · rw [if_neg hpx]
          exact Nat.zero_le _
      omega

/-- Moving past an overlapped segment leaves one segment fewer to move past. -/
theorem pending_moved {vmm : VirtualMemoryManager} (hlen : ∀ e ∈ vmm.segments, 1 ≤ e.len)
    {s e : Segment} (he : vmm.findOverlapping s = some e) :
    vmm.pending { s with start := e.start + e.len } < vmm.pending s := by
  obtain ⟨hmem, hov⟩ := findOverlapping_eq_some he
  simp only [Segment.overlaps, Bool.and_eq_true, decide_eq_true_eq] at hov
  have he1 := hlen e hmem
  refine countP_lt_countP (fun x _ hx => ?_) hmem ?_ ?_
  · simp only [decide_eq_true_eq] at hx ⊢
    omega
  · simp only [decide_eq_true_eq]
    omega
  · simp only [decide_eq_false_iff_not]
    omega

/-- With one round for each segment still ahead of it, the loop ends on a candidate that
    overlaps no reserved segment. -/
theorem findOverlapping_reserveLoop {vmm : VirtualMemoryManager}
    (hlen : ∀ e ∈ vmm.segments, 1 ≤ e.len) :
    ∀ (fuel : Nat) (s : Segment), vmm.pending s ≤ fuel →
      vmm.findOverlapping (vmm.reserveLoop fuel s) = none
  | 0, s, h => by
    -- no segment ends at or after the candidate's start, so none overlaps it
    rw [reserveLoop, findOverlapping_eq_none_iff]
    intro e he
    have hbefore : ¬ s.start ≤ e.start + (e.len - 1) := by
      simpa using List.countP_eq_zero.1 (Nat.le_zero.1 h) e he
    simp only [Segment.overlaps, Bool.and_eq_false_iff, decide_eq_false_iff_not]
    exact .inl hbefore
  | fuel + 1, s, h => by
    unfold reserveLoop
    split
    · rename_i e he
      exact findOverlapping_reserveLoop hlen fuel _ (by have := pending_moved hlen he; omega)
    · assumption

/-- `reserve`'s loop, started with one round for each reserved segment, ends on a free
    candidate. -/
theorem findOverlapping_reserveLoop_length {vmm : VirtualMemoryManager}
    (hlen : ∀ e ∈ vmm.segments, 1 ≤ e.len) (s : Segment) :
    vmm.findOverlapping (vmm.reserveLoop vmm.segments.length s) = none :=
  findOverlapping_reserveLoop hlen _ s List.countP_le_length

-- ---------------------------------------------------------------------------
-- `reserve`, `mark_as_reserved` and `release`
-- ---------------------------------------------------------------------------

/-- The checked loop, when it does not panic, computes the loop on naturals. -/
theorem reserveLoopChecked_eq_ok {vmm : VirtualMemoryManager} :
    ∀ {fuel : Nat} {s s' : Segment}, vmm.reserveLoopChecked fuel s = .ok s' →
      s' = vmm.reserveLoop fuel s
  | 0, _, _, h => by
    cases h
    rfl
  | fuel + 1, s, s', h => by
    unfold reserveLoopChecked at h
    unfold reserveLoop
    cases hf : vmm.findOverlapping s with
    | none =>
      simp only [hf] at h
      cases h
      rfl
    | some e =>
      simp only [hf] at h
      obtain ⟨start, hadd, hrest⟩ := Except.bind_eq_ok.1 h
      rw [(addrAdd_eq_ok hadd).1] at hrest
      exact reserveLoopChecked_eq_ok hrest

/-- What `reserve` can return: nothing, with the manager as it was, or the candidate of the
    loop, which ends inside the window, added to the reserved segments. -/
theorem reserve_eq_ok {vmm vmm' : VirtualMemoryManager} {n : Nat} {r : Option Segment}
    (h : vmm.reserve n = .ok (r, vmm')) :
    (r = none ∧ vmm' = vmm) ∨
      ∃ s, r = some s ∧ s = vmm.reserveLoop vmm.segments.length ⟨vmm.memStart, n⟩ ∧ n ≠ 0 ∧
        s.start + s.len ≤ vmm.memStart + vmm.memSize ∧
        vmm' = { vmm with segments := insertSegment s vmm.segments } := by
  unfold reserve at h
  split_ifs at h with hn
  · cases h
    exact .inl ⟨rfl, rfl⟩
  obtain ⟨s, hloop, h⟩ := Except.bind_eq_ok.1 h
  have hs := reserveLoopChecked_eq_ok hloop
  have hlen : s.len = n := by
    rw [hs, len_reserveLoop]
  cases hlast : checkedSub vmm.memSize 1 with
  | none =>
    simp only [hlast] at h
    cases h
  | some last =>
    simp only [hlast] at h
    have hsize : last = vmm.memSize - 1 ∧ 1 ≤ vmm.memSize := by
      unfold checkedSub at hlast
      split_ifs at hlast with h1
      cases hlast
      exact ⟨rfl, h1⟩
    -- the two ends compared are the plain sums
    obtain ⟨windowEnd, hw, h⟩ := Except.bind_eq_ok.1 h
    obtain ⟨segmentEnd, hse, h⟩ := Except.bind_eq_ok.1 h
    obtain ⟨rfl, -⟩ := addrAdd_eq_ok hw
    obtain ⟨rfl, -⟩ := addrAdd_eq_ok hse
    split_ifs at h with hfit
    · cases h
      exact .inl ⟨rfl, rfl⟩
    · cases h
      refine .inr ⟨_, rfl, hs, hn, ?_, rfl⟩
      omega

/-- A segment `reserve` returns lies in the window. -/
theorem reserve_inside {vmm vmm' : VirtualMemoryManager} {n : Nat} {s : Segment}
    (h : vmm.reserve n = .ok (some s, vmm')) :
    vmm.memStart ≤ s.start ∧ s.start + s.len ≤ vmm.memStart + vmm.memSize := by
  rcases reserve_eq_ok h with ⟨hr, -⟩ | ⟨s', hs', rfl, -, hend, -⟩
  · cases hr
  · cases hs'
    exact ⟨start_le_reserveLoop vmm _ ⟨vmm.memStart, n⟩, hend⟩

/-- With nothing reserved the loop does not run, and `reserve(n)` compares the window's end with
    `mem_start + (n - 1)`: when that sum is below `2 ^ 64` but not canonical, the `VirtAddr`
    addition panics. -/
theorem reserve_eq_error_of_not_canonical {vmm : VirtualMemoryManager} {n : Nat}
    (hempty : vmm.segments = []) (hn : n ≠ 0) (hsize : 1 ≤ vmm.memSize)
    (hwindow : IsCanonical (vmm.memStart + (vmm.memSize - 1)))
    (hlt : vmm.memStart + (n - 1) < U64_LIMIT) (hend : ¬ IsCanonical (vmm.memStart + (n - 1))) :
    vmm.reserve n = .error ⟨"attempt to add resulted in non-canonical virtual address"⟩ := by
  unfold reserve
  rw [if_neg hn, hempty]
  simp only [List.length_nil, reserveLoopChecked, checkedSub_of_le hsize, addrAdd_of_canonical hwindow,
    bind, Except.bind]
  rw [addrAdd_of_not_canonical hlt hend]

/-- A process's lower-half manager as `Process::create_new` makes it: the window from 4 GiB up to
    `0x7F01_0000_0000`, nothing reserved. -/
def lowerHalf : VirtualMemoryManager := new 0x1_0000_0000 0x7F00_0000_0000

/-- `reserve(2 ^ 47)` on a new lower-half manager: a range of `2 ^ 47` bytes cannot end in the
    window, but instead of returning `None` the sum `0x1_0000_0000 + (2 ^ 47 - 1)` leaves the
    canonical range and panics. -/
theorem reserve_lowerHalf_panics :
    lowerHalf.segments = [] ∧ lowerHalf.memStart + lowerHalf.memSize < lowerHalf.memStart + 0x8000_0000_0000 ∧
    lowerHalf.reserve 0x8000_0000_0000 =
      .error ⟨"attempt to add resulted in non-canonical virtual address"⟩ :=
  ⟨rfl, by decide, reserve_eq_error_of_not_canonical rfl (by decide) (by decide) (by decide) (by decide)
    (by decide)⟩

theorem markAsReserved_eq_ok {vmm vmm' : VirtualMemoryManager} {s : Segment}
    (h : vmm.markAsReserved s = .ok vmm') :
    vmm.findOverlapping s = none ∧ vmm' = { vmm with segments := insertSegment s vmm.segments } := by
  unfold markAsReserved at h
  split at h
  · cases h
  · cases h
    exact ⟨‹_›, rfl⟩

/-- The invariant of the reserved segments: none is empty and no two share an address. -/
structure Reserved (vmm : VirtualMemoryManager) : Prop where
  len_pos : ∀ e ∈ vmm.segments, 1 ≤ e.len
  disjoint : vmm.segments.Pairwise fun a b => ¬ a.Intersects b

/-- Adding a non-empty segment that meets none of the reserved ones keeps the invariant. -/
theorem Reserved.insert {vmm : VirtualMemoryManager} (hinv : vmm.Reserved) {s : Segment}
    (hs : 1 ≤ s.len) (hfree : vmm.findOverlapping s = none) :
    Reserved { vmm with segments := insertSegment s vmm.segments } := by
  have hapart : ∀ e ∈ vmm.segments, ¬ s.Intersects e := fun e he hse => by
    have := findOverlapping_eq_none_iff.1 hfree e he
    rw [(Segment.overlaps_iff hs (hinv.len_pos e he)).2 hse] at this
    cases this
  constructor
  · intro e he
    rcases mem_insertSegment.1 he with rfl | he
    · exact hs
    · exact hinv.len_pos e he
  · dsimp only
    unfold insertSegment
    split
    · exact hinv.disjoint
    · -- the ordered insertion is a permutation of `s :: segments`
      have hsymm : ∀ {a b : Segment}, ¬ a.Intersects b → ¬ b.Intersects a := fun h h' => h h'.symm
      rw [(List.perm_orderedInsert Segment.le s vmm.segments).pairwise_iff hsymm]
      exact List.pairwise_cons.2 ⟨hapart, hinv.disjoint⟩

theorem Reserved.release {vmm : VirtualMemoryManager} (hinv : vmm.Reserved) (s : Segment) :
    (vmm.release s).Reserved :=
  ⟨fun e he => hinv.len_pos e (List.mem_of_mem_erase he), hinv.disjoint.sublist (List.erase_sublist)⟩

theorem Reserved.reserve {vmm vmm' : VirtualMemoryManager} (hinv : vmm.Reserved) {n : Nat}
    {r : Option Segment} (h : vmm.reserve n = .ok (r, vmm')) : vmm'.Reserved := by
  rcases reserve_eq_ok h with ⟨-, rfl⟩ | ⟨s, -, rfl, hn, -, rfl⟩
  · exact hinv
  · exact hinv.insert (by rw [len_reserveLoop]; dsimp only; omega)
      (findOverlapping_reserveLoop_length hinv.len_pos _)

theorem Reserved.markAsReserved {vmm vmm' : VirtualMemoryManager} (hinv : vmm.Reserved)
    {s : Segment} (hs : 1 ≤ s.len) (h : vmm.markAsReserved s = .ok vmm') : vmm'.Reserved := by
  obtain ⟨hfree, rfl⟩ := markAsReserved_eq_ok h
  exact hinv.insert hs hfree

/-- On a manager that keeps the invariant, `mark_as_reserved` of a non-empty segment fails
    exactly when the segment meets a reserved one. -/
theorem markAsReserved_eq_error_iff {vmm : VirtualMemoryManager} (hinv : vmm.Reserved)
    {s : Segment} (hs : 1 ≤ s.len) :
    vmm.markAsReserved s = .error ⟨⟩ ↔ ∃ e ∈ vmm.segments, s.Intersects e := by
  have hok := @markAsReserved_eq_ok_iff vmm s
  constructor
  · intro herr
    by_contra hnone
    obtain ⟨vmm', h'⟩ := hok.2 fun e he => by
      cases hov : s.overlaps e
      · rfl
      · exact absurd ⟨e, he, (Segment.overlaps_iff hs (hinv.len_pos e he)).1 hov⟩ hnone
    rw [herr] at h'
    cases h'
  · rintro ⟨e, he, hse⟩
    cases h : vmm.markAsReserved s with
    | error err => rfl
    | ok vmm' =>
      have := hok.1 ⟨vmm', h⟩ e he
      rw [(Segment.overlaps_iff hs (hinv.len_pos e he)).2 hse] at this
      cases this

-- ---------------------------------------------------------------------------
-- Runs of calls
-- ---------------------------------------------------------------------------

/-- The calls the crate's users make on a manager. -/
inductive Call where
  | reserve (n : Nat)
  | markAsReserved (segment : Segment)
  | release (segment : Segment)
  deriving DecidableEq, Repr

/-- A call that does not ask for an empty segment. -/
def Call.Valid : Call → Prop
  | .reserve n => 1 ≤ n
  | .markAsReserved s => 1 ≤ s.len
  | .release _ => True

instance : DecidablePred Call.Valid
  | .reserve n => inferInstanceAs (Decidable (1 ≤ n))
  | .markAsReserved s => inferInstanceAs (Decidable (1 ≤ s.len))
  | .release _ => inferInstanceAs (Decidable True)

/-- The manager after one call: a `mark_as_reserved` that fails leaves it as it was. -/
def call (vmm : VirtualMemoryManager) : Call → Except Panic VirtualMemoryManager
  | .reserve n => (vmm.reserve n).map Prod.snd
  | .markAsReserved s =>
    match vmm.markAsReserved s with
    | .ok vmm' => .ok vmm'
    | .error _ => .ok vmm
  | .release s => .ok (vmm.release s)

/-- The manager after a sequence of calls, or the first panic. -/
def runCalls (vmm : VirtualMemoryManager) : List Call → Except Panic VirtualMemoryManager
  | [] => .ok vmm
  | c :: cs =>
    match vmm.call c with
    | .ok vmm' => vmm'.runCalls cs
    | .error p => .error p

/-- One call keeps the window and, if it asks for no empty segment, the invariant. -/
theorem call_step {vmm vmm' : VirtualMemoryManager} {c : Call} (hc : c.Valid) (hinv : vmm.Reserved)
    (h : vmm.call c = .ok vmm') :
    vmm'.memStart = vmm.memStart ∧ vmm'.memSize = vmm.memSize ∧ vmm'.Reserved := by
  cases c with
  | reserve n =>
    cases hr : vmm.reserve n with
    | error p => simp [call, hr, Except.map] at h
    | ok res =>
      obtain ⟨r, vmm''⟩ := res
      simp only [call, hr, Except.map, Except.ok.injEq] at h
      subst h
      refine ⟨?_, ?_, hinv.reserve hr⟩ <;>
        rcases reserve_eq_ok hr with ⟨-, rfl⟩ | ⟨s, -, -, -, -, rfl⟩ <;> rfl
  | markAsReserved s =>
    rw [call] at h
    split at h <;> rename_i hm <;> cases h
    · obtain ⟨-, rfl⟩ := markAsReserved_eq_ok hm
      exact ⟨rfl, rfl, hinv.markAsReserved hc (by rw [hm])⟩
    · exact ⟨rfl, rfl, hinv⟩
  | release s =>
    cases h
    exact ⟨rfl, rfl, hinv.release s⟩

/-- A run of calls that ask for no empty segment keeps the window and the invariant. -/
theorem runCalls_step {vmm vmm' : VirtualMemoryManager} {calls : List Call}
    (hvalid : ∀ c ∈ calls, c.Valid) (hinv : vmm.Reserved) (h : vmm.runCalls calls = .ok vmm') :
    vmm'.memStart = vmm.memStart ∧ vmm'.memSize = vmm.memSize ∧ vmm'.Reserved := by
  induction calls generalizing vmm with
  | nil =>
    cases h
    exact ⟨rfl, rfl, hinv⟩
  | cons c cs ih =>
    unfold runCalls at h
    split at h
    · rename_i vmm₁ h₁
      obtain ⟨hstart, hsize, hinv₁⟩ := call_step (hvalid c List.mem_cons_self) hinv h₁
      obtain ⟨hstart', hsize', hinv'⟩ :=
        ih (fun c' hc' => hvalid c' (List.mem_cons_of_mem c hc')) hinv₁ h
      exact ⟨hstart'.trans hstart, hsize'.trans hsize, hinv'⟩
    · cases h

/-- `mark_as_reserved` as a call: it leaves the manager as it was exactly when the segment meets
    a reserved one; otherwise it adds a segment that was not reserved. -/
theorem call_markAsReserved_eq_self_iff {vmm : VirtualMemoryManager} (hinv : vmm.Reserved)
    {s : Segment} (hs : 1 ≤ s.len) :
    vmm.call (.markAsReserved s) = .ok vmm ↔ ∃ e ∈ vmm.segments, s.Intersects e := by
  rw [← markAsReserved_eq_error_iff hinv hs, call]
  split <;> rename_i vmm' hm
  · obtain ⟨hfree, rfl⟩ := markAsReserved_eq_ok hm
    refine ⟨fun h => ?_, fun h => by rw [hm] at h; cases h⟩
    -- the new manager holds `s`, which meets itself, so no reserved segment equalled it
    have hmem : s ∈ vmm.segments := by
      have := congrArg VirtualMemoryManager.segments (Except.ok.inj h)
      rw [← this]
      exact mem_insertSegment.2 (.inl rfl)
    have := findOverlapping_eq_none_iff.1 hfree s hmem
    rw [(Segment.overlaps_iff hs hs).2 ⟨by omega, by omega⟩] at this
    cases this
  · exact ⟨fun _ => hm, fun _ => rfl⟩

/-- Over every run of calls on a new manager that never ask for an empty segment, the reserved
    segments are pairwise disjoint, `mark_as_reserved` of a non-empty segment fails and leaves the
    manager as it was exactly when the segment meets a reserved one, and every segment `reserve`
    returns lies in the window `[start, start + size)`. -/
theorem runCalls_new_reserved (start size : Nat) (calls : List Call) (hvalid : ∀ c ∈ calls, c.Valid)
    {vmm : VirtualMemoryManager} (hrun : (new start size).runCalls calls = .ok vmm) :
    vmm.segments.Pairwise (fun a b => ¬ a.Intersects b) ∧
      (∀ seg : Segment, 1 ≤ seg.len →
        (vmm.markAsReserved seg = .error ⟨⟩ ↔ ∃ e ∈ vmm.segments, seg.Intersects e) ∧
        (vmm.call (.markAsReserved seg) = .ok vmm ↔ ∃ e ∈ vmm.segments, seg.Intersects e)) ∧
      ∀ (n : Nat) (s : Segment) (vmm' : VirtualMemoryManager), vmm.reserve n = .ok (some s, vmm') →
        start ≤ s.start ∧ s.start + s.len ≤ start + size := by
  have hnew : (new start size).Reserved := ⟨fun _ he => (nomatch he), List.Pairwise.nil⟩
  obtain ⟨hstart, hsize, hinv⟩ := runCalls_step hvalid hnew hrun
  refine ⟨hinv.disjoint, fun seg hseg => ⟨markAsReserved_eq_error_iff hinv hseg,
    call_markAsReserved_eq_self_iff hinv hseg⟩, fun n s vmm' h => ?_⟩
  have hin := reserve_inside h
  rw [hstart, hsize] at hin
  exact hin

/-- The calls of the crate's `test_mark_as_used` on the window of 400 bytes at `0xdeff`, then a
    reservation that fills the gap of 50 bytes they leave and one that finds no gap. -/
def markAsUsedCalls : List Call :=
  [.markAsReserved ⟨0xdeff, 100⟩, .markAsReserved ⟨0xdeff + 100, 100⟩,
    .markAsReserved ⟨0xdeff + 200, 100⟩, .markAsReserved ⟨0xdeff + 300, 100⟩,
    .markAsReserved ⟨0xdeff + 150, 100⟩, .release ⟨0xdeff + 100, 100⟩,
    .markAsReserved ⟨0xdeff + 150, 100⟩, .markAsReserved ⟨0xdeff + 100, 100⟩,
    .release ⟨0xdeff + 200, 100⟩, .markAsReserved ⟨0xdeff + 150, 100⟩,
    .release ⟨0xdeff + 100, 100⟩, .markAsReserved ⟨0xdeff + 150, 100⟩,
    .reserve 50, .reserve 60]

theorem runCalls_markAsUsed :
    (∀ c ∈ markAsUsedCalls, c.Valid) ∧
    ∃ vmm, (new 0xdeff 400).runCalls markAsUsedCalls = .ok vmm ∧
      vmm.segments = [⟨0xdeff, 100⟩, ⟨0xdeff + 100, 50⟩, ⟨0xdeff + 150, 100⟩, ⟨0xdeff + 300, 100⟩] ∧
      vmm.segments.Pairwise (fun a b => ¬ a.Intersects b) ∧
      (∀ seg : Segment, 1 ≤ seg.len →
        (vmm.markAsReserved seg = .error ⟨⟩ ↔ ∃ e ∈ vmm.segments, seg.Intersects e) ∧
        (vmm.call (.markAsReserved seg) = .ok vmm ↔ ∃ e ∈ vmm.segments, seg.Intersects e)) ∧
      ∀ (n : Nat) (s : Segment) (vmm' : VirtualMemoryManager), vmm.reserve n = .ok (some s, vmm') →
        0xdeff ≤ s.start ∧ s.start + s.len ≤ 0xdeff + 400 :=
  ⟨by decide, _, rfl, rfl, runCalls_new_reserved 0xdeff 400 markAsUsedCalls (by decide) rfl⟩

-- ---------------------------------------------------------------------------
-- Page alignment
-- ---------------------------------------------------------------------------

/-- The window starts on a page, and every reserved segment starts on a page and is a whole
    number of pages long. -/
structure PageAligned (vmm : VirtualMemoryManager) : Prop where
  memStart : vmm.memStart % PAGE_SIZE = 0
  segments : ∀ e ∈ vmm.segments, e.start % PAGE_SIZE = 0 ∧ e.len % PAGE_SIZE = 0

/-- The loop of `reserve` moves a candidate to the end of a reserved segment, which is on a page
    when every reserved segment is a whole number of pages from a page. -/
theorem reserveLoop_start_aligned {vmm : VirtualMemoryManager}
    (h : ∀ e ∈ vmm.segments, e.start % PAGE_SIZE = 0 ∧ e.len % PAGE_SIZE = 0) :
    ∀ (fuel : Nat) (s : Segment), s.start % PAGE_SIZE = 0 →
      (vmm.reserveLoop fuel s).start % PAGE_SIZE = 0
  | 0, s, hs => hs
  | fuel + 1, s, hs => by
    unfold reserveLoop
    split
    · rename_i e he
      obtain ⟨hstart, hlen⟩ := h e (findOverlapping_eq_some he).1
      refine reserveLoop_start_aligned h fuel _ ?_
      dsimp only
      rw [Nat.add_mod, hstart, hlen, Nat.zero_mod]
    · exact hs

/-- Adding a segment of whole pages from a page keeps the manager aligned. -/
theorem PageAligned.insert {vmm : VirtualMemoryManager} (h : vmm.PageAligned) {s : Segment}
    (hs : s.start % PAGE_SIZE = 0 ∧ s.len % PAGE_SIZE = 0) :
    PageAligned { vmm with segments := insertSegment s vmm.segments } := by
  refine ⟨h.memStart, fun e he => ?_⟩
  rcases mem_insertSegment.1 he with rfl | he
  · exact hs
  · exact h.segments e he

/-- `reserve(n)` of a whole number of pages returns a segment that starts on a page, and keeps
    the manager aligned. -/
theorem PageAligned.reserve {vmm vmm' : VirtualMemoryManager} (h : vmm.PageAligned) {n : Nat}
    (hn : n % PAGE_SIZE = 0) {r : Option Segment} (hr : vmm.reserve n = .ok (r, vmm')) :
    (∀ s, r = some s → s.start % PAGE_SIZE = 0) ∧ vmm'.PageAligned := by
  rcases reserve_eq_ok hr with ⟨rfl, rfl⟩ | ⟨s, rfl, hs, -, -, rfl⟩
  · exact ⟨fun _ hs => (nomatch hs), h⟩
  · have hstart : s.start % PAGE_SIZE = 0 := by
      rw [hs]
      exact reserveLoop_start_aligned h.segments _ _ h.memStart
    have hlen : s.len = n := by
      rw [hs, len_reserveLoop]
    refine ⟨fun _ hs' => ?_, h.insert ⟨hstart, by rw [hlen]; exact hn⟩⟩
    cases hs'
    exact hstart

/-- The calls of a user that, as `VirtualMemoryHigherHalf` asserts, marks only segments of whole
    pages from a page and reserves whole pages. -/
def Call.PageAligned : Call → Prop
  | .reserve n => n % PAGE_SIZE = 0
  | .markAsReserved s => s.start % PAGE_SIZE = 0 ∧ s.len % PAGE_SIZE = 0
  | .release _ => True

instance : DecidablePred Call.PageAligned
  | .reserve n => inferInstanceAs (Decidable (n % PAGE_SIZE = 0))
  | .markAsReserved s => inferInstanceAs (Decidable (s.start % PAGE_SIZE = 0 ∧ s.len % PAGE_SIZE = 0))
  | .release _ => inferInstanceAs (Decidable True)

/-- One such call keeps the manager aligned. -/
theorem PageAligned.call {vmm vmm' : VirtualMemoryManager} (h : vmm.PageAligned) {c : Call}
    (hc : c.PageAligned) (hcall : vmm.call c = .ok vmm') : vmm'.PageAligned := by
  cases c with
  | reserve n =>
    cases hr : vmm.reserve n with
    | error p => simp [VirtualMemoryManager.call, hr, Except.map] at hcall
    | ok res =>
      simp only [VirtualMemoryManager.call, hr, Except.map, Except.ok.injEq] at hcall
      subst hcall
      exact (h.reserve hc hr).2
  | markAsReserved s =>
    rw [VirtualMemoryManager.call] at hcall
    split at hcall <;> rename_i hm <;> cases hcall
    · obtain ⟨-, rfl⟩ := markAsReserved_eq_ok hm
      exact h.insert hc
    · exact h
  | release s =>
    cases hcall
    exact ⟨h.memStart, fun e he => h.segments e (List.mem_of_mem_erase he)⟩

/-- A run of such calls keeps the manager aligned. -/
theorem PageAligned.runCalls {vmm vmm' : VirtualMemoryManager} (h : vmm.PageAligned)
    {calls : List Call} (hcalls : ∀ c ∈ calls, c.PageAligned) (hrun : vmm.runCalls calls = .ok vmm') :
    vmm'.PageAligned := by
  induction calls generalizing vmm with
  | nil =>
    cases hrun
    exact h
  | cons c cs ih =>
    unfold VirtualMemoryManager.runCalls at hrun
    split at hrun
    · rename_i vmm₁ h₁
      exact ih (h.call (hcalls c List.mem_cons_self) h₁)
        (fun c' hc' => hcalls c' (List.mem_cons_of_mem c hc')) hrun
    · cases hrun

/-- `VirtualMemoryHigherHalf::reserve(pages)`: `reserve(pages * 4096)` on the kernel's manager,
    and the assertion that the segment it returns starts on a page. -/
def reservePages (vmm : VirtualMemoryManager) (pages : Nat) :
    Except Panic (Option Segment × VirtualMemoryManager) := do
  let some n := checkedMul pages PAGE_SIZE | throw ⟨"attempt to multiply with overflow"⟩
  let (r, vmm) ← vmm.reserve n
  match r with
  | some s =>
    if s.start % PAGE_SIZE = 0 then pure (some s, vmm)
    else throw ⟨"assertion failed: segment.start.is_aligned(Size4KiB::SIZE)"⟩
  | none => pure (none, vmm)

/-- On an aligned manager the assertion of `reservePages` always holds: the call is
    `reserve(pages * 4096)`. -/
theorem PageAligned.reservePages_eq {vmm : VirtualMemoryManager} (h : vmm.PageAligned)
    (pages : Nat) :
    vmm.reservePages pages =
      match checkedMul pages PAGE_SIZE with
      | some n => vmm.reserve n
      | none => .error ⟨"attempt to multiply with overflow"⟩ := by
  unfold reservePages
  cases hmul : checkedMul pages PAGE_SIZE with
  | none => rfl
  | some n =>
    have hn : n % PAGE_SIZE = 0 := by
      unfold checkedMul at hmul
      split_ifs at hmul
      cases hmul
      exact Nat.mul_mod_left pages PAGE_SIZE
    dsimp only
    cases hr : vmm.reserve n with
    | error p => rfl
    | ok res =>
      obtain ⟨r, vmm'⟩ := res
      cases r with
      | none => rfl
      | some s =>
        have halign := (h.reserve hn hr).1 s rfl
        simp only [bind, Except.bind, halign, ↓reduceIte]
        rfl

/-- Over every run of calls on a new manager whose window starts on a page, in which every marked
    segment is whole pages from a page and every reservation is of whole pages, every segment
    that `reserve` returns for whole pages starts on a page, so that the assertion of
    `VirtualMemoryHigherHalf::reserve` never fires. -/
theorem runCalls_reserve_page_aligned (start size : Nat) (hstart : start % PAGE_SIZE = 0)
    (calls : List Call) (hcalls : ∀ c ∈ calls, c.PageAligned) {vmm : VirtualMemoryManager}
    (hrun : (new start size).runCalls calls = .ok vmm) :
    (∀ (n : Nat) (s : Segment) (vmm' : VirtualMemoryManager), n % PAGE_SIZE = 0 →
      vmm.reserve n = .ok (some s, vmm') → s.start % PAGE_SIZE = 0) ∧
    ∀ pages, vmm.reservePages pages =
      match checkedMul pages PAGE_SIZE with
      | some n => vmm.reserve n
      | none => .error ⟨"attempt to multiply with overflow"⟩ := by
  have hnew : (new start size).PageAligned := ⟨hstart, fun _ he => nomatch he⟩
  have h := hnew.runCalls hcalls hrun
  exact ⟨fun n s _ hn hr => (h.reserve hn hr).1 s rfl, h.reservePages_eq⟩

/-- A page marked at the start of a window of 16 pages, a page reserved after it, and the mark
    released. -/
def pageCalls : List Call :=
  [.markAsReserved ⟨0x1000, 0x1000⟩, .reserve 0x1000, .release ⟨0x1000, 0x1000⟩]

theorem pageCalls_reserve_aligned :
    ∃ vmm, (new 0x1000 0x10000).runCalls pageCalls = .ok vmm ∧ vmm.segments = [⟨0x2000, 0x1000⟩] ∧
      (∀ (n : Nat) (s : Segment) (vmm' : VirtualMemoryManager), n % PAGE_SIZE = 0 →
        vmm.reserve n = .ok (some s, vmm') → s.start % PAGE_SIZE = 0) ∧
      ∀ pages, vmm.reservePages pages =
        match checkedMul pages PAGE_SIZE with
        | some n => vmm.reserve n
        | none => .error ⟨"attempt to multiply with overflow"⟩ :=
  ⟨_, rfl, rfl, runCalls_reserve_page_aligned 0x1000 0x10000 (by decide) pageCalls (by decide) rfl⟩

end VirtualMemoryManager

end Muffin.Mem
