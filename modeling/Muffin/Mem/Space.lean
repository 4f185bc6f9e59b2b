-- SUMMARY: The memory of a process as the kernel manages it: the physical frames and their contents, the page tables, the lower-half virtual memory manager, and `LowerHalfMemoryApi::allocate` and `KernelAccess::create_mapping` over them.
import Muffin.Mem.Frames
import Muffin.Mem.Vmm
import Muffin.X86.Paging

/-!
# The memory of a process

`ProcessMemory` gathers what `LowerHalfMemoryApi::allocate` and
`KernelAccess::create_mapping` act on: the global frame allocator together with
the bytes each physical frame holds, the page tables of the process's address
space, and the process's lower-half `VirtualMemoryManager`.

Both functions are in `EStateM Panic ProcessMemory`: a `panic!` or a failed
`assert!` ends the run, and a Rust early return (`?` on `None` or `Err`) is a
result value whose state keeps every effect made before it. The guards that Rust
runs when a value goes out of scope are explicit: an `OwnedSegment` dropped on
an early return releases its segment, and an `OwnedPhysicalMemory` dropped on an
early return frees its frames.

The page tables get their table frames from the same allocator; the crate zeroes
a new table's frame, which `allocateTableFrame` does.
-/

namespace Muffin.Mem

open Rust X86 EStateM

/-- The global frame allocator and the bytes of every physical frame. -/
structure PhysicalMemory where
  manager : PhysicalMemoryManager
  /-- The byte at each offset of each frame. -/
  contents : Nat → Nat → Nat

namespace PhysicalMemory

/-- `PhysicalMemory::allocate_frame`: the frame keeps whatever its previous owner left. -/
def allocateFrame (m : PhysicalMemory) : Option Nat × PhysicalMemory :=
  match m.manager.allocateFrame with
  | (r, mgr) => (r, { m with manager := mgr })

/-- A frame for a new page table, which `create_next_table` zeroes. -/
def allocateTableFrame (m : PhysicalMemory) : Option Nat × PhysicalMemory :=
  match m.allocateFrame with
  | (some f, m') => (some f, { m' with contents := Function.update m'.contents f fun _ => 0 })
  | (none, m') => (none, m')

/-- Store the byte `b` at offset `o` of frame `f`. -/
def write (m : PhysicalMemory) (f o b : Nat) : PhysicalMemory :=
  { m with contents := Function.update m.contents f (Function.update (m.contents f) o b) }

end PhysicalMemory

/-- The memory of one process. -/
structure ProcessMemory where
  phys : PhysicalMemory
  pt : PageTables
  vmm : VirtualMemoryManager

/-- Where the frames of a `map_range` come from. -/
inductive FrameSource where
  /-- `PhysicalMemory::allocate_frames_non_contiguous()`: one `allocate_frame` per page. -/
  | nonContiguous
  /-- The frames of an `OwnedPhysicalMemory`, in order. -/
  | owned (frames : List Nat)

/-- The state `map_range` runs on: the allocator and the frames an owned range has left. -/
abbrev MapState := PhysicalMemory × List Nat

/-- The allocator of the tables `map_to` creates. -/
def tableAlloc (s : MapState) : Option Nat × MapState :=
  match s.1.allocateTableFrame with
  | (r, m) => (r, (m, s.2))

/-- `Iterator::next` of a frame source. -/
def FrameSource.next : FrameSource → MapState → Option Nat × MapState
  | .nonContiguous, s =>
    match s.1.allocateFrame with
    | (r, m) => (r, (m, s.2))
  | .owned _, s =>
    match s.2 with
    | [] => (none, s)
    | f :: fs => (some f, (s.1, fs))

/-- The frames an iterator starts with. -/
def FrameSource.initial : FrameSource → List Nat
  | .nonContiguous => []
  | .owned frames => frames

namespace ProcessMemory

/-- Lift a computation that can only panic. -/
def liftPanic {α : Type} (x : Except Panic α) : EStateM Panic ProcessMemory α :=
  match x with
  | .ok a => pure a
  | .error p => throw p

/-- `process.vmm().reserve(pages)`: `pages * 4096` bytes. -/
def vmmReserve (pages : Nat) : EStateM Panic ProcessMemory (Option Segment) := do
  let s ← get
  match s.vmm.reserve (pages * 4096) with
  | .ok (r, vmm) =>
    set { s with vmm := vmm }
    pure r
  | .error p => throw p

/-- `process.vmm().mark_as_reserved(segment)`, with the wrapper's alignment asserts. -/
def vmmMarkAsReserved (seg : Segment) :
    EStateM Panic ProcessMemory (Except AlreadyReserved Unit) := do
  if seg.start % PAGE_SIZE ≠ 0 then
    throw ⟨"assertion failed: segment.start.is_aligned(Size4KiB::SIZE)"⟩
  if seg.len % PAGE_SIZE ≠ 0 then
    throw ⟨"assertion `left == right` failed"⟩
  let s ← get
  match s.vmm.markAsReserved seg with
  | .ok vmm =>
    set { s with vmm := vmm }
    pure (.ok ())
  | .error e => pure (.error e)

/-- A page-aligned segment that the manager accepts is marked, and nothing else changes. -/
theorem vmmMarkAsReserved_run_ok {seg : Segment} {s : ProcessMemory} {vmm : VirtualMemoryManager}
    (hstart : seg.start % PAGE_SIZE = 0) (hlen : seg.len % PAGE_SIZE = 0)
    (h : s.vmm.markAsReserved seg = .ok vmm) :
    (vmmMarkAsReserved seg).run s = .ok (.ok ()) { s with vmm := vmm } := by
  unfold vmmMarkAsReserved
  simp only [hstart, hlen, ne_eq, not_true_eq_false, ↓reduceIte]
  show (match s.vmm.markAsReserved seg with
    | .ok vmm => (set { s with vmm := vmm } >>= fun _ => pure (.ok ()) :
        EStateM Panic ProcessMemory (Except AlreadyReserved Unit))
    | .error e => pure (.error e)).run s = _
  rw [h]
  rfl

/-- A segment whose start is not page aligned fails the first assertion, with the state as it
    was. -/
theorem vmmMarkAsReserved_unaligned {seg : Segment} (h : seg.start % PAGE_SIZE ≠ 0) (s : ProcessMemory) :
    (vmmMarkAsReserved seg).run s =
      .error ⟨"assertion failed: segment.start.is_aligned(Size4KiB::SIZE)"⟩ s := by
  unfold vmmMarkAsReserved
  rw [if_pos h]
  rfl

/-- `OwnedSegment::drop`: release the segment. -/
def vmmRelease (seg : Segment) : EStateM Panic ProcessMemory Unit :=
  modify fun s => { s with vmm := s.vmm.release seg }

/-- `OwnedPhysicalMemory::drop`: `deallocate_frames` over the owned range. -/
def deallocateFrames (frames : List Nat) : EStateM Panic ProcessMemory Unit :=
  modify fun s => { s with phys := { s.phys with manager := s.phys.manager.deallocateFrames frames } }

/-- `address_space().map_range(&segment, frames, flags)`: the segment becomes a
    `PageRangeInclusive`, which asserts a non-empty segment. -/
def mapRange (seg : Segment) (src : FrameSource) (flags : PageTableFlags) :
    EStateM Panic ProcessMemory (Except MapToError Unit) := do
  if seg.len = 0 then throw ⟨"assertion failed: value.len > 0"⟩
  let s ← get
  match (X86.mapRange tableAlloc src.next flags (pagesOf seg.start seg.len)).run
      (s.pt, (s.phys, src.initial)) with
  | .ok _ (pt, m, _) =>
    set { s with pt := pt, phys := m }
    pure (.ok ())
  | .error e (pt, m, _) =>
    set { s with pt := pt, phys := m }
    pure (.error e)

/-- `PhysicalMemory::allocate_frame()`. -/
def allocateFrame : EStateM Panic ProcessMemory (Option Nat) := do
  let s ← get
  match s.phys.allocateFrame with
  | (r, m) =>
    set { s with phys := m }
    pure r

/-- `address_space().map(page, frame, flags)`: `map_to` for one page, with the global allocator
    for the tables it creates. -/
def map (page frame : Nat) (flags : PageTableFlags) :
    EStateM Panic ProcessMemory (Except MapToError Unit) := do
  let s ← get
  match (X86.mapTo tableAlloc page frame flags).run (s.pt, (s.phys, [])) with
  | .ok _ (pt, m, _) =>
    set { s with pt := pt, phys := m }
    pure (.ok ())
  | .error e (pt, m, _) =>
    set { s with pt := pt, phys := m }
    pure (.error e)

/-- `address_space().unmap(page)`: the frame goes back to the caller, which frees it or not. -/
def unmap (page : Nat) : EStateM Panic ProcessMemory (Option Nat) := do
  let s ← get
  match s.pt.unmap page with
  | (r, pt) =>
    set { s with pt := pt }
    pure r

/-- `address_space().remap(page, |_| flags)`. -/
def remap (page : Nat) (flags : PageTableFlags) :
    EStateM Panic ProcessMemory (Except FlagUpdateError Unit) := do
  let s ← get
  match s.pt.updateFlags page flags with
  | .ok pt =>
    set { s with pt := pt }
    pure (.ok ())
  | .error e => pure (.error e)

/-- One round of `unmap_range`'s loop: unmap page `p` and hand back the frame it mapped. -/
def unmapPage (s : ProcessMemory) (p : Nat) : ProcessMemory :=
  match s.pt.unmap p with
  | (some f, pt) =>
    { s with pt := pt, phys := { s.phys with manager := (s.phys.manager.deallocateFrame f).2 } }
  | (none, pt) => { s with pt := pt }

/-- `address_space().unmap_range(&segment, PhysicalMemory::deallocate_frame)`. -/
def unmapRange (seg : Segment) : EStateM Panic ProcessMemory Unit := do
  if seg.len = 0 then throw ⟨"assertion failed: value.len > 0"⟩
  modify fun s => (pagesOf seg.start seg.len).foldl unmapPage s

/-- A kernel write of the byte `b` at the user address `a`, through the process's page tables. An
    unmapped page faults in Ring 0; this is the fault as `page_fault_classify` ends it when no
    memory region covers the address, a panic. `Syscall.storeUserByte` adds the cases of a
    region that covers it. -/
def writeByte (a b : Nat) : EStateM Panic ProcessMemory Unit := do
  let s ← get
  match s.pt.entry (pageOf a) with
  | some e => set { s with phys := s.phys.write e.frame (a % PAGE_SIZE) b }
  | none => throw ⟨"EXCEPTION: PAGE FAULT"⟩

/-- A kernel read of the byte at the user address `a`; an unmapped page faults as for a write. -/
def readByte (a : Nat) : EStateM Panic ProcessMemory Nat := do
  let s ← get
  match s.pt.entry (pageOf a) with
  | some e => pure (s.phys.contents e.frame (a % PAGE_SIZE))
  | none => throw ⟨"EXCEPTION: PAGE FAULT"⟩

/-- A kernel read of `n` bytes from the user address `a` on: a slice over user memory. -/
def readBytes : Nat → Nat → EStateM Panic ProcessMemory (List Nat)
  | _, 0 => pure []
  | a, n + 1 => do
    let b ← readByte a
    let bs ← readBytes (a + 1) n
    pure (b :: bs)

/-- A kernel write of `bytes` from the user address `a` on. -/
def writeBytes : Nat → List Nat → EStateM Panic ProcessMemory Unit
  | _, [] => pure ()
  | a, b :: bs => do
    writeByte a b
    writeBytes (a + 1) bs

theorem writeByte_run_of_mapped {a b : Nat} {s : ProcessMemory} {e : Pte}
    (h : s.pt.entry (pageOf a) = some e) :
    (writeByte a b).run s = .ok () { s with phys := s.phys.write e.frame (a % PAGE_SIZE) b } := by
  unfold writeByte
  simp only [EStateM.run_bind, EStateM.run_get, h]
  rfl

/-- A kernel write to an unmapped page faults. -/
theorem writeByte_run_of_unmapped {a b : Nat} {s : ProcessMemory} (h : s.pt.entry (pageOf a) = none) :
    (writeByte a b).run s = .error ⟨"EXCEPTION: PAGE FAULT"⟩ s := by
  unfold writeByte
  simp only [EStateM.run_bind, EStateM.run_get, h]
  rfl

/-- A kernel write to mapped pages does not fault, and changes no page-table entry. -/
theorem writeBytes_run_of_mapped {a : Nat} {bs : List Nat} {s : ProcessMemory}
    (h : ∀ i < bs.length, (s.pt.entry (pageOf (a + i))).isSome) :
    ∃ s', (writeBytes a bs).run s = .ok () s' ∧ s'.pt = s.pt := by
  induction bs generalizing a s with
  | nil => exact ⟨s, rfl, rfl⟩
  | cons b bs ih =>
    obtain ⟨e, he⟩ := Option.isSome_iff_exists.1 (h 0 (by simp))
    rw [Nat.add_zero] at he
    -- the first byte changes only the frame's contents, so the rest of the range stays mapped
    obtain ⟨s', hrun, hpt⟩ := @ih (a + 1) { s with phys := s.phys.write e.frame (a % PAGE_SIZE) b }
      fun i hi => by simpa [Nat.add_assoc, Nat.add_comm 1 i] using h (i + 1) (by simp; omega)
    refine ⟨s', ?_, hpt⟩
    unfold writeBytes
    rw [EStateM.run_bind, writeByte_run_of_mapped he]
    exact hrun

end ProcessMemory

-- ---------------------------------------------------------------------------
-- LowerHalfMemoryApi::allocate
-- ---------------------------------------------------------------------------

/-- `kernel_memapi::Location`. -/
inductive Location where
  | anywhere
  | fixed (v : VirtAddr)

/-- `UserAccessible`. -/
inductive UserAccessible where
  | yes
  | no
  deriving DecidableEq

/-- `Guarded`. -/
inductive Guarded where
  | yes
  | no
  deriving DecidableEq

/-- `LowerHalfAllocation`: where the allocation starts, its layout, the reserved segment
    and the mapped part of it. -/
structure Allocation where
  start : Nat
  layout : Layout
  segment : Segment
  mappedSegment : Segment

open ProcessMemory in
/-- `Drop for Inner` of a `LowerHalfAllocation`: unmap the mapped segment, then drop the
    `OwnedSegment`, which releases the reserved one. -/
def Allocation.drop (alloc : Allocation) : EStateM Panic ProcessMemory Unit := do
  unmapRange alloc.mappedSegment
  vmmRelease alloc.segment

open ProcessMemory in
/-- The `let (start, segment) = match location { .. }` of `allocate`: the segment it reserves,
    with the requested start address for a fixed location. `none` is the `?` that returns
    early. -/
def allocateSegment (location : Location) (layout : Layout) (guarded : Guarded) (numPages : Nat) :
    EStateM Panic ProcessMemory (Option (Option Nat × Segment)) := do
  let guardSize := if guarded = .yes then PAGE_SIZE else 0
  match location with
  | .anywhere =>
    let some segment ← vmmReserve numPages | return none
    return some (none, segment)
  | .fixed v =>
    let alignedStartAddr ← liftPanic ((v.alignDown PAGE_SIZE).subU64 guardSize)
    let endAddr ← liftPanic (v.add layout.size)
    let alignedEnd ← liftPanic (endAddr.alignUp PAGE_SIZE)
    let alignedEndAddr ← liftPanic (alignedEnd.add guardSize)
    let len ← liftPanic (alignedEndAddr.sub alignedStartAddr)
    let segment : Segment := ⟨alignedStartAddr.val, len⟩
    let .ok () ← vmmMarkAsReserved segment | return none
    return some (some v.val, segment)

open ProcessMemory in
/-- `LowerHalfMemoryApi::allocate`. -/
def allocate (location : Location) (layout : Layout) (ua : UserAccessible) (guarded : Guarded) :
    EStateM Panic ProcessMemory (Option Allocation) := do
  if ¬ layout.align ≤ PAGE_SIZE then
    throw ⟨"assertion failed: layout.align() <= Size4KiB::SIZE.into_usize()"⟩
  let numPages := divCeil layout.size PAGE_SIZE + (if guarded = .yes then 2 else 0)
  let some (start, segment) ← allocateSegment location layout guarded numPages | return none
  let mappedSegment : Segment :=
    if guarded = .yes then ⟨segment.start + PAGE_SIZE, segment.len - 2 * PAGE_SIZE⟩ else segment
  let flags := PageTableFlags.PRESENT ||| PageTableFlags.WRITABLE ||| PageTableFlags.NO_EXECUTE |||
    (if ua = .yes then PageTableFlags.USER_ACCESSIBLE else 0)
  match ← mapRange mappedSegment .nonContiguous flags with
  | .error _ =>
    -- `.ok()?` returns early and drops the `OwnedSegment`
    vmmRelease segment
    return none
  | .ok () =>
    return some ⟨start.getD mappedSegment.start, layout, segment, mappedSegment⟩

/-- `allocate` asserts that the alignment is at most a page before it does anything else. -/
theorem allocate_of_align_gt {location : Location} {layout : Layout} {ua : UserAccessible}
    {guarded : Guarded} (h : PAGE_SIZE < layout.align) (s : ProcessMemory) :
    (allocate location layout ua guarded).run s =
      .error ⟨"assertion failed: layout.align() <= Size4KiB::SIZE.into_usize()"⟩ s := by
  unfold allocate
  dsimp only
  rw [if_pos (Nat.not_le.2 h)]
  rfl

-- ---------------------------------------------------------------------------
-- KernelAccess::create_mapping
-- ---------------------------------------------------------------------------

/-- `kernel_syscall::access::Location`: a user address for `MAP_FIXED`, or anywhere. -/
inductive MapLocation where
  | anywhere
  | fixed (addr : Nat)

/-- `CreateMappingError`. -/
inductive CreateMappingError where
  | locationAlreadyMapped
  | outOfMemory
  deriving DecidableEq, Repr

/-- `KernelMapping`: the address, the requested size, the segment and the owned frames. -/
structure Mapping where
  addr : Nat
  size : Nat
  segment : Segment
  frames : Nat × Nat

/-- The flags of an anonymous mapping: `PRESENT | WRITABLE | USER_ACCESSIBLE | NO_EXECUTE`. -/
def MAPPING_FLAGS : PageTableFlags :=
  PageTableFlags.PRESENT ||| PageTableFlags.WRITABLE ||| PageTableFlags.USER_ACCESSIBLE |||
    PageTableFlags.NO_EXECUTE

/-- The frames `[first, last]` of a `PhysFrameRangeInclusive`. -/
def frameRange (r : Nat × Nat) : List Nat := (List.range (r.2 + 1 - r.1)).map (r.1 + ·)

open ProcessMemory in
/-- The `let segment = if let Location::Fixed(addr) = location { .. } else { .. }?` of
    `create_mapping`. -/
def mappingSegment (location : MapLocation) (pageAlignedSize pageCount : Nat) :
    EStateM Panic ProcessMemory (Except CreateMappingError Segment) := do
  match location with
  | .fixed addr =>
    let v ← liftPanic (VirtAddr.new addr)
    let segment : Segment := ⟨v.val, pageAlignedSize⟩
    let .ok () ← vmmMarkAsReserved segment | return .error .locationAlreadyMapped
    return .ok segment
  | .anywhere =>
    let some segment ← vmmReserve pageCount | return .error .outOfMemory
    return .ok segment

open ProcessMemory in
/-- `KernelAccess::create_mapping` with eager allocation. The size is rounded up with
    overflow checks on. -/
def createMapping (location : MapLocation) (size : Nat) :
    EStateM Panic ProcessMemory (Except CreateMappingError Mapping) := do
  let some pageAlignedSize := checkedNextMultipleOf size PAGE_SIZE
    | throw ⟨"attempt to add with overflow"⟩
  let pageCount := pageAlignedSize / PAGE_SIZE
  match ← mappingSegment location pageAlignedSize pageCount with
  | .error e => return .error e
  | .ok segment =>
    let s ← get
    match s.phys.manager.allocateFrames pageCount with
    | (none, mgr) =>
      set { s with phys := { s.phys with manager := mgr } }
      vmmRelease segment
      return .error .outOfMemory
    | (some frames, mgr) =>
      set { s with phys := { s.phys with manager := mgr } }
      match ← mapRange segment (.owned (frameRange frames)) MAPPING_FLAGS with
      | .error _ =>
        -- the early return drops `frames`, then `segment`
        deallocateFrames (frameRange frames)
        vmmRelease segment
        return .error .outOfMemory
      | .ok () =>
        return .ok ⟨segment.start, size, segment, frames⟩

/-- A mapping anywhere asks `reserve` for its pages before anything else changes: a reservation
    that panics panics `create_mapping`, with the state as it was. -/
theorem createMapping_anywhere_of_reserve_error {size pageAlignedSize : Nat} {p : Panic}
    (hp : checkedNextMultipleOf size PAGE_SIZE = some pageAlignedSize) {s : ProcessMemory}
    (hreserve : s.vmm.reserve (pageAlignedSize / PAGE_SIZE * 4096) = .error p) :
    (createMapping .anywhere size).run s = .error p s := by
  have hseg : (mappingSegment .anywhere pageAlignedSize (pageAlignedSize / PAGE_SIZE)).run s =
      .error p s := by
    unfold mappingSegment ProcessMemory.vmmReserve
    simp only [EStateM.run_bind, EStateM.run_get, hreserve]
    rfl
  unfold createMapping
  simp only [hp, EStateM.run_bind]
  rw [hseg]

/-- A `MAP_FIXED` mapping at a lower-half address that is not page aligned reaches the alignment
    assertion of `mark_as_reserved` before anything changes. -/
theorem createMapping_fixed_unaligned {addr size : Nat} (hlower : addr < LOWER_HALF_END)
    (halign : addr % PAGE_SIZE ≠ 0) (hsize : size + PAGE_SIZE ≤ U64_LIMIT) (s : ProcessMemory) :
    (createMapping (.fixed addr) size).run s =
      .error ⟨"assertion failed: segment.start.is_aligned(Size4KiB::SIZE)"⟩ s := by
  obtain ⟨pageAlignedSize, hp⟩ := checkedNextMultipleOf_of_add_le (by decide) hsize
  have hseg : (mappingSegment (.fixed addr) pageAlignedSize (pageAlignedSize / PAGE_SIZE)).run s =
      .error ⟨"assertion failed: segment.start.is_aligned(Size4KiB::SIZE)"⟩ s := by
    unfold mappingSegment
    simp only [VirtAddr.new, VirtAddr.tryNew_lower hlower, ProcessMemory.liftPanic, EStateM.run_bind,
      EStateM.run_pure]
    rw [@ProcessMemory.vmmMarkAsReserved_unaligned ⟨addr, pageAlignedSize⟩ halign s]
  unfold createMapping
  simp only [hp, EStateM.run_bind]
  rw [hseg]

end Muffin.Mem
