-- SUMMARY: The sparse physical memory manager of `kernel_physical_memory` as the code has it: regions of 4 KiB frame states, the cached first free position, the search of `allocate_frames_impl` for every page size, and the frees of 4 KiB, 2 MiB and 1 GiB frames and of frame ranges.
import Muffin.Mem.PhysInit

/-!
# The sparse physical memory manager

`PhysicalMemoryManager` keeps the usable memory as a list of `MemoryRegion`s, each a
base address and the states of its 4 KiB frames, and caches in `first_free` the
position of a free frame. `allocate_frames_impl::<S>(n)` searches the regions from
`first_free` on for `n * (S::SIZE / 4096)` free frames whose first one has an
`S`-aligned address, stepping a whole page of size `S` at a time, and marks them
allocated. `deallocate_frame` frees one allocated frame; its 2 MiB and 1 GiB versions
free the 512 frames of the next size down one after another and stop at the first
one that is not allocated, as does the range free `deallocate_frames`.

The model follows the code statement by statement. The `while` loop of the search runs
on `fuel`: one round for each frame of the region and one more, which is enough
because every round moves the cursor forward. The `usize` arithmetic the claims are
about is checked and panics as the kernel, built with overflow checks, does. The cursor
arithmetic bounded by a region's length (`current_start += small_frames_per_frame`,
`frame_end_idx + 1`) is on naturals, since a region's length is that of a `Vec`.
Frames are given by their start addresses. Positions `(region, frame)` are ordered
lexicographically, the order in which the search visits them.
-/

namespace Muffin.Mem.MemoryRegion

/-- `MemoryRegion::frame_address`. -/
def frameAddress (r : MemoryRegion) (index : Nat) : Option Nat :=
  if index < r.frames.length then some (r.baseAddr + index * FRAME_SIZE) else none

/-- `frames_mut()[start..=stop].fill(state)`. -/
def fill (r : MemoryRegion) (start stop : Nat) (state : FrameState) : MemoryRegion :=
  { r with frames := r.frames.mapIdx fun j s => if start ≤ j ∧ j ≤ stop then state else s }

/-- `frames_mut()[index] = state`. -/
def setFrame (r : MemoryRegion) (index : Nat) (state : FrameState) : MemoryRegion :=
  { r with frames := r.frames.set index state }

@[simp] theorem baseAddr_fill (r : MemoryRegion) (start stop : Nat) (state : FrameState) :
    (r.fill start stop state).baseAddr = r.baseAddr := rfl

@[simp] theorem length_fill (r : MemoryRegion) (start stop : Nat) (state : FrameState) :
    (r.fill start stop state).frames.length = r.frames.length := by
  simp [fill]

theorem getElem?_fill (r : MemoryRegion) (start stop : Nat) (state : FrameState) (j : Nat) :
    (r.fill start stop state).frames[j]? =
      if start ≤ j ∧ j ≤ stop then r.frames[j]?.map fun _ => state else r.frames[j]? := by
  unfold fill
  split_ifs with h <;> simp [List.getElem?_mapIdx, h]

@[simp] theorem baseAddr_setFrame (r : MemoryRegion) (index : Nat) (state : FrameState) :
    (r.setFrame index state).baseAddr = r.baseAddr := rfl

@[simp] theorem length_setFrame (r : MemoryRegion) (index : Nat) (state : FrameState) :
    (r.setFrame index state).frames.length = r.frames.length := by
  simp [setFrame]

theorem frameAddress_of_lt {r : MemoryRegion} {index : Nat} (h : index < r.frames.length) :
    r.frameAddress index = some (r.baseAddr + index * FRAME_SIZE) :=
  if_pos h

end Muffin.Mem.MemoryRegion

namespace Muffin.PhysicalMemory

open Rust
open Muffin.Mem (MemoryRegion FrameState FRAME_SIZE)

/-- The page sizes the generic code is instantiated at: `Size4KiB`, `Size2MiB`, `Size1GiB`. -/
inductive PageSize where
  | size4KiB
  | size2MiB
  | size1GiB
  deriving DecidableEq, Repr

namespace PageSize

/-- `S::SIZE`. -/
def SIZE : PageSize → Nat
  | size4KiB => 0x1000
  | size2MiB => 0x20_0000
  | size1GiB => 0x4000_0000

/-- `(S::SIZE / Size4KiB::SIZE) as usize`. -/
def smallFramesPerFrame (S : PageSize) : Nat := S.SIZE / FRAME_SIZE

theorem SIZE_eq (S : PageSize) : S.SIZE = S.smallFramesPerFrame * FRAME_SIZE := by
  cases S <;> rfl

theorem smallFramesPerFrame_pos (S : PageSize) : 0 < S.smallFramesPerFrame := by
  cases S <;> decide

theorem smallFramesPerFrame_le (S : PageSize) : S.smallFramesPerFrame ≤ 0x4_0000 := by
  cases S <;> decide

end PageSize

/-- `RegionFrameIndex`: a region and a frame of it. -/
structure RegionFrameIndex where
  regionIdx : Nat
  frameIdx : Nat
  deriving DecidableEq, Repr

namespace RegionFrameIndex

/-- The position as a pair in lexicographic order, region first. -/
def lex (loc : RegionFrameIndex) : Lex (Nat × Nat) := toLex (loc.regionIdx, loc.frameIdx)

theorem lex_injective : Function.Injective lex := by
  rintro ⟨a, b⟩ ⟨c, d⟩ h
  simpa [lex] using h

/-- Positions in the order the search visits them: by region, then by frame. -/
instance : LinearOrder RegionFrameIndex := LinearOrder.lift' lex lex_injective

theorem lt_iff {loc loc' : RegionFrameIndex} :
    loc < loc' ↔ loc.regionIdx < loc'.regionIdx ∨
      loc.regionIdx = loc'.regionIdx ∧ loc.frameIdx < loc'.frameIdx :=
  Prod.Lex.toLex_lt_toLex

theorem le_iff {loc loc' : RegionFrameIndex} :
    loc ≤ loc' ↔ loc.regionIdx < loc'.regionIdx ∨
      loc.regionIdx = loc'.regionIdx ∧ loc.frameIdx ≤ loc'.frameIdx :=
  Prod.Lex.toLex_le_toLex

end RegionFrameIndex

/-- `PhysicalMemoryManager`. -/
structure PhysicalMemoryManager where
  regions : List MemoryRegion
  firstFree : Option RegionFrameIndex
  deriving DecidableEq, Repr

/-- The state of frame `loc.frameIdx` of region `loc.regionIdx`, if there is such a frame. -/
def stateAt (regions : List MemoryRegion) (loc : RegionFrameIndex) : Option FrameState :=
  regions[loc.regionIdx]?.bind fun r => r.frames[loc.frameIdx]?

/-- The frames that are free, as positions. -/
def FreeAt (regions : List MemoryRegion) : Set RegionFrameIndex :=
  {loc | stateAt regions loc = some .free}

/-- `frames.iter().position(|&s| s == FrameState::Free)`. -/
def positionFree (frames : List FrameState) : Option Nat := frames.findIdx? (· == .free)

/-- The loop over `regions.iter().enumerate()` of `find_first_free_internal` and of
    `update_first_free`: the first free frame of the first region, numbered from
    `regionIdx`, that has one. -/
def firstFreeFrom : Nat → List MemoryRegion → Option RegionFrameIndex
  | _, [] => none
  | regionIdx, region :: rest =>
    match positionFree region.frames with
    | some frameIdx => some ⟨regionIdx, frameIdx⟩
    | none => firstFreeFrom (regionIdx + 1) rest

/-- `find_first_free_internal`. -/
def findFirstFreeInternal (regions : List MemoryRegion) : Option RegionFrameIndex :=
  firstFreeFrom 0 regions

/-- `find_frame_location`: the first region, numbered from `regionIdx`, whose `frame_index`
    finds the address. -/
def findFrameLocation : Nat → List MemoryRegion → Nat → Option RegionFrameIndex
  | _, [], _ => none
  | regionIdx, region :: rest, addr =>
    match region.frameIndex addr with
    | some frameIdx => some ⟨regionIdx, frameIdx⟩
    | none => findFrameLocation (regionIdx + 1) rest addr

/-- The block of `allocate_frames_impl` that aligns `search_start` up so that the frame's
    address is a multiple of `S::SIZE`. -/
def alignedSearchStart (S : PageSize) (searchStart startAddr : Nat) : Nat :=
  let misalignment := startAddr % S.SIZE
  if misalignment = 0 then searchStart
  else searchStart + (S.SIZE - misalignment) / FRAME_SIZE

/-- The `while current_start + small_frame_count <= region.len()` loop of
    `allocate_frames_impl` in one region: the first frame of the first run of free frames,
    trying `current_start`, then `step` frames further, and so on. -/
def searchRun (region : MemoryRegion) (smallFrameCount step : Nat) :
    Nat → Nat → Except Panic (Option Nat)
  | 0, _ => .ok none
  | fuel + 1, currentStart =>
    match checkedAdd currentStart smallFrameCount with
    | none => .error ⟨"attempt to add with overflow"⟩
    | some runEnd =>
      if runEnd ≤ region.frames.length then
        if ((region.frames.drop currentStart).take smallFrameCount).all (· == .free) then
          .ok (some currentStart)
        else searchRun region smallFrameCount step fuel (currentStart + step)
      else .ok none

/-- The `for region_idx in ff.region_idx..self.regions.len()` loop of
    `allocate_frames_impl`, over the regions from `regionIdx` on: the region and the first
    frame of the run it settles on. -/
def searchRegions (S : PageSize) (smallFrameCount : Nat) (ff : RegionFrameIndex) :
    Nat → List MemoryRegion → Except Panic (Option (Nat × Nat))
  | _, [] => .ok none
  | regionIdx, region :: rest => do
    let searchStart := if regionIdx = ff.regionIdx then ff.frameIdx else 0
    if region.frames.length ≤ searchStart then
      searchRegions S smallFrameCount ff (regionIdx + 1) rest
    else
      match region.frameAddress searchStart with
      | none => searchRegions S smallFrameCount ff (regionIdx + 1) rest
      | some startAddr =>
        let currentStart := alignedSearchStart S searchStart startAddr
        match ← searchRun region smallFrameCount S.smallFramesPerFrame
            (region.frames.length + 1) currentStart with
        | some frameStartIdx => pure (some (regionIdx, frameStartIdx))
        | none => searchRegions S smallFrameCount ff (regionIdx + 1) rest

/-- `Option::expect`. -/
def expect {α : Type} (o : Option α) (msg : String) : Except Panic α :=
  match o with
  | some a => .ok a
  | none => .error ⟨msg⟩

/-- `PhysFrame::<S>::from_start_address(PhysAddr::new(addr)).expect(..)`: `PhysAddr::new` panics
    on an address with a bit set from bit 52 on, and the frame needs an `S`-aligned address. -/
def frameFromStartAddress (S : PageSize) (addr : Nat) : Except Panic Nat :=
  if addr < 2 ^ 52 then
    if addr % S.SIZE = 0 then .ok addr
    else .error ⟨"start address must be aligned to page size: AddressNotAligned"⟩
  else .error ⟨"physical addresses must not have any bits in the range 52 to 64 set"⟩

namespace PhysicalMemoryManager

/-- `PhysicalMemoryManager::new`. -/
def new (regions : List MemoryRegion) : PhysicalMemoryManager :=
  ⟨regions, findFirstFreeInternal regions⟩

/-- The first `if let` of `update_first_free`: the first free frame of region `startRegion`
    from frame `startIndex` on, when the region exists and has one. -/
def firstFreeInRegion (regions : List MemoryRegion) (startRegion startIndex : Nat) : Option Nat :=
  match regions[startRegion]? with
  | some region =>
    if startIndex < region.frames.length then
      (positionFree (region.frames.drop startIndex)).map (startIndex + ·)
    else none
  | none => none

/-- `update_first_free(start_region, start_index)`. -/
def updateFirstFree (m : PhysicalMemoryManager) (startRegion startIndex : Nat) :
    PhysicalMemoryManager :=
  match firstFreeInRegion m.regions startRegion startIndex with
  | some frameIdx => { m with firstFree := some ⟨startRegion, frameIdx⟩ }
  | none => { m with firstFree := firstFreeFrom (startRegion + 1) (m.regions.drop (startRegion + 1)) }

/-- The body of `if all_free { .. }` in `allocate_frames_impl::<S>(n)`, for the run of
    `smallFrameCount` frames found at frame `frameStartIdx` of region `regionIdx`: marks it
    allocated, moves `first_free` past it when it started there, and returns the start addresses
    of its first and of its last page, `PhysFrameRangeInclusive { start, end }`. -/
def takeRun (S : PageSize) (m : PhysicalMemoryManager) (ff : RegionFrameIndex)
    (n smallFrameCount regionIdx frameStartIdx : Nat) :
    Except Panic (Option (Nat × Nat) × PhysicalMemoryManager) := do
  let len := m.regions.length
  let some region := m.regions[regionIdx]?
    | throw ⟨s!"index out of bounds: the len is {len} but the index is {regionIdx}"⟩
  -- `current_start + small_frame_count` passed the loop's overflow check
  let some frameEndIdx := checkedSub (frameStartIdx + smallFrameCount) 1
    | throw ⟨"attempt to subtract with overflow"⟩
  let startAddr ← expect (region.frameAddress frameStartIdx)
    "frame_address(frame_start_idx) should succeed: frame exists and is free"
  let some pagesBefore := checkedSub n 1 | throw ⟨"attempt to subtract with overflow"⟩
  let some offset := checkedMul pagesBefore S.smallFramesPerFrame
    | throw ⟨"attempt to multiply with overflow"⟩
  let some lastPageStartIdx := checkedAdd frameStartIdx offset
    | throw ⟨"attempt to add with overflow"⟩
  let endAddr ← expect (region.frameAddress lastPageStartIdx)
    "frame_address(last_page_start_idx) should succeed: frame exists and is free"
  let m := { m with
    regions := m.regions.modify regionIdx (·.fill frameStartIdx frameEndIdx .allocated) }
  let m := if regionIdx = ff.regionIdx ∧ frameStartIdx ≤ ff.frameIdx then
      m.updateFirstFree regionIdx (frameEndIdx + 1)
    else m
  let start ← frameFromStartAddress S startAddr
  let stop ← frameFromStartAddress S endAddr
  pure (some (start, stop), m)

/-- `allocate_frames_impl::<S>(n)`. -/
def allocateFramesImpl (S : PageSize) (m : PhysicalMemoryManager) (n : Nat) :
    Except Panic (Option (Nat × Nat) × PhysicalMemoryManager) := do
  let some smallFrameCount := checkedMul n S.smallFramesPerFrame
    | throw ⟨"attempt to multiply with overflow"⟩
  let some ff := m.firstFree | pure (none, m)
  match ← searchRegions S smallFrameCount ff ff.regionIdx (m.regions.drop ff.regionIdx) with
  | none => pure (none, m)
  | some (regionIdx, frameStartIdx) => takeRun S m ff n smallFrameCount regionIdx frameStartIdx

/-- `deallocate_frame` for the 4 KiB frame at `addr`. -/
def deallocateFrame (m : PhysicalMemoryManager) (addr : Nat) : Option Nat × PhysicalMemoryManager :=
  match findFrameLocation 0 m.regions addr with
  | none => (none, m)
  | some loc =>
    if stateAt m.regions loc = some .allocated then
      let isBeforeFirstFree : Bool :=
        match m.firstFree with
        | some ff =>
          loc.regionIdx < ff.regionIdx || (loc.regionIdx == ff.regionIdx && loc.frameIdx < ff.frameIdx)
        | none => true
      let m := { m with regions := m.regions.modify loc.regionIdx (·.setFrame loc.frameIdx .free) }
      (some addr, if isBeforeFirstFree then { m with firstFree := some loc } else m)
    else (none, m)

/-- The loop `for frame in frames { self.deallocate_frame(frame)?; }`: frees frame after frame
    with `free` and stops at the first one it refuses. -/
def deallocateEach (free : PhysicalMemoryManager → Nat → Option Nat × PhysicalMemoryManager) :
    PhysicalMemoryManager → List Nat → Option Unit × PhysicalMemoryManager
  | m, [] => (some (), m)
  | m, frame :: frames =>
    match free m frame with
    | (some _, m) => deallocateEach free m frames
    | (none, m) => (none, m)

/-- The start addresses `frame.start_address() + i * size` for `i` in `0..count`: the frames of
    size `size` that make up a frame starting at `start`, which is aligned to its own, larger,
    size. -/
def constituents (start size count : Nat) : List Nat :=
  (List.range count).map fun i => start + i * size

/-- `deallocate_frame` for the 2 MiB frame at `addr`: its 512 frames of 4 KiB. -/
def deallocateFrame2MiB (m : PhysicalMemoryManager) (addr : Nat) :
    Option Nat × PhysicalMemoryManager :=
  match deallocateEach deallocateFrame m (constituents addr 0x1000 512) with
  | (some (), m) => (some addr, m)
  | (none, m) => (none, m)

/-- `deallocate_frame` for the 1 GiB frame at `addr`: its 512 frames of 2 MiB. -/
def deallocateFrame1GiB (m : PhysicalMemoryManager) (addr : Nat) :
    Option Nat × PhysicalMemoryManager :=
  match deallocateEach deallocateFrame2MiB m (constituents addr 0x20_0000 512) with
  | (some (), m) => (some addr, m)
  | (none, m) => (none, m)

/-- `deallocate_frame` of `PhysicalFrameAllocator<S>`, for each page size. -/
def deallocateFrameOf : PageSize → PhysicalMemoryManager → Nat → Option Nat × PhysicalMemoryManager
  | .size4KiB => deallocateFrame
  | .size2MiB => deallocateFrame2MiB
  | .size1GiB => deallocateFrame1GiB

/-- The loop of the default `deallocate_frames`, with `res` the range freed so far. -/
def deallocateRange (free : PhysicalMemoryManager → Nat → Option Nat × PhysicalMemoryManager) :
    Option (Nat × Nat) → PhysicalMemoryManager → List Nat → Option (Nat × Nat) × PhysicalMemoryManager
  | res, m, [] => (res, m)
  | res, m, frame :: frames =>
    match free m frame with
    | (none, m) => (none, m)
    | (some frame, m) =>
      let start := match res with
        | some r => r.1
        | none => frame
      deallocateRange free (some (start, frame)) m frames

/-- The frames of `PhysFrameRangeInclusive { start, end }` of page size `S`, in the order
    its iterator yields them. -/
def rangeFrames (S : PageSize) (start stop : Nat) : List Nat :=
  if start ≤ stop then constituents start S.SIZE ((stop - start) / S.SIZE + 1) else []

/-- The default `PhysicalFrameAllocator::deallocate_frames(range)`. -/
def deallocateFrames (S : PageSize) (m : PhysicalMemoryManager) (start stop : Nat) :
    Option (Nat × Nat) × PhysicalMemoryManager :=
  deallocateRange (deallocateFrameOf S) none m (rangeFrames S start stop)

end PhysicalMemoryManager

end Muffin.PhysicalMemory
