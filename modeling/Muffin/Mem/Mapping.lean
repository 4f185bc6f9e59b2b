-- SUMMARY: What `LowerHalfMemoryApi::allocate` and `KernelAccess::create_mapping` do to the page tables on every outcome: no entry in use is ever changed, and a failing call keeps the entries it wrote.
import Muffin.Mem.Space

/-!
# The page tables after `allocate` and `create_mapping`

Both functions only add page-table entries: every entry that is in use before a
call has the same value after it, on success, on an early return and on a panic
(`allocate_moves`, `createMapping_moves`). The proofs follow the functions'
structure: the parts that choose a segment change only the virtual memory
manager, the frame bookkeeping changes no entry, and `map_range` keeps every
entry in use (`X86.mapRange_moves`).

The same fact read the other way is why an early return does not undo a partial
`map_range`: the entries it wrote before it failed stay, and the guards that run
on the way out release the segment and the frames but touch no entry.
-/

namespace Muffin.Mem

open Rust X86 EStateM ProcessMemory

/-- Only the virtual memory manager changes. -/
def VmmOnly (s s' : ProcessMemory) : Prop := s'.pt = s.pt ∧ s'.phys = s.phys

instance : Std.Refl VmmOnly := ⟨fun _ => ⟨rfl, rfl⟩⟩

instance : IsTrans ProcessMemory VmmOnly :=
  ⟨fun _ _ _ h₁ h₂ => ⟨h₂.1.trans h₁.1, h₂.2.trans h₁.2⟩⟩

/-- Every page-table entry in use keeps its value. -/
def PtKept (s s' : ProcessMemory) : Prop :=
  ∀ q, (s.pt.entry q).isSome → s'.pt.entry q = s.pt.entry q

instance : Std.Refl PtKept := ⟨fun _ _ _ => rfl⟩

instance : IsTrans ProcessMemory PtKept :=
  ⟨fun _ _ _ h₁ h₂ q hq => (h₂ q (by rw [h₁ q hq]; exact hq)).trans (h₁ q hq)⟩

theorem PtKept.of_pt_eq {s s' : ProcessMemory} (h : s'.pt = s.pt) : PtKept s s' :=
  fun q _ => by rw [h]

theorem PtKept.of_vmmOnly {s s' : ProcessMemory} (h : VmmOnly s s') : PtKept s s' :=
  PtKept.of_pt_eq h.1

-- ---------------------------------------------------------------------------
-- The parts
-- ---------------------------------------------------------------------------

theorem liftPanic_moves {α : Type} {R : ProcessMemory → ProcessMemory → Prop} [Std.Refl R]
    (x : Except Panic α) : Moves R (liftPanic x) := by
  cases x with
  | error p => exact Moves.throw p
  | ok a => exact Moves.pure a

theorem vmmReserve_moves (pages : Nat) : Moves VmmOnly (vmmReserve pages) :=
  Moves.get_bind fun s => by
    split
    · exact ⟨rfl, rfl⟩
    · exact Moves.throw _ s

theorem vmmMarkAsReserved_moves (seg : Segment) : Moves VmmOnly (vmmMarkAsReserved seg) := by
  intro s
  unfold vmmMarkAsReserved
  dsimp only
  -- the two alignment asserts, then the manager's own test
  split
  · exact ⟨rfl, rfl⟩
  · split
    · exact ⟨rfl, rfl⟩
    · rw [finalState_get_bind]
      split <;> exact ⟨rfl, rfl⟩

theorem vmmRelease_moves (seg : Segment) : Moves VmmOnly (vmmRelease seg) :=
  fun _ => ⟨rfl, rfl⟩

theorem deallocateFrames_moves (frames : List Nat) : Moves PtKept (deallocateFrames frames) :=
  fun _ => PtKept.of_pt_eq rfl

/-- The kernel's `map_range` changes no entry in use. -/
theorem ProcessMemory.mapRange_moves (seg : Segment) (src : FrameSource) (flags : PageTableFlags) :
    Moves PtKept (mapRange seg src flags) := by
  intro s
  unfold ProcessMemory.mapRange
  dsimp only
  split_ifs
  · exact refl_of PtKept s
  · rw [finalState_get_bind]
    -- the state after the call is the one the crate's `map_range` left, on both outcomes
    have hx := X86.mapRange_moves tableAlloc src.next flags (pagesOf seg.start seg.len)
    split <;> rename_i hrun
    · exact hx.of_run_ok hrun
    · exact hx.of_run_error hrun

theorem allocateSegment_moves (location : Location) (layout : Layout) (guarded : Guarded)
    (numPages : Nat) : Moves VmmOnly (allocateSegment location layout guarded numPages) := by
  unfold allocateSegment
  cases location with
  | anywhere =>
    refine (vmmReserve_moves numPages).bind fun r => ?_
    cases r <;> exact Moves.pure _
  | fixed v =>
    refine (liftPanic_moves _).bind fun a => (liftPanic_moves _).bind fun e =>
      (liftPanic_moves _).bind fun e' => (liftPanic_moves _).bind fun e'' =>
      (liftPanic_moves _).bind fun len => (vmmMarkAsReserved_moves _).bind fun r => ?_
    cases r <;> exact Moves.pure _

theorem mappingSegment_moves (location : MapLocation) (pageAlignedSize pageCount : Nat) :
    Moves VmmOnly (mappingSegment location pageAlignedSize pageCount) := by
  unfold mappingSegment
  cases location with
  | fixed addr =>
    refine (liftPanic_moves _).bind fun v => (vmmMarkAsReserved_moves _).bind fun r => ?_
    cases r <;> exact Moves.pure _
  | anywhere =>
    refine (vmmReserve_moves pageCount).bind fun r => ?_
    cases r <;> exact Moves.pure _

-- ---------------------------------------------------------------------------
-- The two functions
-- ---------------------------------------------------------------------------

/-- `LowerHalfMemoryApi::allocate` never changes or removes a page-table entry in use, on any
    outcome. -/
theorem allocate_moves (location : Location) (layout : Layout) (ua : UserAccessible)
    (guarded : Guarded) : Moves PtKept (allocate location layout ua guarded) := by
  have hrelease : ∀ seg, Moves PtKept (vmmRelease seg) :=
    fun seg => (vmmRelease_moves seg).mono fun _ _ => PtKept.of_vmmOnly
  unfold allocate
  dsimp only
  split
  · exact Moves.throw _
  · refine ((allocateSegment_moves location layout guarded _).mono
      fun _ _ => PtKept.of_vmmOnly).bind fun r => ?_
    rcases r with _ | ⟨start, segment⟩
    · exact Moves.pure _
    · refine (ProcessMemory.mapRange_moves _ _ _).bind fun r => ?_
      cases r with
      | error e => exact (hrelease segment).seq (Moves.pure _)
      | ok u => exact Moves.pure _

/-- `KernelAccess::create_mapping` never changes or removes a page-table entry in use, on any
    outcome. -/
theorem createMapping_moves (location : MapLocation) (size : Nat) :
    Moves PtKept (createMapping location size) := by
  have hrelease : ∀ seg, Moves PtKept (vmmRelease seg) :=
    fun seg => (vmmRelease_moves seg).mono fun _ _ => PtKept.of_vmmOnly
  unfold createMapping
  split
  · refine ((mappingSegment_moves location _ _).mono fun _ _ => PtKept.of_vmmOnly).bind
      fun r => ?_
    rcases r with e | segment
    · exact Moves.pure _
    · refine Moves.get_bind fun s => ?_
      -- taking the frames changes only the allocator
      split
      · exact Moves.set_bind (PtKept.of_pt_eq rfl) ((hrelease segment).seq (Moves.pure _))
      · refine Moves.set_bind (PtKept.of_pt_eq rfl) ((ProcessMemory.mapRange_moves _ _ _).bind
          fun r => ?_)
        cases r with
        | error e => exact (deallocateFrames_moves _).seq ((hrelease segment).seq (Moves.pure _))
        | ok u => exact Moves.pure _
  · exact Moves.throw _

/-- A process whose level-1 table for the pages `0x100000` to `0x1001FF` is present and whose
    level-1 table for the next 512 pages is not, with two free frames and an empty
    virtual memory manager. -/
def tornState : ProcessMemory where
  phys := ⟨⟨[.free, .free]⟩, fun _ _ => 0⟩
  pt := ⟨fun _ => none, fun k i => (k == 3 && i == 0) || (k == 2 && i == 4) || (k == 1 && i == 0x800)⟩
  vmm := ⟨0x1_0000_0000, 0x7F00_0000_0000, []⟩

/-- A two-page `MAP_FIXED` mapping across the end of a level-1 table when the allocator has
    exactly the two data frames: the second page needs a new table, there is no frame for it,
    and `create_mapping` returns `OutOfMemory` after handing both frames back while the first
    page still maps frame 0. -/
theorem createMapping_error_keeps_freed_frame :
    ∃ s, (createMapping (.fixed 0x1_001F_F000) 0x2000).run tornState = .ok (.error .outOfMemory) s ∧
      tornState.pt.entry 0x1001FF = none ∧ s.pt.entry 0x1001FF = some ⟨0, MAPPING_FLAGS⟩ ∧
      s.phys.manager.frames[0]? = some .free ∧ s.vmm.segments = [] :=
  ⟨_, rfl, rfl, rfl, rfl, rfl⟩

/-- A process whose only free frame still holds the byte `0x41` that its previous owner wrote,
    with every page table present. -/
def staleState : ProcessMemory where
  phys := ⟨⟨[.free]⟩, fun _ _ => 0x41⟩
  pt := ⟨fun _ => none, fun _ _ => true⟩
  vmm := ⟨0x1_0000_0000, 0x7F00_0000_0000, []⟩

set_option maxRecDepth 10000 in
/-- An anonymous one-page mapping hands user space the frame as its previous owner left it:
    the page is mapped user-accessible and its first byte reads `0x41`, not `0`. -/
theorem createMapping_exposes_stale_byte :
    ∃ s m, (createMapping .anywhere 0x1000).run staleState = .ok (.ok m) s ∧
      s.pt.entry (pageOf m.addr) = some ⟨0, MAPPING_FLAGS⟩ ∧
      PageTableFlags.contains MAPPING_FLAGS PageTableFlags.USER_ACCESSIBLE = true ∧
      s.phys.contents 0 0 = 0x41 :=
  ⟨_, _, rfl, rfl, rfl, rfl⟩

end Muffin.Mem
