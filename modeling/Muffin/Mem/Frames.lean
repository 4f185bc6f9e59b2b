-- SUMMARY: The physical frame allocator of `kernel_physical_memory`: first-fit allocation of runs of 4 KiB frames and their release.
import Mathlib

/-!
# The physical frame allocator

`PhysicalMemoryManager` keeps the state of every frame of its regions.
`allocate_frames(n)` for 4 KiB frames searches, from the first free frame on,
for `n` consecutive free frames and marks them allocated; `deallocate_frame`
frees an allocated frame. The model keeps one region whose frame `i` is the
physical frame number `i`. The `first_free` field of the manager is a search
hint below which no frame is free, so the first fit from it is the first fit
from frame 0, which is what the model computes.
-/

namespace Muffin.Mem

/-- `FrameState`. -/
inductive FrameState where
  | unusable
  | allocated
  | free
  deriving DecidableEq, Repr

/-- `PhysicalMemoryManager`, for one region that starts at frame 0. -/
structure PhysicalMemoryManager where
  frames : List FrameState
  deriving DecidableEq, Repr

namespace PhysicalMemoryManager

/-- The frames `[i, i + n)` exist and are free. -/
def RunFree (m : PhysicalMemoryManager) (i n : Nat) : Prop :=
  ∀ j < n, m.frames[i + j]? = some .free

instance (m : PhysicalMemoryManager) (i n : Nat) : Decidable (m.RunFree i n) :=
  inferInstanceAs (Decidable (∀ j < n, _))

/-- The first frame of the first run of `n` free frames: the search of
    `allocate_frames_impl`. -/
def firstFit (m : PhysicalMemoryManager) (n : Nat) : Option Nat :=
  (List.range (m.frames.length + 1)).find? fun i => decide (m.RunFree i n)

/-- Mark the frames `[i, i + n)` with state `s`. -/
def setRun (m : PhysicalMemoryManager) (i n : Nat) (s : FrameState) : PhysicalMemoryManager :=
  ⟨m.frames.mapIdx fun j t => if i ≤ j ∧ j < i + n then s else t⟩

/-- `allocate_frames(n)`: the first and the last frame of the run it allocated. -/
def allocateFrames (m : PhysicalMemoryManager) (n : Nat) :
    Option (Nat × Nat) × PhysicalMemoryManager :=
  match m.firstFit n with
  | some i => (some (i, i + n - 1), m.setRun i n .allocated)
  | none => (none, m)

/-- `allocate_frame`: `allocate_frames(1)`. -/
def allocateFrame (m : PhysicalMemoryManager) : Option Nat × PhysicalMemoryManager :=
  match m.allocateFrames 1 with
  | (r, m') => (r.map Prod.fst, m')

/-- `deallocate_frame`: frees an allocated frame and returns it, returns `None` otherwise. -/
def deallocateFrame (m : PhysicalMemoryManager) (f : Nat) : Option Nat × PhysicalMemoryManager :=
  if m.frames[f]? = some .allocated then (some f, m.setRun f 1 .free) else (none, m)

/-- `deallocate_frames(start..=end)`: frees frame after frame and stops at the first frame
    that was not allocated. -/
def deallocateFrames (m : PhysicalMemoryManager) : List Nat → PhysicalMemoryManager
  | [] => m
  | f :: fs =>
    match m.deallocateFrame f with
    | (some _, m') => m'.deallocateFrames fs
    | (none, m') => m'

-- ---------------------------------------------------------------------------
-- Lemmas
-- ---------------------------------------------------------------------------

theorem getElem?_setRun (m : PhysicalMemoryManager) (i n : Nat) (s : FrameState) (j : Nat) :
    (m.setRun i n s).frames[j]? =
      (m.frames[j]?).map fun t => if i ≤ j ∧ j < i + n then s else t := by
  simp [setRun, List.getElem?_mapIdx]

theorem firstFit_runFree {m : PhysicalMemoryManager} {n i : Nat} (h : m.firstFit n = some i) :
    m.RunFree i n := by
  simpa using List.find?_some h

/-- What `allocate_frames` hands out was free, and is allocated afterwards. -/
theorem allocateFrames_some {m m' : PhysicalMemoryManager} {n i e : Nat}
    (h : m.allocateFrames n = (some (i, e), m')) :
    m.RunFree i n ∧ e = i + n - 1 ∧ m' = m.setRun i n .allocated := by
  unfold allocateFrames at h
  split at h <;> rename_i hfit
  · cases h
    exact ⟨firstFit_runFree hfit, rfl, rfl⟩
  · cases h

/-- A frame that `deallocate_frames` visits and finds allocated is free afterwards. -/
theorem deallocateFrame_frames {m : PhysicalMemoryManager} {f : Nat} :
    (m.deallocateFrame f).2.frames[f]? =
      if m.frames[f]? = some .allocated then some .free else m.frames[f]? := by
  unfold deallocateFrame
  split <;> rename_i hf
  · simp [getElem?_setRun, hf]
  · simp

-- ---------------------------------------------------------------------------
-- How many frames are free
-- ---------------------------------------------------------------------------

/-- The number of free frames. -/
def freeCount (m : PhysicalMemoryManager) : Nat := m.frames.count .free

theorem frames_setRun_one (m : PhysicalMemoryManager) (i : Nat) (s : FrameState) :
    (m.setRun i 1 s).frames = m.frames.set i s := by
  apply List.ext_getElem?
  intro j
  rw [getElem?_setRun, List.getElem?_set]
  by_cases hij : i = j
  · subst hij
    rcases hi : m.frames[i]? with _ | t
    · simp [List.getElem?_eq_none_iff.1 hi]
    · simp [(List.getElem?_eq_some_iff.1 hi).1]
  · have hout : ¬ (i ≤ j ∧ j < i + 1) := by omega
    simp only [hij, hout, if_false, Option.map_id']

/-- With a frame free, `allocate_frame` hands out one, and one frame fewer is free. -/
theorem allocateFrame_of_freeCount_pos {m : PhysicalMemoryManager} (h : 0 < m.freeCount) :
    ∃ f, m.allocateFrame = (some f, m.setRun f 1 .allocated) ∧ m.frames[f]? = some .free ∧
      (m.setRun f 1 .allocated).freeCount + 1 = m.freeCount := by
  obtain ⟨j, hj⟩ := List.mem_iff_getElem?.1 (List.count_pos_iff.1 h)
  have hjlt : j < m.frames.length := (List.getElem?_eq_some_iff.1 hj).1
  -- the search reaches frame `j` at the latest
  have hsome : (m.firstFit 1).isSome := by
    unfold firstFit
    exact List.find?_isSome.2 ⟨j, List.mem_range.2 (by omega), by simpa [RunFree] using hj⟩
  obtain ⟨i, hfit⟩ := Option.isSome_iff_exists.1 hsome
  have hfree : m.frames[i]? = some .free := by simpa using firstFit_runFree hfit 0 (by omega)
  have hilt : i < m.frames.length := (List.getElem?_eq_some_iff.1 hfree).1
  have hget : m.frames[i] = .free := by simpa [List.getElem?_eq_getElem hilt] using hfree
  refine ⟨i, by simp [allocateFrame, allocateFrames, hfit], hfree, ?_⟩
  unfold freeCount
  rw [frames_setRun_one, List.count_set hilt, hget]
  have hpos : 0 < m.frames.count .free := h
  simp only [BEq.rfl, ↓reduceIte, reduceCtorEq, beq_iff_eq]
  omega

end PhysicalMemoryManager

end Muffin.Mem
