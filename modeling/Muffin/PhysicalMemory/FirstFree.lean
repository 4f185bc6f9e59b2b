-- SUMMARY: Where `first_free` points in the sparse physical memory manager: the first free frame in (region, frame) order after `new`, after `update_first_free` and after every free, the invariant of the manager, and the frees of 2 MiB and 1 GiB frames and of ranges, which stop half way.
import Muffin.PhysicalMemory.Manager
import Muffin.Lib.First

/-!
# The first free frame

`first_free` is meant to be the first free frame of the manager, in the order of
positions `(region, frame)`; `allocate_frames_impl` starts its search there. The
searches that compute it (`find_first_free_internal`, `update_first_free`) scan the
regions in order, so each is an instance of `Set.IsFirst`, found region by region
(`isFirst_Ici_some`, `isFirst_Ici_none`). `Wf` is the invariant: the regions lie on
4 KiB boundaries below `2 ^ 52`, and `first_free` is the first free frame.
`deallocate_frame` keeps it (`Wf.deallocateFrame`), and so does every loop of frees,
including one that stops at a frame it cannot free. That stop is where the frees of
large frames and of ranges are not atomic (`deallocateEach_eq_none`).
-/

namespace Muffin.PhysicalMemory

open Muffin.Mem (MemoryRegion FrameState FRAME_SIZE)
open Set (IsFirst)

-- ---------------------------------------------------------------------------
-- Positions, region by region
-- ---------------------------------------------------------------------------

section Positions

theorem RegionFrameIndex.monotone_mk (i : Nat) : Monotone (RegionFrameIndex.mk i) :=
  fun _ _ h => RegionFrameIndex.le_iff.2 (Or.inr ⟨rfl, h⟩)

/-- The positions of `P` from `⟨i, s⟩` on: those of region `i` from frame `s` on, then those
    from region `i + 1` on. -/
theorem Ici_inter_eq (P : Set RegionFrameIndex) (i s : Nat) :
    Set.Ici ⟨i, s⟩ ∩ P =
      RegionFrameIndex.mk i '' {j | s ≤ j ∧ ⟨i, j⟩ ∈ P} ∪ Set.Ici ⟨i + 1, 0⟩ ∩ P := by
  ext ⟨r, f⟩
  simp only [Set.mem_inter_iff, Set.mem_Ici, Set.mem_union, Set.mem_image, Set.mem_ofPred_eq,
    RegionFrameIndex.le_iff, RegionFrameIndex.mk.injEq]
  constructor
  · rintro ⟨h, hP⟩
    by_cases hr : r = i
    · subst hr
      exact .inl ⟨f, ⟨by omega, hP⟩, rfl, rfl⟩
    · exact .inr ⟨by omega, hP⟩
  · rintro (⟨j, ⟨hj, hP⟩, rfl, rfl⟩ | ⟨h, hP⟩)
    · exact ⟨by omega, hP⟩
    · exact ⟨by omega, hP⟩

/-- A region of a search over the regions that finds a position of `P` ends the search. -/
theorem isFirst_Ici_some {P : Set RegionFrameIndex} {i s j : Nat}
    (hrow : IsLeast {j | s ≤ j ∧ ⟨i, j⟩ ∈ P} j) : IsFirst (Set.Ici ⟨i, s⟩ ∩ P) (some ⟨i, j⟩) := by
  rw [Ici_inter_eq]
  refine IsFirst.union_left ((RegionFrameIndex.monotone_mk i).map_isLeast hrow) ?_
  rintro _ ⟨k, -, rfl⟩ y ⟨hy, -⟩
  rw [Set.mem_Ici, RegionFrameIndex.le_iff] at hy
  rw [RegionFrameIndex.le_iff]
  simp only at hy ⊢
  omega

/-- A region of a search over the regions with no position of `P` passes the search on. -/
theorem isFirst_Ici_none {P : Set RegionFrameIndex} {i s : Nat} {next : Option RegionFrameIndex}
    (hrow : {j | s ≤ j ∧ ⟨i, j⟩ ∈ P} = ∅) (hnext : IsFirst (Set.Ici ⟨i + 1, 0⟩ ∩ P) next) :
    IsFirst (Set.Ici ⟨i, s⟩ ∩ P) next := by
  rw [Ici_inter_eq, hrow, Set.image_empty]
  exact IsFirst.union_right rfl hnext

theorem Ici_zero_eq_univ : Set.Ici (⟨0, 0⟩ : RegionFrameIndex) = Set.univ := by
  ext ⟨r, f⟩
  simp only [Set.mem_Ici, Set.mem_univ, iff_true, RegionFrameIndex.le_iff]
  omega

end Positions

-- ---------------------------------------------------------------------------
-- Frame states
-- ---------------------------------------------------------------------------

section States

variable {regions : List MemoryRegion}

theorem getElem?_of_drop_eq_cons {α : Type} {l rest : List α} {i : Nat} {a : α}
    (h : l.drop i = a :: rest) : l[i]? = some a := by
  rw [← List.head?_drop, h]
  rfl

theorem drop_succ_of_drop_eq_cons {α : Type} {l rest : List α} {i : Nat} {a : α}
    (h : l.drop i = a :: rest) : l.drop (i + 1) = rest := by
  rw [← List.drop_drop, h]
  rfl

theorem stateAt_of_getElem? {i : Nat} {r : MemoryRegion} (hr : regions[i]? = some r) (j : Nat) :
    stateAt regions ⟨i, j⟩ = r.frames[j]? := by
  simp [stateAt, hr]

theorem stateAt_of_length_le {loc : RegionFrameIndex} (h : regions.length ≤ loc.regionIdx) :
    stateAt regions loc = none := by
  simp [stateAt, List.getElem?_eq_none h]

theorem stateAt_modify (i : Nat) (f : MemoryRegion → MemoryRegion) (loc : RegionFrameIndex) :
    stateAt (regions.modify i f) loc =
      if i = loc.regionIdx then regions[i]?.bind fun r => (f r).frames[loc.frameIdx]?
      else stateAt regions loc := by
  unfold stateAt
  rw [List.getElem?_modify]
  by_cases h : i = loc.regionIdx
  · rw [if_pos h, h]
    cases hr : regions[loc.regionIdx]? <;> simp
  · rw [if_neg h]
    cases hr : regions[loc.regionIdx]? <;> simp [h]

/-- `frames.iter().position(..)` finds the first free frame. -/
theorem positionFree_isFirst (frames : List FrameState) :
    IsFirst {j | frames[j]? = some .free} (positionFree frames) := by
  cases h : positionFree frames with
  | none =>
    rw [IsFirst.none_iff, Set.eq_empty_iff_forall_notMem]
    intro j hj
    have hfalse := List.findIdx?_eq_none_iff.1 h _ (List.mem_of_getElem? hj)
    simp at hfalse
  | some j =>
    obtain ⟨hlt, hfree, hmin⟩ := List.findIdx?_eq_some_iff_getElem.1 h
    refine ⟨by simpa [List.getElem?_eq_getElem hlt] using hfree, fun k hk => ?_⟩
    by_contra hkj
    have hklt : k < frames.length := (List.getElem?_eq_some_iff.1 hk).1
    have hnot := hmin k (by omega)
    simp [(List.getElem?_eq_some_iff.1 hk).2] at hnot

/-- The free frames of `frames.drop s`, numbered in `frames`. -/
theorem image_add_drop (frames : List FrameState) (s : Nat) :
    (s + ·) '' {k | (frames.drop s)[k]? = some .free} = {j | s ≤ j ∧ frames[j]? = some .free} := by
  ext j
  simp only [Set.mem_image, Set.mem_ofPred_eq, List.getElem?_drop]
  constructor
  · rintro ⟨k, hk, rfl⟩
    exact ⟨by omega, hk⟩
  · rintro ⟨hj, hfree⟩
    exact ⟨j - s, by rwa [Nat.add_sub_cancel' hj], by omega⟩

/-- The loop of `find_first_free_internal` from region `i` on finds the first free frame from
    region `i` on. -/
theorem firstFreeFrom_isFirst (regions : List MemoryRegion) :
    ∀ (i : Nat) (rs : List MemoryRegion), regions.drop i = rs →
      IsFirst (Set.Ici ⟨i, 0⟩ ∩ FreeAt regions) (firstFreeFrom i rs)
  | i, [], h => by
    rw [firstFreeFrom, IsFirst.none_iff, Set.eq_empty_iff_forall_notMem]
    rintro loc ⟨hle, hfree⟩
    have hlen : regions.length ≤ i := List.drop_eq_nil_iff.1 h
    rw [Set.mem_Ici, RegionFrameIndex.le_iff] at hle
    have hnone : stateAt regions loc = none := stateAt_of_length_le (by simp only at hle; omega)
    simp [FreeAt, hnone] at hfree
  | i, r :: rest, h => by
    have hrow : {j | 0 ≤ j ∧ (⟨i, j⟩ : RegionFrameIndex) ∈ FreeAt regions} =
        {j | r.frames[j]? = some .free} := by
      ext j
      simp [FreeAt, stateAt_of_getElem? (getElem?_of_drop_eq_cons h)]
    have hpos := positionFree_isFirst r.frames
    rw [← hrow] at hpos
    unfold firstFreeFrom
    cases hp : positionFree r.frames with
    | some j =>
      rw [hp] at hpos
      exact isFirst_Ici_some hpos
    | none =>
      rw [hp] at hpos
      exact isFirst_Ici_none hpos
        (firstFreeFrom_isFirst regions (i + 1) rest (drop_succ_of_drop_eq_cons h))

/-- `find_first_free_internal` finds the first free frame. -/
theorem findFirstFreeInternal_isFirst (regions : List MemoryRegion) :
    IsFirst (FreeAt regions) (findFirstFreeInternal regions) := by
  have h := firstFreeFrom_isFirst regions 0 regions List.drop_zero
  rwa [Ici_zero_eq_univ, Set.univ_inter] at h

end States

namespace PhysicalMemoryManager

/-- The first `if let` of `update_first_free` finds the first free frame of region `i` from
    frame `s` on. -/
theorem firstFreeInRegion_isFirst (regions : List MemoryRegion) (i s : Nat) :
    IsFirst {j | s ≤ j ∧ (⟨i, j⟩ : RegionFrameIndex) ∈ FreeAt regions}
      (firstFreeInRegion regions i s) := by
  unfold firstFreeInRegion
  cases hr : regions[i]? with
  | none =>
    -- no region `i`
    simp only [IsFirst.none_iff]
    ext j
    simp [FreeAt, stateAt, hr]
  | some r =>
    have hrow : {j | s ≤ j ∧ (⟨i, j⟩ : RegionFrameIndex) ∈ FreeAt regions} =
        {j | s ≤ j ∧ r.frames[j]? = some .free} := by
      ext j
      simp [FreeAt, stateAt_of_getElem? hr]
    rw [hrow]
    dsimp only
    split_ifs with hs
    · rw [← image_add_drop]
      exact IsFirst.image (Monotone.const_add monotone_id s) (positionFree_isFirst (r.frames.drop s))
    · -- `start_index` is past the region
      rw [IsFirst.none_iff, Set.eq_empty_iff_forall_notMem]
      rintro j ⟨hj, hfree⟩
      have := (List.getElem?_eq_some_iff.1 hfree).1
      omega

@[simp] theorem regions_updateFirstFree (m : PhysicalMemoryManager) (i s : Nat) :
    (m.updateFirstFree i s).regions = m.regions := by
  unfold updateFirstFree
  split <;> rfl

/-- `update_first_free(i, s)` finds the first free frame from frame `s` of region `i` on. -/
theorem updateFirstFree_isFirst (m : PhysicalMemoryManager) (i s : Nat) :
    IsFirst (Set.Ici ⟨i, s⟩ ∩ FreeAt m.regions) (m.updateFirstFree i s).firstFree := by
  have hrow := firstFreeInRegion_isFirst m.regions i s
  unfold updateFirstFree
  cases h : firstFreeInRegion m.regions i s with
  | some j =>
    rw [h] at hrow
    exact isFirst_Ici_some hrow
  | none =>
    rw [h] at hrow
    exact isFirst_Ici_none hrow (firstFreeFrom_isFirst m.regions (i + 1) _ rfl)

-- ---------------------------------------------------------------------------
-- The invariant, and the frees
-- ---------------------------------------------------------------------------

/-- The regions as `init_stage2` builds them from limine's memory map: each starts on a 4 KiB
    boundary, and its frames lie below `2 ^ 52`, where physical addresses end. -/
def RegionsOk (regions : List MemoryRegion) : Prop :=
  ∀ r ∈ regions, r.baseAddr % FRAME_SIZE = 0 ∧ r.baseAddr + r.frames.length * FRAME_SIZE ≤ 2 ^ 52

instance : DecidablePred RegionsOk := fun _ => inferInstanceAs (Decidable (∀ r ∈ _, _))

/-- A change to one region that keeps its base and its number of frames keeps the regions as
    they were built. -/
theorem RegionsOk.modify {regions : List MemoryRegion} (h : RegionsOk regions)
    {f : MemoryRegion → MemoryRegion}
    (hf : ∀ r, (f r).baseAddr = r.baseAddr ∧ (f r).frames.length = r.frames.length) (i : Nat) :
    RegionsOk (regions.modify i f) := by
  intro r' hr'
  obtain ⟨k, hk⟩ := List.mem_iff_getElem?.1 hr'
  rw [List.getElem?_modify] at hk
  obtain ⟨r, hr, hr'⟩ : ∃ r, regions[k]? = some r ∧ (if i = k then f r else r) = r' := by
    cases hrk : regions[k]? <;> simp_all
  have hmem := h r (List.mem_of_getElem? hr)
  subst hr'
  split_ifs
  · rw [(hf r).1, (hf r).2]
    exact hmem
  · exact hmem

/-- What the manager keeps true from one call to the next. -/
structure Wf (m : PhysicalMemoryManager) : Prop where
  regions_ok : RegionsOk m.regions
  /-- `first_free` is the first free frame, and `None` only when no frame is free. -/
  firstFree_isFirst : IsFirst (FreeAt m.regions) m.firstFree

theorem Wf.new {regions : List MemoryRegion} (h : RegionsOk regions) : (new regions).Wf :=
  ⟨h, findFirstFreeInternal_isFirst regions⟩

/-- Freeing an allocated frame adds it to the free frames and changes no other frame. -/
theorem freeAt_setFrame {regions : List MemoryRegion} {loc : RegionFrameIndex}
    (h : stateAt regions loc = some .allocated) :
    FreeAt (regions.modify loc.regionIdx (·.setFrame loc.frameIdx .free)) =
      insert loc (FreeAt regions) := by
  obtain ⟨r, hr, hget⟩ : ∃ r, regions[loc.regionIdx]? = some r ∧
      r.frames[loc.frameIdx]? = some .allocated := by
    unfold stateAt at h
    cases hr : regions[loc.regionIdx]? <;> simp_all
  have hlt : loc.frameIdx < r.frames.length := (List.getElem?_eq_some_iff.1 hget).1
  ext ⟨i, j⟩
  simp only [FreeAt, Set.mem_ofPred_eq, Set.mem_insert_iff, stateAt_modify]
  split_ifs with hi
  · -- the region of the freed frame
    subst hi
    rw [hr, Option.bind_some, stateAt_of_getElem? hr]
    by_cases hj : loc.frameIdx = j
    · subst hj
      simp [MemoryRegion.setFrame, hlt]
    · have hne : (⟨loc.regionIdx, j⟩ : RegionFrameIndex) ≠ loc := fun heq => hj (by rw [← heq])
      simp [MemoryRegion.setFrame, hj, hne]
  · have hne : (⟨i, j⟩ : RegionFrameIndex) ≠ loc := fun heq => hi (by rw [← heq])
    simp [hne]

/-- The comparison `deallocate_frame` makes with `first_free` is the order of positions. -/
theorem isBeforeFirstFree_eq (loc ff : RegionFrameIndex) :
    (loc.regionIdx < ff.regionIdx || (loc.regionIdx == ff.regionIdx && loc.frameIdx < ff.frameIdx)) =
      decide (loc < ff) := by
  rw [Bool.eq_iff_iff]
  simp [RegionFrameIndex.lt_iff]

/-- What `deallocate_frame` does: nothing, or free an allocated frame and move `first_free` back
    to it when it comes first. -/
theorem deallocateFrame_cases (m : PhysicalMemoryManager) (addr : Nat) :
    m.deallocateFrame addr = (none, m) ∨
      ∃ loc, stateAt m.regions loc = some .allocated ∧
        m.deallocateFrame addr = (some addr,
          { regions := m.regions.modify loc.regionIdx (·.setFrame loc.frameIdx .free),
            firstFree := some (m.firstFree.elim loc (min loc)) }) := by
  unfold deallocateFrame
  split
  · exact .inl rfl
  · rename_i loc _
    split_ifs with hloc
    · refine .inr ⟨loc, hloc, ?_⟩
      cases hff : m.firstFree with
      | none => simp
      | some ff =>
        simp only [isBeforeFirstFree_eq, Option.elim_some]
        by_cases hlt : loc < ff
        · simp [hlt, min_eq_left hlt.le]
        · simp [hlt, min_eq_right (le_of_not_gt hlt)]
    · exact .inl rfl

/-- `deallocate_frame` keeps `first_free` the first free frame. -/
theorem isFirst_deallocateFrame {m : PhysicalMemoryManager}
    (hff : IsFirst (FreeAt m.regions) m.firstFree) (addr : Nat) :
    IsFirst (FreeAt (m.deallocateFrame addr).2.regions) (m.deallocateFrame addr).2.firstFree := by
  rcases deallocateFrame_cases m addr with h | ⟨loc, hloc, h⟩
  · rw [h]
    exact hff
  · rw [h]
    simp only [freeAt_setFrame hloc, IsFirst.some_iff]
    cases hfirst : m.firstFree with
    | none =>
      rw [hfirst, IsFirst.none_iff] at hff
      simp [hff]
    | some ff =>
      rw [hfirst] at hff
      exact hff.insert loc

/-- `deallocate_frame` keeps the invariant. -/
theorem Wf.deallocateFrame {m : PhysicalMemoryManager} (hm : m.Wf) (addr : Nat) :
    (m.deallocateFrame addr).2.Wf := by
  refine ⟨?_, isFirst_deallocateFrame hm.firstFree_isFirst addr⟩
  rcases deallocateFrame_cases m addr with h | ⟨loc, -, h⟩
  · rw [h]
    exact hm.regions_ok
  · rw [h]
    refine hm.regions_ok.modify ?_ _
    intro r
    exact ⟨rfl, by simp⟩

section Loops

/-! The frees of large frames and of ranges are loops of smaller frees that stop at the first
    one refused. Each keeps whatever every free it makes keeps, wherever it stops. -/

variable {P : PhysicalMemoryManager → Prop}
  {free : PhysicalMemoryManager → Nat → Option Nat × PhysicalMemoryManager}

theorem deallocateEach_preserves (hfree : ∀ m addr, P m → P (free m addr).2) :
    ∀ {m : PhysicalMemoryManager} (frames : List Nat), P m → P (deallocateEach free m frames).2
  | m, [], hm => hm
  | m, frame :: frames, hm => by
    have h1 := hfree m frame hm
    unfold PhysicalMemoryManager.deallocateEach
    rcases hf : free m frame with ⟨_ | _, m'⟩
    · rw [hf] at h1
      exact h1
    · rw [hf] at h1
      exact deallocateEach_preserves hfree frames h1

theorem deallocateRange_preserves (hfree : ∀ m addr, P m → P (free m addr).2) :
    ∀ (res : Option (Nat × Nat)) {m : PhysicalMemoryManager} (frames : List Nat), P m →
      P (deallocateRange free res m frames).2
  | res, m, [], hm => hm
  | res, m, frame :: frames, hm => by
    have h1 := hfree m frame hm
    unfold PhysicalMemoryManager.deallocateRange
    rcases hf : free m frame with ⟨_ | _, m'⟩
    · rw [hf] at h1
      exact h1
    · rw [hf] at h1
      exact deallocateRange_preserves hfree _ frames h1

@[simp] theorem snd_deallocateFrame2MiB (m : PhysicalMemoryManager) (addr : Nat) :
    (m.deallocateFrame2MiB addr).2 = (deallocateEach deallocateFrame m (constituents addr 0x1000 512)).2 := by
  unfold deallocateFrame2MiB
  split <;> rename_i h <;> rw [h]

@[simp] theorem snd_deallocateFrame1GiB (m : PhysicalMemoryManager) (addr : Nat) :
    (m.deallocateFrame1GiB addr).2 =
      (deallocateEach deallocateFrame2MiB m (constituents addr 0x20_0000 512)).2 := by
  unfold deallocateFrame1GiB
  split <;> rename_i h <;> rw [h]

/-- The free of a frame of any page size keeps what the free of a 4 KiB frame keeps. -/
theorem deallocateFrameOf_preserves (h4 : ∀ m addr, P m → P (m.deallocateFrame addr).2)
    (S : PageSize) (m : PhysicalMemoryManager) (addr : Nat) (hm : P m) :
    P (deallocateFrameOf S m addr).2 := by
  have h2 : ∀ m addr, P m → P (m.deallocateFrame2MiB addr).2 := by
    intro m addr hm
    rw [snd_deallocateFrame2MiB]
    exact deallocateEach_preserves h4 _ hm
  cases S
  · exact h4 m addr hm
  · exact h2 m addr hm
  · rw [deallocateFrameOf, snd_deallocateFrame1GiB]
    exact deallocateEach_preserves h2 _ hm

/-- The range free keeps what the free of a 4 KiB frame keeps. -/
theorem deallocateFrames_preserves (h4 : ∀ m addr, P m → P (m.deallocateFrame addr).2)
    (S : PageSize) (m : PhysicalMemoryManager) (start stop : Nat) (hm : P m) :
    P (deallocateFrames S m start stop).2 :=
  deallocateRange_preserves (deallocateFrameOf_preserves h4 S) _ _ hm

end Loops

/-- A loop of frees keeps the invariant when each free does, wherever it stops. -/
theorem Wf.deallocateEach {free : PhysicalMemoryManager → Nat → Option Nat × PhysicalMemoryManager}
    (hfree : ∀ m addr, m.Wf → (free m addr).2.Wf) {m : PhysicalMemoryManager} (frames : List Nat)
    (hm : m.Wf) : (deallocateEach free m frames).2.Wf :=
  deallocateEach_preserves hfree frames hm

/-- A loop of frees that is refused a frame stops there with the frees before it done: the
    loop is not atomic. -/
theorem deallocateEach_eq_none
    {free : PhysicalMemoryManager → Nat → Option Nat × PhysicalMemoryManager} :
    ∀ {m m' : PhysicalMemoryManager} {frames : List Nat},
      deallocateEach free m frames = (none, m') →
      ∃ k m₀, ∃ hk : k < frames.length,
        deallocateEach free m (frames.take k) = (some (), m₀) ∧ free m₀ frames[k] = (none, m')
  | m, m', [], h => by
    simp [PhysicalMemoryManager.deallocateEach] at h
  | m, m', frame :: frames, h => by
    unfold PhysicalMemoryManager.deallocateEach at h
    rcases hf : free m frame with ⟨_ | _, m₁⟩
    · -- the first frame is refused
      rw [hf] at h
      cases h
      exact ⟨0, m, by simp, rfl, hf⟩
    · rw [hf] at h
      obtain ⟨k, m₀, hk, hdone, hrefused⟩ := deallocateEach_eq_none h
      refine ⟨k + 1, m₀, by simpa using hk, ?_, hrefused⟩
      simp only [List.take_succ_cons, PhysicalMemoryManager.deallocateEach, hf]
      exact hdone

theorem Wf.deallocateFrame2MiB {m : PhysicalMemoryManager} (hm : m.Wf) (addr : Nat) :
    (m.deallocateFrame2MiB addr).2.Wf :=
  deallocateFrameOf_preserves (fun _ addr hm => hm.deallocateFrame addr) .size2MiB m addr hm

theorem Wf.deallocateFrame1GiB {m : PhysicalMemoryManager} (hm : m.Wf) (addr : Nat) :
    (m.deallocateFrame1GiB addr).2.Wf :=
  deallocateFrameOf_preserves (fun _ addr hm => hm.deallocateFrame addr) .size1GiB m addr hm

/-- `deallocate_frame` keeps the invariant at every page size. -/
theorem Wf.deallocateFrameOf {m : PhysicalMemoryManager} (hm : m.Wf) (S : PageSize) (addr : Nat) :
    (deallocateFrameOf S m addr).2.Wf :=
  deallocateFrameOf_preserves (fun _ addr hm => hm.deallocateFrame addr) S m addr hm

/-- The range free keeps the invariant, wherever it stops. -/
theorem Wf.deallocateRange {free : PhysicalMemoryManager → Nat → Option Nat × PhysicalMemoryManager}
    (hfree : ∀ m addr, m.Wf → (free m addr).2.Wf) (res : Option (Nat × Nat))
    {m : PhysicalMemoryManager} (frames : List Nat) (hm : m.Wf) :
    (deallocateRange free res m frames).2.Wf :=
  deallocateRange_preserves hfree res frames hm

theorem Wf.deallocateFrames {m : PhysicalMemoryManager} (hm : m.Wf) (S : PageSize) (start stop : Nat) :
    (deallocateFrames S m start stop).2.Wf :=
  deallocateFrames_preserves (fun _ addr hm => hm.deallocateFrame addr) S m start stop hm

end PhysicalMemoryManager

end Muffin.PhysicalMemory
