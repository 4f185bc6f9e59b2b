-- SUMMARY: What `allocate_frames_impl::<S>(n)` does on every state the manager can reach: it hands out the first position, in (region, frame) order, where `n` pages of size `S` fit, allocates exactly their frames and keeps `first_free` the first free frame, over every run of calls on any regions; the panic on `n = 0`, and the frees that stop half way.
import Muffin.PhysicalMemory.Search
import Muffin.Lib.EStateM

/-!
# Allocation

`takeRun` is the part of `allocate_frames_impl` after the search: once the search
has found a run of free frames, its arithmetic and its `expect` calls succeed, it
allocates exactly the frames of the run, and it moves `first_free` past them when
the run started at `first_free` (`takeRun_eq`). With the search lemmas this gives
the whole call (`allocateFramesImpl_cases`): for `n ≥ 1`, the first position where
the frames fit is handed out, and `None` comes back only when there is none.

The states of the manager are those `new` builds from the regions of
`init_stage2`, followed by any calls (`Reachable`); the invariant `Wf` holds on all
of them (`Reachable.wf`). The frames of the regions have to lie below `2 ^ 52`:
above it, `PhysAddr::new` panics on the address of a run the search finds.

That `first_free` is the first free frame needs none of this. A call that
returns either changes nothing or takes a run of free frames that the search
found (`allocateFramesImpl_eq_ok`), and the run's first frame comes at or after
`first_free`, so on any regions every run of calls keeps `first_free` where it
belongs (`runCalls_firstFree_isLeast`).
-/

namespace Muffin.PhysicalMemory

open Rust
open Muffin.Mem (MemoryRegion FrameState FRAME_SIZE)
open Set (IsFirst)

namespace PhysicalMemoryManager

/-- The manager `takeRun` leaves after handing out the `count` frames from frame `c` of
    region `i`: the frames allocated, and `first_free` moved past them when it pointed into
    the run. -/
def afterTake (m : PhysicalMemoryManager) (ff : RegionFrameIndex) (i c count : Nat) :
    PhysicalMemoryManager :=
  let m' := { m with regions := m.regions.modify i (·.fill c (c + count - 1) .allocated) }
  if i = ff.regionIdx ∧ c ≤ ff.frameIdx then m'.updateFirstFree i (c + count) else m'

@[simp] theorem regions_afterTake (m : PhysicalMemoryManager) (ff : RegionFrameIndex) (i c count : Nat) :
    (m.afterTake ff i c count).regions =
      m.regions.modify i (·.fill c (c + count - 1) .allocated) := by
  unfold afterTake
  split_ifs <;> simp

theorem frameFromStartAddress_of {S : PageSize} {addr : Nat} (hlt : addr < 2 ^ 52)
    (haligned : addr % S.SIZE = 0) : frameFromStartAddress S addr = .ok addr := by
  unfold frameFromStartAddress
  rw [if_pos hlt, if_pos haligned]

/-- Every region of the kernel's manager has fewer than `2 ^ 40` frames. -/
theorem length_le_of_regionsOk {regions : List MemoryRegion} (hok : RegionsOk regions)
    {r : MemoryRegion} (hr : r ∈ regions) : r.frames.length ≤ 2 ^ 40 := by
  have := (hok r hr).2
  unfold FRAME_SIZE at this
  omega

/-- Once the search has found a run, `takeRun` hands out its first and last page, whose addresses
    are `S`-aligned and a whole number of pages apart, and allocates the run. -/
theorem takeRun_eq {S : PageSize} {m : PhysicalMemoryManager} {ff : RegionFrameIndex}
    {n count i c : Nat} {r : MemoryRegion} (hok : RegionsOk m.regions) (hr : m.regions[i]? = some r)
    (hn : 1 ≤ n) (hcount : count = n * S.smallFramesPerFrame)
    (haligned : (r.baseAddr + c * FRAME_SIZE) % S.SIZE = 0) (hrun : RunFree r c count) :
    takeRun S m ff n count i c =
      .ok (some (r.baseAddr + c * FRAME_SIZE, r.baseAddr + c * FRAME_SIZE + (n - 1) * S.SIZE),
        m.afterTake ff i c count) := by
  obtain ⟨hbase, hbelow⟩ := hok r (List.mem_of_getElem? hr)
  have hfpp := S.smallFramesPerFrame_pos
  -- the run's pages: `n - 1` pages after the first one, which ends the run
  have hsplit : (n - 1) * S.smallFramesPerFrame + S.smallFramesPerFrame = count := by
    rw [hcount, ← Nat.succ_mul, Nat.succ_eq_add_one, Nat.sub_add_cancel hn]
  have hsize : (n - 1) * S.SIZE = (n - 1) * S.smallFramesPerFrame * FRAME_SIZE := by
    rw [S.SIZE_eq, Nat.mul_assoc]
  have hlen := hrun.1
  have hU : U64_LIMIT = 2 ^ 64 := rfl
  unfold FRAME_SIZE at hbelow hsize
  have hend : r.baseAddr + (c + (n - 1) * S.smallFramesPerFrame) * FRAME_SIZE =
      r.baseAddr + c * FRAME_SIZE + (n - 1) * S.SIZE := by
    rw [hsize, Nat.add_mul, FRAME_SIZE, Nat.add_assoc]
  unfold takeRun
  simp only [hr, checkedSub_of_le (show 1 ≤ c + count by omega),
    MemoryRegion.frameAddress_of_lt (show c < r.frames.length by omega), expect,
    checkedSub_of_le hn, checkedMul_of_lt (show (n - 1) * S.smallFramesPerFrame < U64_LIMIT by omega),
    checkedAdd_of_lt (show c + (n - 1) * S.smallFramesPerFrame < U64_LIMIT by omega),
    MemoryRegion.frameAddress_of_lt (show c + (n - 1) * S.smallFramesPerFrame < r.frames.length by omega),
    Nat.sub_add_cancel (show 1 ≤ c + count by omega), hend, bind, Except.bind]
  rw [frameFromStartAddress_of (by unfold FRAME_SIZE; omega) haligned,
    frameFromStartAddress_of (by unfold FRAME_SIZE; omega)
      (by rw [Nat.add_mul_mod_self_right]; exact haligned)]
  rfl

-- ---------------------------------------------------------------------------
-- The whole call
-- ---------------------------------------------------------------------------

/-- Where `count ≥ 1` frames fit, the first of them is free. -/
theorem fits_subset_freeAt {S : PageSize} {count : Nat} {regions : List MemoryRegion}
    (hcount : 0 < count) : Fits S count regions ⊆ FreeAt regions := by
  rintro ⟨i, c⟩ ⟨r, hr, -, -, hfree⟩
  have hc := hfree 0 hcount
  rw [Nat.add_zero] at hc
  simp [FreeAt, stateAt_of_getElem? hr, hc]

/-- Searching from the first free frame misses no position where frames fit. -/
theorem Ici_inter_fits {S : PageSize} {count : Nat} {regions : List MemoryRegion}
    {ff : RegionFrameIndex} (hcount : 0 < count) (hff : IsLeast (FreeAt regions) ff) :
    Set.Ici ff ∩ Fits S count regions = Fits S count regions :=
  Set.inter_eq_right.2 fun _ hloc => hff.2 (fits_subset_freeAt hcount hloc)

/-- More frames than a region of the kernel's manager can have fit nowhere. -/
theorem fits_eq_empty {S : PageSize} {count : Nat} {regions : List MemoryRegion}
    (hok : RegionsOk regions) (hcount : 2 ^ 40 < count) : Fits S count regions = ∅ := by
  rw [Set.eq_empty_iff_forall_notMem]
  rintro ⟨i, c⟩ ⟨r, hr, -, hlen, -⟩
  have := length_le_of_regionsOk hok (List.mem_of_getElem? hr)
  simp only at hlen
  omega

/-- What `allocate_frames_impl::<S>(n)` does for `n ≥ 1` pages whose number of 4 KiB frames fits
    in a `usize`. Where they fit, it hands out the first position where they do and leaves
    `afterTake`. Where they fit nowhere, it returns `None` and changes nothing, or panics on the
    overflow of the loop condition, which takes more frames than any region has. -/
theorem allocateFramesImpl_cases {S : PageSize} {m : PhysicalMemoryManager} {n : Nat} (hm : m.Wf)
    (hn : 1 ≤ n) (hcount : n * S.smallFramesPerFrame < U64_LIMIT) :
    (Fits S (n * S.smallFramesPerFrame) m.regions = ∅ ∧
      (allocateFramesImpl S m n = .ok (none, m) ∨
        allocateFramesImpl S m n = .error ⟨"attempt to add with overflow"⟩)) ∨
    ∃ ff i c r, m.firstFree = some ff ∧
      IsLeast (Fits S (n * S.smallFramesPerFrame) m.regions) ⟨i, c⟩ ∧ m.regions[i]? = some r ∧
      allocateFramesImpl S m n =
        .ok (some (r.baseAddr + c * FRAME_SIZE, r.baseAddr + c * FRAME_SIZE + (n - 1) * S.SIZE),
          m.afterTake ff i c (n * S.smallFramesPerFrame)) := by
  have hpos : 0 < n * S.smallFramesPerFrame := Nat.mul_pos hn S.smallFramesPerFrame_pos
  have hff := hm.firstFree_isFirst
  unfold allocateFramesImpl
  rw [checkedMul_of_lt hcount]
  dsimp only
  cases hfirst : m.firstFree with
  | none =>
    -- no frame is free, so no run is
    rw [hfirst, IsFirst.none_iff] at hff
    exact .inl ⟨Set.eq_empty_of_subset_empty (hff ▸ fits_subset_freeAt hpos), .inl rfl⟩
  | some ff =>
    rw [hfirst, IsFirst.some_iff] at hff
    dsimp only
    by_cases hsmall : n * S.smallFramesPerFrame ≤ 2 ^ 40
    · -- no sum overflows, and the search finds the first position where the frames fit
      have hregions : ∀ r ∈ m.regions, r.baseAddr % FRAME_SIZE = 0 ∧
          r.frames.length + S.smallFramesPerFrame + n * S.smallFramesPerFrame < U64_LIMIT := by
        intro r hr
        have hlen := length_le_of_regionsOk hm.regions_ok hr
        have hfpp := S.smallFramesPerFrame_le
        exact ⟨(hm.regions_ok r hr).1, by unfold U64_LIMIT; omega⟩
      obtain ⟨o, hsearch, hrow⟩ := searchRegions_isFirst hpos hregions ff.regionIdx _ rfl le_rfl
      rw [if_pos rfl, Ici_inter_fits hpos hff] at hrow
      rw [hsearch]
      cases o with
      | none => exact .inl ⟨hrow, .inl rfl⟩
      | some p =>
        obtain ⟨i, c⟩ := p
        obtain ⟨r, hr, haligned, hrun⟩ := hrow.1
        exact .inr ⟨ff, i, c, r, rfl, hrow, hr, takeRun_eq hm.regions_ok hr hn rfl haligned hrun⟩
    · -- more frames than any region has: nothing fits, and the search cannot return a run
      refine .inl ⟨fits_eq_empty hm.regions_ok (by omega), ?_⟩
      cases hsearch : searchRegions S (n * S.smallFramesPerFrame) ff ff.regionIdx
          (m.regions.drop ff.regionIdx) with
      | error p => exact .inr (by rw [searchRegions_eq_error hsearch]; rfl)
      | ok o =>
        cases o with
        | none => exact .inl rfl
        | some p =>
          obtain ⟨r, hr, hrun⟩ := searchRegions_eq_some rfl hsearch
          have := length_le_of_regionsOk hm.regions_ok (List.mem_of_getElem? hr)
          have := hrun.1
          omega

-- ---------------------------------------------------------------------------
-- The frames after an allocation
-- ---------------------------------------------------------------------------

/-- Filling frames `[c, e]` of region `i` with `allocated` changes those frames and no other. -/
theorem stateAt_modify_fill (regions : List MemoryRegion) (i c e : Nat) (loc : RegionFrameIndex) :
    stateAt (regions.modify i (·.fill c e .allocated)) loc =
      if loc.regionIdx = i ∧ c ≤ loc.frameIdx ∧ loc.frameIdx ≤ e then
        (stateAt regions loc).map fun _ => .allocated
      else stateAt regions loc := by
  obtain ⟨li, j⟩ := loc
  rw [stateAt_modify]
  dsimp only
  by_cases hi : i = li
  · subst hi
    rw [if_pos rfl]
    cases hr : regions[i]? with
    | none => simp [stateAt, hr]
    | some r =>
      simp only [Option.bind_some, MemoryRegion.getElem?_fill, stateAt_of_getElem? hr]
      by_cases hrun : c ≤ j ∧ j ≤ e
      · simp [hrun]
      · simp [hrun]
  · have hne : ¬ (li = i ∧ c ≤ j ∧ j ≤ e) := fun h => hi h.1.symm
    rw [if_neg hi, if_neg hne]

/-- The free frames after a fill are those before it outside the filled frames. -/
theorem freeAt_modify_fill (regions : List MemoryRegion) (i c e : Nat) :
    FreeAt (regions.modify i (·.fill c e .allocated)) =
      FreeAt regions \ {loc | loc.regionIdx = i ∧ c ≤ loc.frameIdx ∧ loc.frameIdx ≤ e} := by
  ext loc
  simp only [FreeAt, Set.mem_sdiff, Set.mem_ofPred_eq, stateAt_modify_fill]
  split_ifs with hrun
  · cases stateAt regions loc <;> simp [hrun]
  · simp [hrun]

/-- `afterTake` keeps `first_free` the first free frame: the run is allocated, and `first_free` is
    moved past the run when the run started there. -/
theorem isFirst_afterTake {m : PhysicalMemoryManager} {ff : RegionFrameIndex} {i c count : Nat}
    {r : MemoryRegion} (hfirst : IsFirst (FreeAt m.regions) m.firstFree) (hff : m.firstFree = some ff)
    (hr : m.regions[i]? = some r) (hcount : 0 < count) (hrun : RunFree r c count) :
    IsFirst (FreeAt (m.afterTake ff i c count).regions) (m.afterTake ff i c count).firstFree := by
  rw [hff, IsFirst.some_iff] at hfirst
  -- the first frame of the run was free, so it comes at or after `first_free`
  have hc : ff ≤ ⟨i, c⟩ := hfirst.2 (by
    have h0 := hrun.2 0 hcount
    rw [Nat.add_zero] at h0
    simp [FreeAt, stateAt_of_getElem? hr, h0])
  have hfree := freeAt_modify_fill m.regions i c (c + count - 1)
  unfold PhysicalMemoryManager.afterTake
  split_ifs with hstart
  · -- the run started at `first_free`: every free frame left comes after the run
    have hnext := updateFirstFree_isFirst
      { m with regions := m.regions.modify i (·.fill c (c + count - 1) .allocated) } i (c + count)
    rw [regions_updateFirstFree]
    rwa [Set.inter_eq_right.2] at hnext
    intro loc hloc
    rw [hfree] at hloc
    obtain ⟨hold, hout⟩ := hloc
    have hle := hfirst.2 hold
    rw [RegionFrameIndex.le_iff] at hc hle
    rw [Set.mem_Ici, RegionFrameIndex.le_iff]
    simp only [Set.mem_ofPred_eq, not_and, not_le] at hout ⊢
    omega
  · -- `first_free` lies before the run and stays free
    dsimp only
    rw [hff, IsFirst.some_iff, hfree]
    refine ⟨⟨hfirst.1, ?_⟩, fun loc hloc => hfirst.2 hloc.1⟩
    simp only [Set.mem_ofPred_eq]
    rw [RegionFrameIndex.le_iff] at hc
    simp only at hc
    omega

/-- `afterTake` keeps the invariant. -/
theorem Wf.afterTake {m : PhysicalMemoryManager} {ff : RegionFrameIndex} {i c count : Nat}
    {r : MemoryRegion} (hm : m.Wf) (hff : m.firstFree = some ff) (hr : m.regions[i]? = some r)
    (hcount : 0 < count) (hrun : RunFree r c count) : (m.afterTake ff i c count).Wf := by
  refine ⟨?_, isFirst_afterTake hm.firstFree_isFirst hff hr hcount hrun⟩
  rw [regions_afterTake]
  refine hm.regions_ok.modify ?_ _
  intro r
  exact ⟨rfl, by simp⟩

-- ---------------------------------------------------------------------------
-- The states of the manager
-- ---------------------------------------------------------------------------

/-- With no more than `2 ^ 64` frames asked for, `allocate_frames_impl` panics on the first line. -/
theorem allocateFramesImpl_of_overflow (S : PageSize) (m : PhysicalMemoryManager) {n : Nat}
    (h : U64_LIMIT ≤ n * S.smallFramesPerFrame) :
    allocateFramesImpl S m n = .error ⟨"attempt to multiply with overflow"⟩ := by
  unfold allocateFramesImpl checkedMul
  rw [if_neg (by omega)]
  rfl

/-- A `takeRun` that returns has passed `n - 1` and leaves `afterTake`. -/
theorem takeRun_eq_ok {S : PageSize} {m m' : PhysicalMemoryManager} {ff : RegionFrameIndex}
    {n count i c : Nat} {o : Option (Nat × Nat)} (h : takeRun S m ff n count i c = .ok (o, m')) :
    1 ≤ n ∧ m' = m.afterTake ff i c count := by
  unfold takeRun at h
  -- every `let some` that fails throws; the state is built once all have passed
  cases hr : m.regions[i]? with
  | none => simp [hr] at h
  | some r =>
    cases he : checkedSub (c + count) 1 with
    | none => simp [hr, he] at h
    | some e =>
      simp only [hr, he] at h
      obtain ⟨_, -, h⟩ := Except.bind_eq_ok.1 h
      cases hp : checkedSub n 1 with
      | none => simp [hp] at h
      | some p =>
        cases hoff : checkedMul p S.smallFramesPerFrame with
        | none => simp [hp, hoff] at h
        | some off =>
          cases hlast : checkedAdd c off with
          | none => simp [hp, hoff, hlast] at h
          | some last =>
            simp only [hp, hoff, hlast] at h
            obtain ⟨_, -, h⟩ := Except.bind_eq_ok.1 h
            obtain ⟨_, -, h⟩ := Except.bind_eq_ok.1 h
            obtain ⟨_, -, h⟩ := Except.bind_eq_ok.1 h
            cases h
            have hn : 1 ≤ n := by
              unfold checkedSub at hp
              split_ifs at hp with h1
              exact h1
            have hend : e = c + count - 1 ∧ 1 ≤ c + count := by
              unfold checkedSub at he
              split_ifs at he with h1
              cases he
              exact ⟨rfl, h1⟩
            obtain ⟨rfl, hle⟩ := hend
            refine ⟨hn, ?_⟩
            unfold afterTake
            rw [Nat.sub_add_cancel hle]

/-- What a call of `allocate_frames_impl` that returns leaves, whatever the regions: the manager
    as it was, or the manager after taking a run of free frames that the search found, for at
    least one page. -/
theorem allocateFramesImpl_eq_ok {S : PageSize} {m m' : PhysicalMemoryManager} {n : Nat}
    {o : Option (Nat × Nat)} (h : allocateFramesImpl S m n = .ok (o, m')) :
    m' = m ∨ ∃ ff i c r, m.firstFree = some ff ∧ m.regions[i]? = some r ∧ 1 ≤ n ∧
      RunFree r c (n * S.smallFramesPerFrame) ∧
      m' = m.afterTake ff i c (n * S.smallFramesPerFrame) := by
  unfold allocateFramesImpl at h
  cases hmul : checkedMul n S.smallFramesPerFrame with
  | none => simp [hmul] at h
  | some count =>
    obtain rfl : count = n * S.smallFramesPerFrame := by
      unfold checkedMul at hmul
      split_ifs at hmul
      cases hmul
      rfl
    simp only [hmul] at h
    cases hff : m.firstFree with
    | none =>
      simp only [hff] at h
      cases h
      exact .inl rfl
    | some ff =>
      simp only [hff] at h
      obtain ⟨res, hsearch, h⟩ := Except.bind_eq_ok.1 h
      cases res with
      | none =>
        cases h
        exact .inl rfl
      | some p =>
        obtain ⟨i, c⟩ := p
        obtain ⟨r, hr, hrun⟩ := searchRegions_eq_some rfl hsearch
        obtain ⟨hn, rfl⟩ := takeRun_eq_ok h
        exact .inr ⟨ff, i, c, r, rfl, hr, hn, hrun, rfl⟩

/-- Every call that returns keeps `first_free` the first free frame, whatever the regions. -/
theorem isFirst_allocateFramesImpl {S : PageSize} {m m' : PhysicalMemoryManager} {n : Nat}
    {o : Option (Nat × Nat)} (hff : IsFirst (FreeAt m.regions) m.firstFree)
    (h : allocateFramesImpl S m n = .ok (o, m')) : IsFirst (FreeAt m'.regions) m'.firstFree := by
  rcases allocateFramesImpl_eq_ok h with rfl | ⟨ff, i, c, r, hff', hr, hn, hrun, rfl⟩
  · exact hff
  · exact isFirst_afterTake hff hff' hr (Nat.mul_pos hn S.smallFramesPerFrame_pos) hrun

/-- Every call that returns keeps the invariant. -/
theorem Wf.allocateFramesImpl {S : PageSize} {m m' : PhysicalMemoryManager} {n : Nat}
    {o : Option (Nat × Nat)} (hm : m.Wf) (h : allocateFramesImpl S m n = .ok (o, m')) : m'.Wf := by
  rcases allocateFramesImpl_eq_ok h with rfl | ⟨ff, i, c, r, hff, hr, hn, hrun, rfl⟩
  · exact hm
  · exact hm.afterTake hff hr (Nat.mul_pos hn S.smallFramesPerFrame_pos) hrun

end PhysicalMemoryManager

open PhysicalMemoryManager in
/-- The states the kernel's manager can be in: built by `new` from regions as `init_stage2`
    builds them, then changed by any sequence of calls that return. -/
inductive Reachable : PhysicalMemoryManager → Prop
  | new {regions : List MemoryRegion} : RegionsOk regions → Reachable (new regions)
  | allocate {m m' : PhysicalMemoryManager} {S : PageSize} {n : Nat} {o : Option (Nat × Nat)} :
      Reachable m → allocateFramesImpl S m n = .ok (o, m') → Reachable m'
  | deallocate {m : PhysicalMemoryManager} (S : PageSize) (addr : Nat) :
      Reachable m → Reachable (deallocateFrameOf S m addr).2
  | deallocateRange {m : PhysicalMemoryManager} (S : PageSize) (start stop : Nat) :
      Reachable m → Reachable (deallocateFrames S m start stop).2

/-- The invariant holds on every state the manager can reach. -/
theorem Reachable.wf {m : PhysicalMemoryManager} (h : Reachable m) : m.Wf := by
  induction h with
  | new hok => exact .new hok
  | allocate _ hstep ih => exact ih.allocateFramesImpl hstep
  | deallocate S addr _ ih => exact ih.deallocateFrameOf S addr
  | deallocateRange S start stop _ ih => exact ih.deallocateFrames S start stop

-- ---------------------------------------------------------------------------
-- Runs of calls
-- ---------------------------------------------------------------------------

/-- The calls of `PhysicalFrameAllocator<S>` on the manager: `allocate_frames`, `deallocate_frame`
    and `deallocate_frames`, for a page size `S`. -/
inductive FrameCall where
  | allocateFrames (S : PageSize) (n : Nat)
  | deallocateFrame (S : PageSize) (addr : Nat)
  | deallocateFrames (S : PageSize) (start stop : Nat)
  deriving DecidableEq, Repr

namespace PhysicalMemoryManager

/-- The manager after one call, or the panic of an allocation. -/
def call (m : PhysicalMemoryManager) : FrameCall → Except Panic PhysicalMemoryManager
  | .allocateFrames S n => (allocateFramesImpl S m n).map Prod.snd
  | .deallocateFrame S addr => .ok (deallocateFrameOf S m addr).2
  | .deallocateFrames S start stop => .ok (deallocateFrames S m start stop).2

/-- The manager after a sequence of calls, or the first panic. -/
def runCalls (m : PhysicalMemoryManager) : List FrameCall → Except Panic PhysicalMemoryManager
  | [] => .ok m
  | c :: cs =>
    match m.call c with
    | .ok m' => m'.runCalls cs
    | .error p => .error p

/-- Every call keeps `first_free` the first free frame, on any regions. -/
theorem isFirst_call {m m' : PhysicalMemoryManager} (hff : IsFirst (FreeAt m.regions) m.firstFree)
    {c : FrameCall} (h : m.call c = .ok m') : IsFirst (FreeAt m'.regions) m'.firstFree := by
  cases c with
  | allocateFrames S n =>
    cases ha : allocateFramesImpl S m n with
    | error p => simp [call, ha, Except.map] at h
    | ok res =>
      simp only [call, ha, Except.map, Except.ok.injEq] at h
      subst h
      exact isFirst_allocateFramesImpl hff ha
  | deallocateFrame S addr =>
    cases h
    exact deallocateFrameOf_preserves (P := fun m => IsFirst (FreeAt m.regions) m.firstFree)
      (fun m addr hm => isFirst_deallocateFrame hm addr) S m addr hff
  | deallocateFrames S start stop =>
    cases h
    exact deallocateFrames_preserves (P := fun m => IsFirst (FreeAt m.regions) m.firstFree)
      (fun m addr hm => isFirst_deallocateFrame hm addr) S m start stop hff

/-- Every run of calls keeps `first_free` the first free frame. -/
theorem isFirst_runCalls {m m' : PhysicalMemoryManager}
    (hff : IsFirst (FreeAt m.regions) m.firstFree) {calls : List FrameCall}
    (h : m.runCalls calls = .ok m') : IsFirst (FreeAt m'.regions) m'.firstFree := by
  induction calls generalizing m with
  | nil =>
    cases h
    exact hff
  | cons c cs ih =>
    unfold runCalls at h
    split at h
    · rename_i m₁ h₁
      exact ih (isFirst_call hff h₁) h
    · cases h

end PhysicalMemoryManager

open PhysicalMemoryManager in
/-- Over every run of calls on a manager that `new` built from any regions, with any states of
    their frames, `first_free` is the first free frame in (region, frame) order, and `None`
    exactly when no frame is free. -/
theorem runCalls_firstFree_isLeast (regions : List MemoryRegion) (calls : List FrameCall)
    {m : PhysicalMemoryManager} (hrun : (new regions).runCalls calls = .ok m) :
    (∀ loc, m.firstFree = some loc ↔ IsLeast (FreeAt m.regions) loc) ∧
      (m.firstFree = none ↔ FreeAt m.regions = ∅) := by
  have hff : IsFirst (FreeAt m.regions) m.firstFree :=
    isFirst_runCalls (findFirstFreeInternal_isFirst regions) hrun
  exact ⟨fun _ => hff.eq_some_iff, hff.eq_none_iff⟩

/-- Two regions of four frames: the first with frame 0 allocated and frame 3 unusable, the
    second free. -/
def sampleRegions : List MemoryRegion :=
  [⟨0x1000, [.allocated, .free, .free, .unusable]⟩, ⟨0x10000, List.replicate 4 .free⟩]

/-- Two frames taken from `first_free` on, which moves it to the second region, and the first of
    them freed again, which moves it back. -/
def sampleCalls : List FrameCall := [.allocateFrames .size4KiB 2, .deallocateFrame .size4KiB 0x2000]

theorem sampleCalls_firstFree :
    ∃ m, (PhysicalMemoryManager.new sampleRegions).runCalls sampleCalls = .ok m ∧
      m.firstFree = some ⟨0, 1⟩ ∧
      (∀ loc, m.firstFree = some loc ↔ IsLeast (FreeAt m.regions) loc) ∧
      (m.firstFree = none ↔ FreeAt m.regions = ∅) :=
  ⟨_, rfl, rfl, runCalls_firstFree_isLeast sampleRegions sampleCalls rfl⟩

-- ---------------------------------------------------------------------------
-- What one allocation does
-- ---------------------------------------------------------------------------

/-- The frames of a free run are free. -/
theorem stateAt_of_runFree {regions : List MemoryRegion} {i c count : Nat} {r : MemoryRegion}
    (hr : regions[i]? = some r) (hrun : RunFree r c count) {j : Nat} (hc : c ≤ j)
    (hj : j < c + count) : stateAt regions ⟨i, j⟩ = some .free := by
  have h := hrun.2 (j - c) (by omega)
  rw [Nat.add_sub_cancel' hc] at h
  rw [stateAt_of_getElem? hr, h]

namespace PhysicalMemoryManager

/-- After `afterTake` the run is allocated, and every other frame is as it was. -/
theorem stateAt_afterTake (m : PhysicalMemoryManager) (ff : RegionFrameIndex) {i c count : Nat}
    {r : MemoryRegion} (hr : m.regions[i]? = some r) (hrun : RunFree r c count) (hcount : 0 < count)
    (loc : RegionFrameIndex) :
    stateAt (m.afterTake ff i c count).regions loc =
      if loc.regionIdx = i ∧ c ≤ loc.frameIdx ∧ loc.frameIdx < c + count then some .allocated
      else stateAt m.regions loc := by
  rw [regions_afterTake, stateAt_modify_fill]
  obtain ⟨li, j⟩ := loc
  dsimp only
  by_cases hin : li = i ∧ c ≤ j ∧ j < c + count
  · obtain ⟨rfl, hc, hj⟩ := hin
    rw [if_pos ⟨rfl, hc, by omega⟩, if_pos ⟨rfl, hc, hj⟩, stateAt_of_runFree hr hrun hc hj]
    rfl
  · have hout : ¬ (li = i ∧ c ≤ j ∧ j ≤ c + count - 1) := fun h => hin ⟨h.1, h.2.1, by omega⟩
    rw [if_neg hout, if_neg hin]

end PhysicalMemoryManager

open PhysicalMemoryManager in
/-- What one call `allocate_frames::<S>(n)` does to the manager `m`. It panics only on the
    overflow of its loop condition; it hands out a run exactly when `n` pages of size `S` fit
    somewhere, and then the first place where they do; the run was free, and exactly its frames
    become allocated. -/
structure AllocateSpec (S : PageSize) (m : PhysicalMemoryManager) (n : Nat) : Prop where
  panic_of_overflow : ∀ p, allocateFramesImpl S m n = .error p → p = ⟨"attempt to add with overflow"⟩
  some_iff : (∃ range m', allocateFramesImpl S m n = .ok (some range, m')) ↔
    (Fits S (n * S.smallFramesPerFrame) m.regions).Nonempty
  none_unchanged : ∀ m', allocateFramesImpl S m n = .ok (none, m') → m' = m
  first_fit : ∀ start stop m', allocateFramesImpl S m n = .ok (some (start, stop), m') →
    ∃ i c r, IsLeast (Fits S (n * S.smallFramesPerFrame) m.regions) ⟨i, c⟩ ∧ m.regions[i]? = some r ∧
      start = r.baseAddr + c * FRAME_SIZE ∧ start % S.SIZE = 0 ∧ stop = start + (n - 1) * S.SIZE ∧
      (∀ j, c ≤ j → j < c + n * S.smallFramesPerFrame → stateAt m.regions ⟨i, j⟩ = some .free) ∧
      ∀ loc, stateAt m'.regions loc =
        if loc.regionIdx = i ∧ c ≤ loc.frameIdx ∧ loc.frameIdx < c + n * S.smallFramesPerFrame then
          some .allocated
        else stateAt m.regions loc

namespace AllocateSpec

open PhysicalMemoryManager

variable {S : PageSize} {m : PhysicalMemoryManager} {n : Nat}

/-- Nothing fits, and the call returns `None`. -/
theorem of_none (hempty : Fits S (n * S.smallFramesPerFrame) m.regions = ∅)
    (h : allocateFramesImpl S m n = .ok (none, m)) : AllocateSpec S m n where
  panic_of_overflow p hp := by rw [h] at hp; cases hp
  some_iff := by simp [h, hempty]
  none_unchanged m' hm' := by rw [h] at hm'; cases hm'; rfl
  first_fit _ _ _ hm' := by rw [h] at hm'; cases hm'

/-- Nothing fits, and the loop condition overflows. -/
theorem of_overflow (hempty : Fits S (n * S.smallFramesPerFrame) m.regions = ∅)
    (h : allocateFramesImpl S m n = .error ⟨"attempt to add with overflow"⟩) : AllocateSpec S m n where
  panic_of_overflow p hp := by rw [h] at hp; cases hp; rfl
  some_iff := by simp [h, hempty]
  none_unchanged _ hm' := by rw [h] at hm'; cases hm'
  first_fit _ _ _ hm' := by rw [h] at hm'; cases hm'

/-- The call takes the first run that fits. -/
theorem of_first {ff : RegionFrameIndex} {i c : Nat} {r : MemoryRegion} (hn : 1 ≤ n)
    (hfit : IsLeast (Fits S (n * S.smallFramesPerFrame) m.regions) ⟨i, c⟩)
    (hr : m.regions[i]? = some r)
    (h : allocateFramesImpl S m n =
      .ok (some (r.baseAddr + c * FRAME_SIZE, r.baseAddr + c * FRAME_SIZE + (n - 1) * S.SIZE),
        m.afterTake ff i c (n * S.smallFramesPerFrame))) : AllocateSpec S m n where
  panic_of_overflow p hp := by rw [h] at hp; cases hp
  some_iff := ⟨fun _ => ⟨_, hfit.1⟩, fun _ => ⟨_, _, h⟩⟩
  none_unchanged _ hm' := by rw [h] at hm'; cases hm'
  first_fit start stop m' hm' := by
    rw [h] at hm'
    cases hm'
    obtain ⟨r', hr', haligned, hrun⟩ := hfit.1
    obtain rfl : r' = r := Option.some.inj (hr'.symm.trans hr)
    have hpos := Nat.mul_pos hn S.smallFramesPerFrame_pos
    exact ⟨i, c, r', hfit, hr, rfl, haligned, rfl, fun _ hc hj => stateAt_of_runFree hr hrun hc hj,
      stateAt_afterTake m ff hr hrun hpos⟩

end AllocateSpec

/-- On a manager that keeps its invariant, every call for `n ≥ 1` pages whose number of frames
    fits in a `usize` meets `AllocateSpec`. -/
theorem PhysicalMemoryManager.Wf.allocateSpec {S : PageSize} {m : PhysicalMemoryManager} {n : Nat}
    (hm : m.Wf) (hn : 1 ≤ n) (hcount : n * S.smallFramesPerFrame < U64_LIMIT) :
    AllocateSpec S m n := by
  rcases PhysicalMemoryManager.allocateFramesImpl_cases hm hn hcount with
    ⟨hempty, hnone | herr⟩ | ⟨_, _, _, _, -, hfit, hr, hsome⟩
  · exact .of_none hempty hnone
  · exact .of_overflow hempty herr
  · exact .of_first hn hfit hr hsome

theorem allocateFrames_first_fit {S : PageSize} {m : PhysicalMemoryManager} {n : Nat}
    (hm : Reachable m) (hn : 1 ≤ n) (hcount : n * S.smallFramesPerFrame < U64_LIMIT) :
    AllocateSpec S m n :=
  hm.wf.allocateSpec hn hcount

/-- A region of 2 MiB at `0x20_0000`, all free. -/
def twoMiBRegion : MemoryRegion := MemoryRegion.new 0x20_0000 512 .free

theorem allocateFrames_first_fit_twoMiB :
    Reachable (PhysicalMemoryManager.new [twoMiBRegion]) ∧ 1 ≤ 1 ∧
      1 * PageSize.size2MiB.smallFramesPerFrame < U64_LIMIT ∧
      AllocateSpec .size2MiB (PhysicalMemoryManager.new [twoMiBRegion]) 1 :=
  have hok : PhysicalMemoryManager.RegionsOk [twoMiBRegion] := by
    simp only [PhysicalMemoryManager.RegionsOk, List.mem_singleton, forall_eq, twoMiBRegion,
      MemoryRegion.new, List.length_replicate]
    decide
  ⟨.new hok, le_rfl, by decide, allocateFrames_first_fit (.new hok) le_rfl (by decide)⟩

/-- A region of one frame at `2 ^ 52`: its base is 4 KiB-aligned, but the frame lies above the
    physical addresses, and `PhysAddr::new` refuses it. -/
def highRegion : MemoryRegion := MemoryRegion.new (2 ^ 52) 1 .free

theorem allocateFrames_high_region_panics :
    highRegion.baseAddr % FRAME_SIZE = 0 ∧
      (Fits .size4KiB (1 * PageSize.size4KiB.smallFramesPerFrame)
        (PhysicalMemoryManager.new [highRegion]).regions).Nonempty ∧
      PhysicalMemoryManager.allocateFramesImpl .size4KiB (PhysicalMemoryManager.new [highRegion]) 1 =
        .error ⟨"physical addresses must not have any bits in the range 52 to 64 set"⟩ :=
  ⟨by decide, ⟨⟨0, 0⟩, highRegion, rfl, by decide, by decide⟩, by decide⟩

-- ---------------------------------------------------------------------------
-- Calls for no pages
-- ---------------------------------------------------------------------------

/-- A 4 KiB page is one frame, so the search start needs no alignment. -/
theorem alignedSearchStart_size4KiB (ss startAddr : Nat) :
    alignedSearchStart .size4KiB ss startAddr = ss := by
  unfold alignedSearchStart
  dsimp only
  split_ifs with h
  · rfl
  · have hmod : startAddr % PageSize.size4KiB.SIZE < PageSize.size4KiB.SIZE :=
      Nat.mod_lt _ (by decide)
    rw [Nat.div_eq_of_lt (by simp only [PageSize.SIZE, FRAME_SIZE] at h hmod ⊢; omega), Nat.add_zero]

/-- An empty run is free wherever it starts inside the region. -/
theorem searchRun_zero {region : MemoryRegion} {step fuel c : Nat} (hc : c ≤ region.frames.length)
    (hlt : c < U64_LIMIT) : searchRun region 0 step (fuel + 1) c = .ok (some c) := by
  rw [searchRun, checkedAdd_of_lt (by omega), Nat.add_zero]
  simp [hc]

/-- The search for no frames of 4 KiB stops at `first_free`, when its frame exists. -/
theorem searchRegions_size4KiB_zero {ff : RegionFrameIndex} {r : MemoryRegion}
    (rest : List MemoryRegion) (hlt : ff.frameIdx < r.frames.length)
    (hlen : r.frames.length < U64_LIMIT) :
    searchRegions .size4KiB 0 ff ff.regionIdx (r :: rest) = .ok (some (ff.regionIdx, ff.frameIdx)) := by
  rw [searchRegions]
  simp only [if_true, if_neg (Nat.not_le.2 hlt), MemoryRegion.frameAddress_of_lt hlt,
    alignedSearchStart_size4KiB, searchRun_zero hlt.le (by omega)]
  rfl

namespace PhysicalMemoryManager

/-- `takeRun` for no pages at a frame that exists panics on `n - 1`, or on `frame_start_idx - 1`
    when the frame is the region's first. -/
theorem takeRun_zero_of_lt (S : PageSize) (m : PhysicalMemoryManager) (ff : RegionFrameIndex)
    {i c : Nat} {r : MemoryRegion} (hr : m.regions[i]? = some r) (hc : c < r.frames.length) :
    takeRun S m ff 0 0 i c = .error ⟨"attempt to subtract with overflow"⟩ := by
  unfold takeRun
  simp only [hr]
  cases c with
  | zero => rfl
  | succ c =>
    simp only [Nat.add_zero, checkedSub_of_le (Nat.le_add_left 1 c), expect,
      MemoryRegion.frameAddress_of_lt hc]
    rfl

/-- With a free frame, `allocate_frames::<Size4KiB>(0)` finds the empty run at `first_free` and
    panics on the subtraction that computes its last frame. -/
theorem Wf.allocateFramesImpl_size4KiB_zero {m : PhysicalMemoryManager} (hm : m.Wf)
    (hfree : (FreeAt m.regions).Nonempty) :
    PhysicalMemoryManager.allocateFramesImpl .size4KiB m 0 =
      .error ⟨"attempt to subtract with overflow"⟩ := by
  have hff := hm.firstFree_isFirst
  unfold PhysicalMemoryManager.allocateFramesImpl
  rw [checkedMul_of_lt (by simp [U64_LIMIT]), Nat.zero_mul]
  cases hfirst : m.firstFree with
  | none =>
    rw [hfirst, IsFirst.none_iff] at hff
    exact absurd hff hfree.ne_empty
  | some ff =>
    rw [hfirst, IsFirst.some_iff] at hff
    obtain ⟨r, hr, hframe⟩ := Option.bind_eq_some_iff.1 hff.1
    have hlt : ff.frameIdx < r.frames.length := (List.getElem?_eq_some_iff.1 hframe).1
    have hlen := length_le_of_regionsOk hm.regions_ok (List.mem_of_getElem? hr)
    obtain ⟨hi, hget⟩ := List.getElem?_eq_some_iff.1 hr
    have hdrop : m.regions.drop ff.regionIdx = r :: m.regions.drop (ff.regionIdx + 1) := by
      rw [List.drop_eq_getElem_cons hi, hget]
    dsimp only
    rw [hdrop, searchRegions_size4KiB_zero _ hlt (by unfold U64_LIMIT; omega)]
    exact takeRun_zero_of_lt .size4KiB m ff hr hlt

end PhysicalMemoryManager

theorem allocateFrames_zero_panics {m : PhysicalMemoryManager} (hm : Reachable m)
    (hfree : (FreeAt m.regions).Nonempty) :
    PhysicalMemoryManager.allocateFramesImpl .size4KiB m 0 =
      .error ⟨"attempt to subtract with overflow"⟩ :=
  hm.wf.allocateFramesImpl_size4KiB_zero hfree

theorem allocateFrames_zero_panics_twoMiB :
    Reachable (PhysicalMemoryManager.new [twoMiBRegion]) ∧
      (FreeAt (PhysicalMemoryManager.new [twoMiBRegion]).regions).Nonempty ∧
      PhysicalMemoryManager.allocateFramesImpl .size4KiB (PhysicalMemoryManager.new [twoMiBRegion]) 0 =
        .error ⟨"attempt to subtract with overflow"⟩ :=
  have hok : PhysicalMemoryManager.RegionsOk [twoMiBRegion] := by
    simp only [PhysicalMemoryManager.RegionsOk, List.mem_singleton, forall_eq, twoMiBRegion,
      MemoryRegion.new, List.length_replicate]
    decide
  have hfree : (FreeAt (PhysicalMemoryManager.new [twoMiBRegion]).regions).Nonempty :=
    ⟨⟨0, 0⟩, rfl⟩
  ⟨.new hok, hfree, allocateFrames_zero_panics (.new hok) hfree⟩

-- ---------------------------------------------------------------------------
-- Frees that stop half way
-- ---------------------------------------------------------------------------

/-- The region of the 2 MiB frame at `0` with its first 4 KiB frame allocated, its second free
    and the other 510 allocated. -/
def halfFreeRegion : MemoryRegion :=
  ⟨0, .allocated :: .free :: List.replicate 510 .allocated⟩

/-- `deallocate_frame::<Size2MiB>` of the frame at `0`, and `deallocate_frames` of the two frames
    of 4 KiB at `0` and `0x1000`, free frame `0` and then refuse frame `0x1000`: they return
    `None`, and yet frame `0` is free and `first_free` has moved to it. -/
theorem deallocateFrame2MiB_half_applied :
    Reachable (PhysicalMemoryManager.new [halfFreeRegion]) ∧
      stateAt (PhysicalMemoryManager.new [halfFreeRegion]).regions ⟨0, 0⟩ = some .allocated ∧
      (PhysicalMemoryManager.new [halfFreeRegion]).firstFree = some ⟨0, 1⟩ ∧
      (PhysicalMemoryManager.deallocateFrame2MiB (PhysicalMemoryManager.new [halfFreeRegion]) 0).1 =
        none ∧
      stateAt (PhysicalMemoryManager.deallocateFrame2MiB
        (PhysicalMemoryManager.new [halfFreeRegion]) 0).2.regions ⟨0, 0⟩ = some .free ∧
      (PhysicalMemoryManager.deallocateFrame2MiB
        (PhysicalMemoryManager.new [halfFreeRegion]) 0).2.firstFree = some ⟨0, 0⟩ ∧
      (PhysicalMemoryManager.deallocateFrames .size4KiB
        (PhysicalMemoryManager.new [halfFreeRegion]) 0 0x1000).1 = none ∧
      stateAt (PhysicalMemoryManager.deallocateFrames .size4KiB
        (PhysicalMemoryManager.new [halfFreeRegion]) 0 0x1000).2.regions ⟨0, 0⟩ = some .free := by
  have hok : PhysicalMemoryManager.RegionsOk [halfFreeRegion] := by
    simp only [PhysicalMemoryManager.RegionsOk, List.mem_singleton, forall_eq, halfFreeRegion,
      List.length_cons, List.length_replicate]
    decide
  exact ⟨.new hok, by decide, by decide, by decide +kernel, by decide +kernel, by decide +kernel,
    by decide +kernel, by decide +kernel⟩

end Muffin.PhysicalMemory
