-- SUMMARY: The two stages of the kernel's physical memory: the bump allocator of stage 1 over limine's memory map, and `init_stage2`, which builds the regions of the bitmap allocator and marks the frames stage 1 handed out, with the frame states it produces.
import Muffin.Mem.Frames
import Muffin.Lib.Rust

/-!
# From the bump allocator to the bitmap allocator

Stage 1 hands out 4 KiB frames in the order of `usable_frames()`: for each
USABLE entry of the memory map, the addresses `(base..length).step_by(4096)`.
The range ends at the entry's `length`, not at `base + length`, so it covers the
start of the entry only; its frames are still frames of the entry.

`init_stage2` builds one `MemoryRegion` of `length / 4096` free frames for each
USABLE entry, enumerates again the `next_frame` frames stage 1 handed out, and
marks each one allocated in the first region whose `frame_index` finds it.
When the USABLE entries are aligned and do not overlap, every frame lies in
exactly one region at exactly one index, and a frame of a region ends up
allocated exactly when stage 1 handed it out (`initStage2_frames`).
-/

namespace Muffin.Mem

open Rust

/-- A limine memory map `Entry`; `entry_type` is limine's `u64` type code. -/
structure Entry where
  base : Nat
  length : Nat
  entryType : Nat
  deriving DecidableEq, Repr

/-- `EntryType::USABLE`. -/
def USABLE : Nat := 0

/-- `Size4KiB::SIZE`. -/
def FRAME_SIZE : Nat := 4096

/-- The USABLE entries, in the order of the map. -/
def usableEntries (entries : List Entry) : List Entry := entries.filter (·.entryType == USABLE)

/-- `(start..stop).step_by(step)`. -/
def stepRange (start stop step : Nat) : List Nat :=
  (List.range ((stop - start + step - 1) / step)).map (start + step * ·)

/-- The addresses `usable_frames()` enumerates, before `PhysAddr::new`. -/
def usableAddrs (entries : List Entry) : List Nat :=
  (usableEntries entries).flatMap fun e => stepRange e.base e.length FRAME_SIZE

/-- `PhysFrame::containing_address(PhysAddr::new(addr))`: the start of the frame, and the panic
    of `PhysAddr::new` on an address with a bit set from bit 52 on. -/
def physFrame (addr : Nat) : Except Panic Nat :=
  if addr < 2 ^ 52 then .ok (addr - addr % FRAME_SIZE)
  else .error ⟨"physical addresses must not have any bits in the range 52 to 64 set"⟩

/-- `PhysicalBumpAllocator`. -/
structure PhysicalBumpAllocator where
  regions : List Entry
  nextFrame : Nat

namespace PhysicalBumpAllocator

/-- `PhysicalBumpAllocator::new`. -/
def new (regions : List Entry) : PhysicalBumpAllocator := ⟨regions, 0⟩

/-- `allocate_frame`: `usable_frames().nth(next_frame)`, which maps every address up to the one
    it returns. -/
def allocateFrame (a : PhysicalBumpAllocator) : Except Panic (Option Nat × PhysicalBumpAllocator) := do
  let frames ← ((usableAddrs a.regions).take (a.nextFrame + 1)).mapM physFrame
  match frames[a.nextFrame]? with
  | some frame => pure (some frame, { a with nextFrame := a.nextFrame + 1 })
  | none => pure (none, a)

/-- `k` calls of `allocate_frame`, and what each returned. -/
def allocateFrames : Nat → PhysicalBumpAllocator → Except Panic (List (Option Nat) × PhysicalBumpAllocator)
  | 0, a => pure ([], a)
  | k + 1, a => do
    let (frame, a) ← a.allocateFrame
    let (frames, a) ← allocateFrames k a
    pure (frame :: frames, a)

end PhysicalBumpAllocator

/-- `kernel_physical_memory::MemoryRegion`. -/
structure MemoryRegion where
  baseAddr : Nat
  frames : List FrameState
  deriving DecidableEq, Repr

namespace MemoryRegion

/-- `MemoryRegion::new`. -/
def new (baseAddr numFrames : Nat) (state : FrameState) : MemoryRegion :=
  ⟨baseAddr, List.replicate numFrames state⟩

/-- `MemoryRegion::frame_index`. -/
def frameIndex (r : MemoryRegion) (addr : Nat) : Option Nat :=
  if addr < r.baseAddr then none
  else if (addr - r.baseAddr) / FRAME_SIZE < r.frames.length then some ((addr - r.baseAddr) / FRAME_SIZE)
  else none

/-- The bytes `[baseAddr, baseAddr + 4096 * len)` of the region. -/
def Contains (r : MemoryRegion) (addr : Nat) : Prop :=
  r.baseAddr ≤ addr ∧ addr < r.baseAddr + FRAME_SIZE * r.frames.length

end MemoryRegion

/-- The marking loop of `init_stage2` for one frame: the first region whose `frame_index`
    finds the address gets that frame allocated. -/
def markAllocated : List MemoryRegion → Nat → List MemoryRegion
  | [], _ => []
  | r :: rs, addr =>
    match r.frameIndex addr with
    | some i => { r with frames := r.frames.set i .allocated } :: rs
    | none => r :: markAllocated rs addr

/-- `init_stage2` on the stage 1 allocator: the regions of the bitmap allocator. -/
def initStage2 (a : PhysicalBumpAllocator) : Except Panic (List MemoryRegion) := do
  let regions := (usableEntries a.regions).map fun e =>
    MemoryRegion.new e.base (e.length / FRAME_SIZE) .free
  let frames ← ((usableAddrs a.regions).take a.nextFrame).mapM physFrame
  pure (frames.foldl markAllocated regions)

-- ---------------------------------------------------------------------------
-- Stage 1
-- ---------------------------------------------------------------------------

theorem mem_stepRange {s t x : Nat} :
    x ∈ stepRange s t FRAME_SIZE ↔ ∃ j, s + FRAME_SIZE * j < t ∧ x = s + FRAME_SIZE * j := by
  simp only [stepRange, List.mem_map, List.mem_range, FRAME_SIZE]
  constructor
  · rintro ⟨j, hj, rfl⟩
    exact ⟨j, by omega, rfl⟩
  · rintro ⟨j, hj, rfl⟩
    exact ⟨j, by omega, rfl⟩

/-- Every address of an entry's range is the address of a frame of the entry. -/
theorem mem_usableAddrs {entries : List Entry} {x : Nat} :
    x ∈ usableAddrs entries ↔
      ∃ e ∈ usableEntries entries, ∃ j, e.base + FRAME_SIZE * j < e.length ∧ x = e.base + FRAME_SIZE * j := by
  simp only [usableAddrs, List.mem_flatMap, mem_stepRange]

/-- The addresses of aligned entries are aligned. -/
theorem usableAddrs_aligned {entries : List Entry}
    (haligned : ∀ e ∈ usableEntries entries, e.base % FRAME_SIZE = 0) :
    ∀ x ∈ usableAddrs entries, x % FRAME_SIZE = 0 := by
  intro x hx
  obtain ⟨e, he, j, -, rfl⟩ := mem_usableAddrs.1 hx
  have := haligned e he
  unfold FRAME_SIZE at *
  omega

/-- Mapping aligned addresses to their frames succeeds when every address is below `2 ^ 52`, and
    returns them. -/
theorem mapM_physFrame_eq_ok {l fs : List Nat} (haligned : ∀ x ∈ l, x % FRAME_SIZE = 0)
    (h : l.mapM physFrame = .ok fs) : fs = l ∧ ∀ x ∈ l, x < 2 ^ 52 := by
  induction l generalizing fs with
  | nil =>
    cases h
    exact ⟨rfl, by simp⟩
  | cons x l ih =>
    rw [List.mapM_cons] at h
    cases hx : physFrame x with
    | error e => simp only [hx, bind, Except.bind] at h; cases h
    | ok y =>
      cases hl : l.mapM physFrame with
      | error e => simp only [hx, hl, bind, Except.bind] at h; cases h
      | ok fs' =>
        simp only [hx, hl, bind, Except.bind, pure, Except.pure, Except.ok.injEq] at h
        subst h
        obtain ⟨rfl, hvalid⟩ := ih (fun y hy => haligned y (List.mem_cons_of_mem x hy)) hl
        -- the frame of an aligned address is the address
        have hxy : x < 2 ^ 52 ∧ y = x := by
          unfold physFrame at hx
          split_ifs at hx with hlt
          cases hx
          exact ⟨hlt, by rw [haligned x List.mem_cons_self, Nat.sub_zero]⟩
        obtain ⟨hlt, rfl⟩ := hxy
        refine ⟨rfl, fun z hz => ?_⟩
        rcases List.mem_cons.1 hz with rfl | hz
        · exact hlt
        · exact hvalid z hz

theorem mapM_physFrame_of_valid {l : List Nat} (haligned : ∀ x ∈ l, x % FRAME_SIZE = 0)
    (hvalid : ∀ x ∈ l, x < 2 ^ 52) : l.mapM physFrame = .ok l := by
  induction l with
  | nil => rfl
  | cons x l ih =>
    have hx : physFrame x = .ok x := by
      rw [physFrame, if_pos (hvalid x List.mem_cons_self), haligned x List.mem_cons_self,
        Nat.sub_zero]
    rw [List.mapM_cons, hx, ih (fun y hy => haligned y (List.mem_cons_of_mem x hy))
      (fun y hy => hvalid y (List.mem_cons_of_mem x hy))]
    rfl

/-- One call of stage 1: the frame it returns is the next address, which it checked, and it
    moves past it; or it returns none at the end of the frames. -/
theorem allocateFrame_ok {a a' : PhysicalBumpAllocator} {frame : Option Nat}
    (haligned : ∀ x ∈ usableAddrs a.regions, x % FRAME_SIZE = 0)
    (h : a.allocateFrame = .ok (frame, a')) :
    a'.regions = a.regions ∧
      (usableAddrs a.regions).take a.nextFrame ++ frame.toList = (usableAddrs a.regions).take a'.nextFrame ∧
      ∀ x ∈ frame, x < 2 ^ 52 := by
  unfold PhysicalBumpAllocator.allocateFrame at h
  cases hm : ((usableAddrs a.regions).take (a.nextFrame + 1)).mapM physFrame with
  | error e => simp only [hm, bind, Except.bind] at h; cases h
  | ok frames =>
    simp only [hm, bind, Except.bind] at h
    obtain ⟨rfl, hvalid⟩ := mapM_physFrame_eq_ok
      (fun x hx => haligned x (List.mem_of_mem_take hx)) hm
    have hnth : ((usableAddrs a.regions).take (a.nextFrame + 1))[a.nextFrame]? =
        (usableAddrs a.regions)[a.nextFrame]? := List.getElem?_take_of_lt (by omega)
    rw [hnth] at h
    cases hx : (usableAddrs a.regions)[a.nextFrame]? with
    | none =>
      rw [hx] at h
      cases h
      simp
    | some x =>
      rw [hx] at h
      cases h
      refine ⟨rfl, ?_, fun y hy => ?_⟩
      · rw [List.take_add_one, hx]
      · rw [Option.mem_def, Option.some.injEq] at hy
        subst hy
        exact hvalid _ (List.mem_of_getElem? (by rw [hnth]; exact hx))

/-- `k` calls of stage 1: the frames they return are the addresses from `next_frame` on, up
    to the final `next_frame`, each one checked. -/
theorem allocateFrames_ok {k : Nat} {a a' : PhysicalBumpAllocator} {results : List (Option Nat)}
    (haligned : ∀ x ∈ usableAddrs a.regions, x % FRAME_SIZE = 0)
    (h : a.allocateFrames k = .ok (results, a')) :
    a'.regions = a.regions ∧
      (usableAddrs a.regions).take a.nextFrame ++ results.filterMap id =
        (usableAddrs a.regions).take a'.nextFrame ∧
      ∀ x ∈ results.filterMap id, x < 2 ^ 52 := by
  induction k generalizing a results with
  | zero =>
    cases h
    simp
  | succ k ih =>
    unfold PhysicalBumpAllocator.allocateFrames at h
    cases h₁ : a.allocateFrame with
    | error e => simp only [h₁, bind, Except.bind] at h; cases h
    | ok r =>
      obtain ⟨frame, a₁⟩ := r
      obtain ⟨hregions, htake, hvalid⟩ := allocateFrame_ok haligned h₁
      cases h₂ : a₁.allocateFrames k with
      | error e => simp only [h₁, h₂, bind, Except.bind] at h; cases h
      | ok r =>
        obtain ⟨frames, a₂⟩ := r
        simp only [h₁, h₂, bind, Except.bind, pure, Except.pure, Except.ok.injEq, Prod.mk.injEq] at h
        obtain ⟨rfl, rfl⟩ := h
        obtain ⟨hregions', htake', hvalid'⟩ := ih (by rw [hregions]; exact haligned) h₂
        refine ⟨hregions'.trans hregions, ?_, fun x hx => ?_⟩
        · rw [hregions] at htake'
          rw [← htake', ← htake]
          cases frame <;> simp
        · cases frame with
          | none => exact hvalid' x (by simpa using hx)
          | some y =>
            have hx' : x = y ∨ x ∈ frames.filterMap id := by simpa using hx
            rcases hx' with rfl | hx
            · exact hvalid x rfl
            · exact hvalid' x hx

/-- An entry enumerates `base..length`: one whose base is at or above its length enumerates
    nothing, however many frames it has. -/
theorem usableAddrs_eq_nil {entries : List Entry} (h : ∀ e ∈ usableEntries entries, e.length ≤ e.base) :
    usableAddrs entries = [] := by
  refine List.eq_nil_iff_forall_not_mem.mpr fun x hx => ?_
  obtain ⟨e, he, j, hlt, -⟩ := mem_usableAddrs.1 hx
  have := h e he
  omega

/-- With nothing to enumerate, stage 1 returns `None` on every call and never moves. -/
theorem allocateFrames_of_usableAddrs_eq_nil {a : PhysicalBumpAllocator} (h : usableAddrs a.regions = [])
    (k : Nat) : a.allocateFrames k = .ok (List.replicate k none, a) := by
  have hone : a.allocateFrame = .ok (none, a) := by
    simp only [PhysicalBumpAllocator.allocateFrame, h, List.take_nil, List.mapM_nil]
    rfl
  induction k with
  | zero => rfl
  | succ k ih =>
    simp only [PhysicalBumpAllocator.allocateFrames, hone, bind, Except.bind, ih]
    rfl

/-- One USABLE page at `0x1000`. -/
def onePageMap : List Entry := [⟨0x1000, 0x1000, USABLE⟩]

/-- The page `[0x1000, 0x2000)` of `onePageMap` is usable and aligned, but stage 1 enumerates
    `0x1000..0x1000`: however often it is called, it returns `None`. -/
theorem stage1_never_returns_onePage :
    (∀ e ∈ usableEntries onePageMap, e.base % FRAME_SIZE = 0 ∧ e.length % FRAME_SIZE = 0 ∧
      e.base ≤ 0x1000 ∧ 0x1000 < e.base + e.length) ∧
    ∀ k, (PhysicalBumpAllocator.new onePageMap).allocateFrames k =
      .ok (List.replicate k none, PhysicalBumpAllocator.new onePageMap) :=
  ⟨by decide, allocateFrames_of_usableAddrs_eq_nil (usableAddrs_eq_nil (by decide))⟩

-- ---------------------------------------------------------------------------
-- Marking the frames of stage 1
-- ---------------------------------------------------------------------------

namespace MemoryRegion

/-- The region with the frame of `addr` allocated, if it has one. -/
def mark (r : MemoryRegion) (addr : Nat) : MemoryRegion :=
  match r.frameIndex addr with
  | some i => { r with frames := r.frames.set i .allocated }
  | none => r

@[simp] theorem baseAddr_mark (r : MemoryRegion) (addr : Nat) : (r.mark addr).baseAddr = r.baseAddr := by
  unfold mark
  split <;> rfl

@[simp] theorem length_frames_mark (r : MemoryRegion) (addr : Nat) :
    (r.mark addr).frames.length = r.frames.length := by
  unfold mark
  split <;> simp

theorem frameIndex_mark (r : MemoryRegion) (addr x : Nat) :
    (r.mark addr).frameIndex x = r.frameIndex x := by
  simp only [frameIndex, baseAddr_mark, length_frames_mark]

theorem contains_mark (r : MemoryRegion) (addr x : Nat) : (r.mark addr).Contains x ↔ r.Contains x := by
  simp only [Contains, baseAddr_mark, length_frames_mark]

theorem frameIndex_eq_none_iff {r : MemoryRegion} {x : Nat} : r.frameIndex x = none ↔ ¬ r.Contains x := by
  unfold frameIndex Contains FRAME_SIZE
  split_ifs <;> simp <;> omega

/-- In an aligned region, the index of an aligned address is that of the frame it starts. -/
theorem frameIndex_eq_some_iff {r : MemoryRegion} {x j : Nat} (hbase : r.baseAddr % FRAME_SIZE = 0)
    (hx : x % FRAME_SIZE = 0) :
    r.frameIndex x = some j ↔ j < r.frames.length ∧ r.baseAddr + FRAME_SIZE * j = x := by
  unfold frameIndex
  unfold FRAME_SIZE at *
  split_ifs <;> simp <;> omega

theorem getElem?_frames_mark (r : MemoryRegion) (addr j : Nat) :
    (r.mark addr).frames[j]? = if r.frameIndex addr = some j then some .allocated else r.frames[j]? := by
  cases hi : r.frameIndex addr with
  | none =>
    simp only [mark, hi]
    rfl
  | some i =>
    have hlt : i < r.frames.length := by
      unfold frameIndex at hi
      split_ifs at hi with _ hlt
      cases hi
      exact hlt
    simp only [mark, hi, Option.some.injEq, List.getElem?_set]
    split_ifs <;> simp_all

/-- After marking the addresses `F`, frame `j` is allocated if one of them is its address, and
    as before otherwise. -/
theorem getElem?_frames_foldl_mark (r : MemoryRegion) (F : List Nat) (j : Nat) :
    (F.foldl mark r).frames[j]? =
      if ∃ x ∈ F, r.frameIndex x = some j then some .allocated else r.frames[j]? := by
  induction F generalizing r with
  | nil => simp
  | cons x F ih =>
    rw [List.foldl_cons, ih, getElem?_frames_mark]
    simp only [frameIndex_mark, List.mem_cons, exists_eq_or_imp]
    by_cases hx : r.frameIndex x = some j <;> simp [hx]

@[simp] theorem baseAddr_foldl_mark (r : MemoryRegion) (F : List Nat) :
    (F.foldl mark r).baseAddr = r.baseAddr := by
  induction F generalizing r with
  | nil => rfl
  | cons x F ih => rw [List.foldl_cons, ih, baseAddr_mark]

@[simp] theorem length_frames_foldl_mark (r : MemoryRegion) (F : List Nat) :
    (F.foldl mark r).frames.length = r.frames.length := by
  induction F generalizing r with
  | nil => rfl
  | cons x F ih => rw [List.foldl_cons, ih, length_frames_mark]

/-- A fresh free region after marking aligned addresses: frame `j` is allocated exactly when
    its address is one of them. -/
theorem frames_foldl_mark_new {b n j : Nat} {F : List Nat} (hb : b % FRAME_SIZE = 0)
    (hF : ∀ x ∈ F, x % FRAME_SIZE = 0) (hj : j < n) :
    (F.foldl mark (new b n .free)).frames[j]? =
      some (if b + FRAME_SIZE * j ∈ F then .allocated else .free) := by
  rw [getElem?_frames_foldl_mark]
  -- an aligned address finds frame `j` exactly when it is the address of frame `j`
  have hfind : (∃ x ∈ F, (new b n .free).frameIndex x = some j) ↔ b + FRAME_SIZE * j ∈ F := by
    constructor
    · rintro ⟨x, hx, hi⟩
      obtain ⟨-, rfl⟩ := (frameIndex_eq_some_iff hb (hF x hx)).1 hi
      exact hx
    · intro hx
      refine ⟨_, hx, (frameIndex_eq_some_iff hb (hF _ hx)).2 ⟨?_, rfl⟩⟩
      simpa [new] using hj
  by_cases hmem : b + FRAME_SIZE * j ∈ F
  · rw [if_pos (hfind.2 hmem), if_pos hmem]
  · rw [if_neg (mt hfind.1 hmem), if_neg hmem]
    simp [new, hj]

end MemoryRegion

/-- No address lies in two of the regions. -/
def Disjoint (rs : List MemoryRegion) : Prop :=
  rs.Pairwise fun r r' => ∀ x, r.Contains x → ¬ r'.Contains x

/-- When no address lies in two regions, marking the first region that has the frame marks the
    frame in every region that has it. -/
theorem markAllocated_eq_map {rs : List MemoryRegion} (hdisj : Disjoint rs) (addr : Nat) :
    markAllocated rs addr = rs.map (·.mark addr) := by
  induction rs with
  | nil => rfl
  | cons r rs ih =>
    obtain ⟨hr, hrs⟩ := List.pairwise_cons.1 hdisj
    unfold markAllocated
    cases hi : r.frameIndex addr with
    | none =>
      rw [List.map_cons, ih hrs, MemoryRegion.mark, hi]
    | some i =>
      have hin : r.Contains addr := by
        by_contra hout
        rw [MemoryRegion.frameIndex_eq_none_iff.2 hout] at hi
        cases hi
      have hrest : rs.map (·.mark addr) = rs := by
        conv_rhs => rw [← List.map_id rs]
        refine List.map_congr_left fun r' hr' => ?_
        rw [MemoryRegion.mark, MemoryRegion.frameIndex_eq_none_iff.2 (hr r' hr' addr hin)]
        rfl
      rw [List.map_cons, hrest, MemoryRegion.mark, hi]

theorem disjoint_map_mark {rs : List MemoryRegion} (hdisj : Disjoint rs) (addr : Nat) :
    Disjoint (rs.map (·.mark addr)) := by
  unfold Disjoint at *
  rw [List.pairwise_map]
  exact hdisj.imp fun h x hx hx' =>
    h x ((MemoryRegion.contains_mark _ _ _).1 hx) ((MemoryRegion.contains_mark _ _ _).1 hx')

/-- The marking loop of `init_stage2` marks each region with every frame it has. -/
theorem foldl_markAllocated {rs : List MemoryRegion} (hdisj : Disjoint rs) (F : List Nat) :
    F.foldl markAllocated rs = rs.map fun r => F.foldl MemoryRegion.mark r := by
  induction F generalizing rs with
  | nil => simp
  | cons x F ih =>
    rw [List.foldl_cons, markAllocated_eq_map hdisj, ih (disjoint_map_mark hdisj x), List.map_map]
    rfl

-- ---------------------------------------------------------------------------
-- The hand-off
-- ---------------------------------------------------------------------------

section Handoff

variable {entries : List Entry}

/-- The regions `init_stage2` builds, before marking. -/
theorem disjoint_initRegions
    (haligned : ∀ e ∈ usableEntries entries, e.base % FRAME_SIZE = 0 ∧ e.length % FRAME_SIZE = 0)
    (hdisjoint : (usableEntries entries).Pairwise fun e f =>
      e.base + e.length ≤ f.base ∨ f.base + f.length ≤ e.base) :
    Disjoint ((usableEntries entries).map fun e => MemoryRegion.new e.base (e.length / FRAME_SIZE) .free) := by
  unfold Disjoint
  rw [List.pairwise_map]
  refine hdisjoint.imp_of_mem fun he hf hsep x hx hx' => ?_
  -- an aligned length makes the region cover its entry exactly
  have he' := (haligned _ he).2
  have hf' := (haligned _ hf).2
  simp only [MemoryRegion.Contains, MemoryRegion.new, List.length_replicate] at hx hx'
  unfold FRAME_SIZE at *
  omega

/-- What `k` calls of stage 1 leave for `init_stage2`: the same map, and the frames they returned
    are the first `next_frame` addresses of `usable_frames`, all below `2 ^ 52`. -/
theorem stage1_handoff (haligned : ∀ e ∈ usableEntries entries, e.base % FRAME_SIZE = 0)
    {k : Nat} {results : List (Option Nat)} {a : PhysicalBumpAllocator}
    (hstage1 : (PhysicalBumpAllocator.new entries).allocateFrames k = .ok (results, a)) :
    a.regions = entries ∧ results.filterMap id = (usableAddrs entries).take a.nextFrame ∧
      ∀ x ∈ results.filterMap id, x < 2 ^ 52 := by
  obtain ⟨hregions, htake, hvalid⟩ := allocateFrames_ok (usableAddrs_aligned haligned) hstage1
  have hstart : (PhysicalBumpAllocator.new entries).nextFrame = 0 := rfl
  rw [hstart, List.take_zero, List.nil_append] at htake
  exact ⟨hregions, htake, hvalid⟩

/-- `init_stage2` after `k` calls of stage 1: every region is its entry's fresh region with the
    frames stage 1 returned marked. -/
theorem initStage2_eq_map
    (haligned : ∀ e ∈ usableEntries entries, e.base % FRAME_SIZE = 0 ∧ e.length % FRAME_SIZE = 0)
    (hdisjoint : (usableEntries entries).Pairwise fun e f =>
      e.base + e.length ≤ f.base ∨ f.base + f.length ≤ e.base)
    {k : Nat} {results : List (Option Nat)} {a : PhysicalBumpAllocator}
    (hstage1 : (PhysicalBumpAllocator.new entries).allocateFrames k = .ok (results, a)) :
    initStage2 a = .ok ((usableEntries entries).map fun e =>
      (results.filterMap id).foldl MemoryRegion.mark (MemoryRegion.new e.base (e.length / FRAME_SIZE) .free)) := by
  have hbase : ∀ e ∈ usableEntries entries, e.base % FRAME_SIZE = 0 := fun e he => (haligned e he).1
  obtain ⟨hregions, hF, hvalid⟩ := stage1_handoff hbase hstage1
  -- the second enumeration maps the same addresses without a panic
  have hmap : ((usableAddrs a.regions).take a.nextFrame).mapM physFrame = .ok (results.filterMap id) := by
    rw [hregions, hF]
    rw [hF] at hvalid
    exact mapM_physFrame_of_valid
      (fun x hx => usableAddrs_aligned hbase x (List.mem_of_mem_take hx)) hvalid
  unfold initStage2
  rw [hmap, hregions]
  simp only [bind, Except.bind, pure, Except.pure]
  rw [foldl_markAllocated (disjoint_initRegions haligned hdisjoint), List.map_map]
  rfl

/-- The hand-off from the bump allocator to the bitmap allocator: after `k` calls of stage 1
    that returned the frames `results`, `init_stage2` builds one region for each USABLE entry, at
    its base, with one frame for each 4 KiB of the entry; a frame of a region is allocated
    exactly when stage 1 returned it and free otherwise, so every frame stage 1 handed out is
    allocated in stage 2. -/
theorem initStage2_frames (entries : List Entry)
    (haligned : ∀ e ∈ usableEntries entries, e.base % FRAME_SIZE = 0 ∧ e.length % FRAME_SIZE = 0)
    (hdisjoint : (usableEntries entries).Pairwise fun e f =>
      e.base + e.length ≤ f.base ∨ f.base + f.length ≤ e.base)
    (k : Nat) {results : List (Option Nat)} {a : PhysicalBumpAllocator}
    (hstage1 : (PhysicalBumpAllocator.new entries).allocateFrames k = .ok (results, a)) :
    ∃ regions, initStage2 a = .ok regions ∧ regions.length = (usableEntries entries).length ∧
      (∀ (i : Nat) (e : Entry), (usableEntries entries)[i]? = some e →
        ∃ r : MemoryRegion, regions[i]? = some r ∧ r.baseAddr = e.base ∧
        r.frames.length = e.length / FRAME_SIZE ∧ ∀ j < e.length / FRAME_SIZE,
          r.frames[j]? = some (if e.base + FRAME_SIZE * j ∈ results.filterMap id then .allocated else .free)) ∧
      ∀ f ∈ results.filterMap id, ∃ r ∈ regions, ∃ j, r.baseAddr + FRAME_SIZE * j = f ∧
        r.frames[j]? = some .allocated := by
  have hbase : ∀ e ∈ usableEntries entries, e.base % FRAME_SIZE = 0 := fun e he => (haligned e he).1
  obtain ⟨-, hF, -⟩ := stage1_handoff hbase hstage1
  have hFaligned : ∀ x ∈ results.filterMap id, x % FRAME_SIZE = 0 := fun x hx =>
    usableAddrs_aligned hbase x (List.mem_of_mem_take (hF ▸ hx))
  -- the region of one USABLE entry
  have hregion : ∀ e ∈ usableEntries entries, ∀ j < e.length / FRAME_SIZE,
      ((results.filterMap id).foldl MemoryRegion.mark
        (MemoryRegion.new e.base (e.length / FRAME_SIZE) .free)).frames[j]? =
        some (if e.base + FRAME_SIZE * j ∈ results.filterMap id then .allocated else .free) :=
    fun e he j hj => MemoryRegion.frames_foldl_mark_new (hbase e he) hFaligned hj
  refine ⟨_, initStage2_eq_map haligned hdisjoint hstage1, List.length_map _, ?_, ?_⟩
  · intro i e he
    refine ⟨_, by rw [List.getElem?_map, he]; rfl, by simp [MemoryRegion.new], by simp [MemoryRegion.new],
      hregion e (List.mem_of_getElem? he)⟩
  · intro f hf
    -- a returned frame is an address of `usable_frames`, so a frame of its entry
    obtain ⟨e, he, j, hlt, rfl⟩ := mem_usableAddrs.1 (List.mem_of_mem_take (hF ▸ hf))
    have hj : j < e.length / FRAME_SIZE := by
      have := (haligned e he).2
      unfold FRAME_SIZE at *
      omega
    refine ⟨_, List.mem_map_of_mem he, j, by simp [MemoryRegion.new], ?_⟩
    rw [hregion e he j hj, if_pos hf]

/-- A map of two USABLE entries around a reserved one. Stage 1 enumerates `base..length`: two
    frames of the first entry and 256 of the second. -/
def sampleMap : List Entry :=
  [⟨0x1000, 0x3000, USABLE⟩, ⟨0x10000, 0x2000, 1⟩, ⟨0x100000, 0x200000, USABLE⟩]

theorem initStage2_frames_sampleMap :
    (∀ e ∈ usableEntries sampleMap, e.base % FRAME_SIZE = 0 ∧ e.length % FRAME_SIZE = 0) ∧
    (usableEntries sampleMap).Pairwise (fun e f =>
      e.base + e.length ≤ f.base ∨ f.base + f.length ≤ e.base) ∧
    (PhysicalBumpAllocator.new sampleMap).allocateFrames 3 =
      .ok ([some 0x1000, some 0x2000, some 0x100000], ⟨sampleMap, 3⟩) ∧
    ∃ regions, initStage2 ⟨sampleMap, 3⟩ = .ok regions ∧ regions.length = (usableEntries sampleMap).length ∧
      (∀ (i : Nat) (e : Entry), (usableEntries sampleMap)[i]? = some e →
        ∃ r : MemoryRegion, regions[i]? = some r ∧ r.baseAddr = e.base ∧
          r.frames.length = e.length / FRAME_SIZE ∧ ∀ j < e.length / FRAME_SIZE,
            r.frames[j]? = some (if e.base + FRAME_SIZE * j ∈
              [some 0x1000, some 0x2000, some 0x100000].filterMap id then .allocated else .free)) ∧
      ∀ f ∈ [some 0x1000, some 0x2000, some 0x100000].filterMap id, ∃ r ∈ regions, ∃ j,
        r.baseAddr + FRAME_SIZE * j = f ∧ r.frames[j]? = some .allocated :=
  ⟨by decide, by decide, rfl, initStage2_frames sampleMap (by decide) (by decide) 3 rfl⟩

end Handoff

end Muffin.Mem
