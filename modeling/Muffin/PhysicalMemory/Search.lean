-- SUMMARY: The search of `allocate_frames_impl`: its `while` loop finds the first run of free frames among the frames it steps over, the alignment block makes those the frames with `S`-aligned addresses, and the loop over the regions finds the first aligned run from `first_free` on; its only panic is the overflow of `current_start + small_frame_count`.
import Muffin.PhysicalMemory.FirstFree

/-!
# The search for a run of free frames

`allocate_frames_impl::<S>(n)` looks for `count = n * (S::SIZE / 4096)` free frames
whose first frame has an `S`-aligned address. In each region from `first_free` on, it
aligns the start of the search up (`alignedSearchStart`) and then steps through the
region a page of size `S` at a time (`searchRun`). The candidates it visits in a
region are exactly the frames from the search start on with aligned addresses
(`candidates_eq`), so the loop returns the first such frame that starts a free run
(`searchRun_aligned_isFirst`), and the loop over the regions the first such position
overall (`searchRegions_isFirst`). Both are instances of `Set.IsFirst`.

The loop condition `current_start + small_frame_count` is the one `usize` sum of the
search: it does not overflow while every region's length, a page and `count` add up
to less than `2 ^ 64` (`hbound`), and it is the only panic the search can raise
(`searchRegions_eq_error`).
-/

namespace Muffin.PhysicalMemory

open Rust
open Muffin.Mem (MemoryRegion FrameState FRAME_SIZE)
open Set (IsFirst)

/-- The frames `[c, c + count)` of the region exist and are free. -/
def RunFree (region : MemoryRegion) (c count : Nat) : Prop :=
  c + count ≤ region.frames.length ∧ ∀ j < count, region.frames[c + j]? = some .free

instance (region : MemoryRegion) (c count : Nat) : Decidable (RunFree region c count) :=
  inferInstanceAs (Decidable (_ ∧ _))

/-- The positions where `allocate_frames_impl::<S>` may hand out `count` frames: the `count`
    frames from there on are free, and the first one's address is a multiple of `S::SIZE`. -/
def Fits (S : PageSize) (count : Nat) (regions : List MemoryRegion) : Set RegionFrameIndex :=
  {loc | ∃ r, regions[loc.regionIdx]? = some r ∧
    (r.baseAddr + loc.frameIdx * FRAME_SIZE) % S.SIZE = 0 ∧ RunFree r loc.frameIdx count}

/-- The test of the loop, `frames()[c..c + count].iter().all(|&s| s == FrameState::Free)`, on a
    slice inside the region. -/
theorem all_free_iff {region : MemoryRegion} {c count : Nat} (h : c + count ≤ region.frames.length) :
    ((region.frames.drop c).take count).all (· == .free) = true ↔ RunFree region c count := by
  rw [List.all_eq_true]
  constructor
  · intro hall
    refine ⟨h, fun j hj => ?_⟩
    obtain ⟨s, hs⟩ : ∃ s, region.frames[c + j]? = some s :=
      ⟨_, List.getElem?_eq_getElem (by omega)⟩
    have hmem : s ∈ (region.frames.drop c).take count := by
      rw [List.mem_iff_getElem?]
      exact ⟨j, by rw [List.getElem?_take, if_pos hj, List.getElem?_drop, hs]⟩
    have hfree := hall s hmem
    simp only [beq_iff_eq] at hfree
    rw [hs, hfree]
  · rintro ⟨-, hfree⟩ s hs
    obtain ⟨j, hj⟩ := List.mem_iff_getElem?.1 hs
    rw [List.getElem?_take, List.getElem?_drop] at hj
    split_ifs at hj with hjc
    rw [hfree j hjc] at hj
    cases hj
    rfl

-- ---------------------------------------------------------------------------
-- The `while` loop in one region
-- ---------------------------------------------------------------------------

section Run

variable {region : MemoryRegion} {count step : Nat}

/-- The frames the loop tries from `c` on, every `step` frames, that start a free run. -/
def runCandidates (region : MemoryRegion) (count step c : Nat) : Set Nat :=
  {x | ∃ k, x = c + k * step ∧ RunFree region x count}

/-- A frame that does not start a free run is passed over. -/
theorem runCandidates_of_not {c : Nat} (h : ¬ RunFree region c count) :
    runCandidates region count step c = runCandidates region count step (c + step) := by
  ext x
  constructor
  · rintro ⟨k, rfl, hrun⟩
    cases k with
    | zero => exact absurd (by simpa using hrun) h
    | succ k => exact ⟨k, by ring, hrun⟩
  · rintro ⟨k, rfl, hrun⟩
    exact ⟨k + 1, by ring, hrun⟩

theorem runCandidates_eq_empty {c : Nat} (h : region.frames.length < c + count) :
    runCandidates region count step c = ∅ := by
  rw [Set.eq_empty_iff_forall_notMem]
  rintro x ⟨k, rfl, hrun, -⟩
  have : c ≤ c + k * step := Nat.le_add_right c _
  omega

/-- The only panic of the loop is the overflow of `current_start + small_frame_count`. -/
theorem searchRun_eq_error :
    ∀ {fuel c : Nat} {p : Panic}, searchRun region count step fuel c = .error p →
      p = ⟨"attempt to add with overflow"⟩
  | 0, _, _, h => by simp [searchRun] at h
  | fuel + 1, c, p, h => by
    unfold searchRun at h
    cases hadd : checkedAdd c count with
    | none =>
      rw [hadd] at h
      cases h
      rfl
    | some e =>
      rw [hadd] at h
      dsimp only at h
      split_ifs at h
      exact searchRun_eq_error h

/-- Without overflow, and with a round for every frame left, the loop finds the first frame
    from `c` on, every `step` frames, that starts a free run. -/
theorem searchRun_isFirst (hstep : 0 < step)
    (hbound : region.frames.length + step + count < U64_LIMIT) :
    ∀ (fuel c : Nat), region.frames.length < fuel + c → c ≤ region.frames.length + step →
      ∃ o, searchRun region count step fuel c = .ok o ∧ IsFirst (runCandidates region count step c) o
  | 0, c, hfuel, _ => ⟨none, rfl, runCandidates_eq_empty (by omega)⟩
  | fuel + 1, c, hfuel, hc => by
    unfold searchRun
    rw [checkedAdd_of_lt (by omega)]
    dsimp only
    by_cases hle : c + count ≤ region.frames.length
    · rw [if_pos hle]
      by_cases hfree : RunFree region c count
      · -- the loop stops at `c`, the first frame it tries
        rw [if_pos ((all_free_iff hle).2 hfree)]
        refine ⟨some c, rfl, ⟨0, by simp, hfree⟩, ?_⟩
        rintro x ⟨k, rfl, -⟩
        exact Nat.le_add_right c _
      · rw [if_neg (mt (all_free_iff hle).1 hfree), runCandidates_of_not hfree]
        exact searchRun_isFirst hstep hbound fuel (c + step) (by omega) (by omega)
    · rw [if_neg hle]
      exact ⟨none, rfl, runCandidates_eq_empty (by omega)⟩

/-- A frame the loop returns starts a free run. -/
theorem searchRun_eq_some :
    ∀ {fuel c c' : Nat}, searchRun region count step fuel c = .ok (some c') → RunFree region c' count
  | 0, _, _, h => by simp [searchRun] at h
  | fuel + 1, c, c', h => by
    unfold searchRun at h
    cases hadd : checkedAdd c count with
    | none =>
      rw [hadd] at h
      cases h
    | some e =>
      rw [hadd] at h
      dsimp only at h
      have he := (checkedAdd_eq_some.1 hadd).2
      split_ifs at h with hle hfree
      · cases h
        exact (all_free_iff (he ▸ hle)).1 hfree
      · exact searchRun_eq_some h
      · cases h

end Run

-- ---------------------------------------------------------------------------
-- Alignment
-- ---------------------------------------------------------------------------

section Align

variable {S : PageSize} {base ss c : Nat}

/-- A frame's address is `S`-aligned when its index counted from address 0 is a multiple of
    the number of 4 KiB frames in a page of size `S`. -/
theorem aligned_iff_index (hbase : base % FRAME_SIZE = 0) :
    (base + c * FRAME_SIZE) % S.SIZE = 0 ↔ (base / FRAME_SIZE + c) % S.smallFramesPerFrame = 0 := by
  have hsplit : base + c * FRAME_SIZE = FRAME_SIZE * (base / FRAME_SIZE + c) := by
    rw [Nat.mul_add, Nat.mul_div_cancel' (Nat.dvd_of_mod_eq_zero hbase), Nat.mul_comm c]
  rw [hsplit, S.SIZE_eq, Nat.mul_comm S.smallFramesPerFrame, Nat.mul_mod_mul_left]
  simp [FRAME_SIZE]

/-- The aligned start in frame indices: the search start moved up to the next index that is a
    multiple of the number of 4 KiB frames in a page. -/
theorem alignedSearchStart_eq (hbase : base % FRAME_SIZE = 0) (ss : Nat) :
    alignedSearchStart S ss (base + ss * FRAME_SIZE) =
      ss + (S.smallFramesPerFrame - (base / FRAME_SIZE + ss) % S.smallFramesPerFrame) %
        S.smallFramesPerFrame := by
  have hsplit : base + ss * FRAME_SIZE = FRAME_SIZE * (base / FRAME_SIZE + ss) := by
    rw [Nat.mul_add, Nat.mul_div_cancel' (Nat.dvd_of_mod_eq_zero hbase), Nat.mul_comm ss]
  have hmis : (base + ss * FRAME_SIZE) % S.SIZE =
      FRAME_SIZE * ((base / FRAME_SIZE + ss) % S.smallFramesPerFrame) := by
    rw [hsplit, S.SIZE_eq, Nat.mul_comm S.smallFramesPerFrame, Nat.mul_mod_mul_left]
  have hrlt := Nat.mod_lt (base / FRAME_SIZE + ss) S.smallFramesPerFrame_pos
  unfold alignedSearchStart
  dsimp only
  rw [hmis]
  generalize (base / FRAME_SIZE + ss) % S.smallFramesPerFrame = r at hrlt ⊢
  by_cases hr : r = 0
  · simp [hr]
  · -- `(S::SIZE - misalignment) / 4096` frames bring the start to the next aligned frame
    rw [if_neg (by simp [FRAME_SIZE, hr]), S.SIZE_eq, Nat.mul_comm FRAME_SIZE r, ← Nat.sub_mul,
      Nat.mul_div_cancel _ (by decide : 0 < FRAME_SIZE), Nat.mod_eq_of_lt (by omega)]

/-- From `ss` on, the indices that are multiples of `m` counted from `b` are the first of them
    and every `m`-th index after it, for the three values of `m`. -/
theorem index_aligned_iff (S : PageSize) {b : Nat} (hc : ss ≤ c) :
    (b + c) % S.smallFramesPerFrame = 0 ↔
      ∃ k, c = ss + (S.smallFramesPerFrame - (b + ss) % S.smallFramesPerFrame) %
        S.smallFramesPerFrame + k * S.smallFramesPerFrame := by
  constructor
  · intro h
    refine ⟨(c - (ss + (S.smallFramesPerFrame - (b + ss) % S.smallFramesPerFrame) %
      S.smallFramesPerFrame)) / S.smallFramesPerFrame, ?_⟩
    cases S <;> simp only [PageSize.smallFramesPerFrame, PageSize.SIZE, FRAME_SIZE, Nat.reduceDiv] at h ⊢ <;>
      omega
  · rintro ⟨k, rfl⟩
    cases S <;> simp only [PageSize.smallFramesPerFrame, PageSize.SIZE, FRAME_SIZE, Nat.reduceDiv] <;>
      omega

/-- The aligned start lies less than a page of size `S` after the search start. -/
theorem alignedSearchStart_bounds (S : PageSize) (hbase : base % FRAME_SIZE = 0) (ss : Nat) :
    ss ≤ alignedSearchStart S ss (base + ss * FRAME_SIZE) ∧
      alignedSearchStart S ss (base + ss * FRAME_SIZE) < ss + S.smallFramesPerFrame := by
  rw [alignedSearchStart_eq hbase]
  have := Nat.mod_lt (S.smallFramesPerFrame - (base / FRAME_SIZE + ss) % S.smallFramesPerFrame)
    S.smallFramesPerFrame_pos
  omega

/-- In a region on a 4 KiB boundary, the frames from `ss` on with `S`-aligned addresses are the
    aligned start and every page of size `S` after it. -/
theorem aligned_iff (hbase : base % FRAME_SIZE = 0) (hc : ss ≤ c) :
    (base + c * FRAME_SIZE) % S.SIZE = 0 ↔
      ∃ k, c = alignedSearchStart S ss (base + ss * FRAME_SIZE) + k * S.smallFramesPerFrame := by
  rw [aligned_iff_index hbase, alignedSearchStart_eq hbase]
  exact index_aligned_iff S hc

/-- The frames the loop of a region tries, from the aligned start on, that start a free run:
    the aligned frames from the search start on that start one. -/
theorem runCandidates_aligned {region : MemoryRegion} (hbase : region.baseAddr % FRAME_SIZE = 0)
    (ss count : Nat) :
    runCandidates region count S.smallFramesPerFrame
        (alignedSearchStart S ss (region.baseAddr + ss * FRAME_SIZE)) =
      {c | ss ≤ c ∧ (region.baseAddr + c * FRAME_SIZE) % S.SIZE = 0 ∧ RunFree region c count} := by
  have hstart := (alignedSearchStart_bounds S hbase ss).1
  ext c
  constructor
  · rintro ⟨k, rfl, hrun⟩
    have hss : ss ≤ alignedSearchStart S ss (region.baseAddr + ss * FRAME_SIZE) + k * S.smallFramesPerFrame :=
      le_trans hstart (Nat.le_add_right _ _)
    exact ⟨hss, (aligned_iff hbase hss).2 ⟨k, rfl⟩, hrun⟩
  · rintro ⟨hss, haligned, hrun⟩
    obtain ⟨k, hk⟩ := (aligned_iff hbase hss).1 haligned
    exact ⟨k, hk, hrun⟩

/-- The search in one region finds the first aligned frame from the search start on that starts
    a free run. -/
theorem searchRun_aligned_isFirst {region : MemoryRegion} {count : Nat}
    (hbase : region.baseAddr % FRAME_SIZE = 0)
    (hbound : region.frames.length + S.smallFramesPerFrame + count < U64_LIMIT)
    (hss : ss < region.frames.length) :
    ∃ o, searchRun region count S.smallFramesPerFrame (region.frames.length + 1)
        (alignedSearchStart S ss (region.baseAddr + ss * FRAME_SIZE)) = .ok o ∧
      IsFirst {c | ss ≤ c ∧ (region.baseAddr + c * FRAME_SIZE) % S.SIZE = 0 ∧ RunFree region c count} o := by
  rw [← runCandidates_aligned hbase]
  have hlt := (alignedSearchStart_bounds S hbase ss).2
  exact searchRun_isFirst S.smallFramesPerFrame_pos hbound _ _ (by omega) (by omega)

end Align

-- ---------------------------------------------------------------------------
-- The loop over the regions
-- ---------------------------------------------------------------------------

section Regions

variable {S : PageSize} {count : Nat} {ff : RegionFrameIndex} {regions : List MemoryRegion}

/-- The frames of region `i` from `ss` on where `count` frames fit. -/
theorem row_fits {i : Nat} {r : MemoryRegion} (hr : regions[i]? = some r) (ss : Nat) :
    {c | ss ≤ c ∧ (⟨i, c⟩ : RegionFrameIndex) ∈ Fits S count regions} =
      {c | ss ≤ c ∧ (r.baseAddr + c * FRAME_SIZE) % S.SIZE = 0 ∧ RunFree r c count} := by
  ext c
  simp [Fits, hr]

/-- The only panic of the search is the overflow of `current_start + small_frame_count`. -/
theorem searchRegions_eq_error :
    ∀ {i : Nat} {rs : List MemoryRegion} {p : Panic}, searchRegions S count ff i rs = .error p →
      p = ⟨"attempt to add with overflow"⟩
  | _, [], _, h => by simp [searchRegions] at h
  | i, r :: rest, p, h => by
    unfold searchRegions at h
    dsimp only at h
    generalize (if i = ff.regionIdx then ff.frameIdx else 0) = ss at h
    split_ifs at h
    · exact searchRegions_eq_error h
    · split at h
      · exact searchRegions_eq_error h
      · cases hrun : searchRun r count S.smallFramesPerFrame (r.frames.length + 1) _ with
        | error q =>
          rw [hrun] at h
          cases h
          exact searchRun_eq_error hrun
        | ok o =>
          rw [hrun] at h
          cases o with
          | some c => cases h
          | none => exact searchRegions_eq_error h

/-- A position the search returns is one where `count` frames fit. -/
theorem searchRegions_eq_some :
    ∀ {i : Nat} {rs : List MemoryRegion} {j c : Nat}, regions.drop i = rs →
      searchRegions S count ff i rs = .ok (some (j, c)) → ∃ r, regions[j]? = some r ∧ RunFree r c count
  | _, [], _, _, _, h => by simp [searchRegions] at h
  | i, r :: rest, j, c, hrs, h => by
    have hr := getElem?_of_drop_eq_cons hrs
    unfold searchRegions at h
    dsimp only at h
    generalize (if i = ff.regionIdx then ff.frameIdx else 0) = ss at h
    split_ifs at h
    · exact searchRegions_eq_some (drop_succ_of_drop_eq_cons hrs) h
    · split at h
      · exact searchRegions_eq_some (drop_succ_of_drop_eq_cons hrs) h
      · cases hrun : searchRun r count S.smallFramesPerFrame (r.frames.length + 1) _ with
        | error q =>
          rw [hrun] at h
          cases h
        | ok o =>
          rw [hrun] at h
          cases o with
          | some c' =>
            cases h
            exact ⟨r, hr, searchRun_eq_some hrun⟩
          | none => exact searchRegions_eq_some (drop_succ_of_drop_eq_cons hrs) h

/-- Without overflow, the loop over the regions from region `i` on finds the first position from
    `first_free` on where `count` frames fit. -/
theorem searchRegions_isFirst (hcount : 0 < count)
    (hregions : ∀ r ∈ regions, r.baseAddr % FRAME_SIZE = 0 ∧
      r.frames.length + S.smallFramesPerFrame + count < U64_LIMIT) :
    ∀ (i : Nat) (rs : List MemoryRegion), regions.drop i = rs → ff.regionIdx ≤ i →
      ∃ o, searchRegions S count ff i rs = .ok o ∧
        IsFirst (Set.Ici ⟨i, if i = ff.regionIdx then ff.frameIdx else 0⟩ ∩ Fits S count regions)
          (o.map fun p => ⟨p.1, p.2⟩)
  | i, [], h, _ => by
    refine ⟨none, rfl, ?_⟩
    -- no region from `i` on
    rw [Option.map_none, IsFirst.none_iff, Set.eq_empty_iff_forall_notMem]
    rintro loc ⟨hle, r, hr, -⟩
    have hlen := List.drop_eq_nil_iff.1 h
    rw [Set.mem_Ici, RegionFrameIndex.le_iff] at hle
    have hout : regions.length ≤ loc.regionIdx := by
      simp only at hle
      omega
    rw [List.getElem?_eq_none hout] at hr
    cases hr
  | i, r :: rest, h, hi => by
    have hr := getElem?_of_drop_eq_cons h
    obtain ⟨hbase, hbound⟩ := hregions r (List.mem_of_getElem? hr)
    obtain ⟨onext, hnext_eq, hnext⟩ :=
      searchRegions_isFirst hcount hregions (i + 1) rest (drop_succ_of_drop_eq_cons h) (by omega)
    rw [if_neg (by omega : ¬ i + 1 = ff.regionIdx)] at hnext
    unfold searchRegions
    dsimp only
    generalize (if i = ff.regionIdx then ff.frameIdx else 0) = ss
    split_ifs with hlen
    · -- the search starts past the end of the region
      refine ⟨onext, hnext_eq, isFirst_Ici_none ?_ hnext⟩
      rw [row_fits hr, Set.eq_empty_iff_forall_notMem]
      rintro c ⟨hc, -, hrun, -⟩
      omega
    · rw [MemoryRegion.frameAddress_of_lt (by omega)]
      obtain ⟨orow, hrun, hrow⟩ :=
        searchRun_aligned_isFirst hbase hbound (show ss < r.frames.length by omega)
      rw [← row_fits hr] at hrow
      simp only [hrun, bind, Except.bind]
      cases orow with
      | some c => exact ⟨some (i, c), rfl, isFirst_Ici_some hrow⟩
      | none => exact ⟨onext, hnext_eq, isFirst_Ici_none hrow hnext⟩

end Regions

end Muffin.PhysicalMemory
