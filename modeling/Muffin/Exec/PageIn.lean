-- SUMMARY: Demand paging of the file-backed regions `load` registers: `map_and_fill`, `page_in` with its read loop over the file, the region lookup and the page-fault pager, and what a successful page-in leaves in the page.
import Muffin.Exec.Load
import Muffin.Mem.Resident

/-!
# Paging in a file-backed region

A read-only segment of an executable is not copied at `exec` time: `load`
registers a `FileBackedMemoryRegion` for it, and the page-fault pager (or
`MemoryRegions::populate`) maps each page on first touch. `page_in` computes the
page's window in the file, `map_and_fill` maps a fresh frame writable, the fill
zeroes the part of the page past the window and reads the window from the file,
short reads at the end of the file included, and the page then takes the
region's flags.

The file is the executable's bytes, and a read of it returns the bytes from
the position on, as many as the buffer holds: a short read happens only at the
end of the file, and no read fails.
-/

namespace Muffin.Exec

open Rust X86 EStateM Mem ProcessMemory Process

/-- `PageInError`. -/
inductive PageInError where
  | outOfMemory
  | mapFailed
  | readFailed
  deriving DecidableEq, Repr

/-- The flags a page has while `map_and_fill` fills it. -/
def fillFlags : PageTableFlags :=
  PageTableFlags.PRESENT ||| PageTableFlags.WRITABLE ||| PageTableFlags.USER_ACCESSIBLE |||
    PageTableFlags.NO_EXECUTE

/-- `LazyMemoryRegion::map_and_fill`: map a fresh frame writable at `page`, let `fill` write the
    page, then give the page the region's `flags`. The `OwnedPhysicalMemory` of the frame is
    dropped, which frees the frame, on every early return; on success the region keeps it. -/
def mapAndFill (flags : PageTableFlags) (page : Nat)
    (fill : EStateM Panic ProcessMemory (Except PageInError Unit)) :
    EStateM Panic ProcessMemory (Except PageInError Unit) := do
  let some frame ← allocateFrame | return .error .outOfMemory
  match ← map page frame fillFlags with
  | .error (.pageAlreadyMapped _) =>
    -- another fault mapped the page first
    deallocateFrames [frame]
    return .ok ()
  | .error _ =>
    deallocateFrames [frame]
    return .error .mapFailed
  | .ok () =>
    match ← fill with
    | .error e =>
      let _ ← unmap page
      deallocateFrames [frame]
      return .error e
    | .ok () =>
      match ← remap page flags with
      | .error _ =>
        deallocateFrames [frame]
        return .error .mapFailed
      | .ok () => return .ok ()

/-- `node.read(buf, pos)` on the executable: the bytes from `pos` on, at most `len`. -/
def readAt (file : List Nat) (pos len : Nat) : List Nat := (file.drop pos).take len

-- `hread` is used by the termination proof only, which the linter does not see
set_option linter.unusedVariables false in
/-- The `while done < from_file` loop of `page_in`'s fill, for the page whose first address is
    `buf`: read into `buf[done..from_file]` at `file_offset + off + done` until the window is full
    or a read returns nothing. -/
def readLoop (file : List Nat) (buf fileOffset off fromFile done : Nat) :
    EStateM Panic ProcessMemory Nat :=
  if done < fromFile then do
    let some base := checkedAdd fileOffset off | throw ⟨"attempt to add with overflow"⟩
    let some pos := checkedAdd base done | throw ⟨"attempt to add with overflow"⟩
    match hread : readAt file pos (fromFile - done) with
    | [] => pure done
    | b :: bs =>
      writeBytes (buf + done) (b :: bs)
      readLoop file buf fileOffset off fromFile (done + (b :: bs).length)
  else pure done
termination_by fromFile - done
decreasing_by
  have hlen : (b :: bs).length ≤ fromFile - done := hread ▸ List.length_take_le _ _
  simp only [List.length_cons] at hlen ⊢
  omega

/-- The closure `page_in` hands to `map_and_fill`, for the page whose first address is `buf`. -/
def pageInFill (file : List Nat) (fileOffset buf off fromFile : Nat) :
    EStateM Panic ProcessMemory (Except PageInError Unit) := do
  -- `buf[from_file..].fill(0)`
  writeBytes (buf + fromFile) (List.replicate (PAGE_SIZE - fromFile) 0)
  let done ← readLoop file buf fileOffset off fromFile 0
  -- `buf[done..from_file].fill(0)`
  writeBytes (buf + done) (List.replicate (fromFile - done) 0)
  return .ok ()

/-- `FileBackedMemoryRegion::page_in`: the page's window in the file starts `off` bytes into the
    region and holds what is left of the region's file bytes, at most a page. -/
def pageIn (file : List Nat) (r : FileBackedRegion) (page : Nat) :
    EStateM Panic ProcessMemory (Except PageInError Unit) := do
  let some off := checkedSub (page * PAGE_SIZE) r.segment.start
    | throw ⟨"attempt to subtract with overflow"⟩
  let fromFile := min (r.fileLen - off) PAGE_SIZE
  mapAndFill r.flags page (pageInFill file r.fileOffset (page * PAGE_SIZE) off fromFile)

/-- `MemoryRegion::contains`. The end `addr() + size()` of a region `load` registers is the
    rounded-up end of its segment, which `validate` checked to be canonical, so the addition does
    not panic. -/
def FileBackedRegion.contains (r : FileBackedRegion) (a : Nat) : Bool :=
  decide (r.segment.start ≤ a) && decide (a < r.segment.start + r.size)

/-- `MemoryRegions::region_for`: the first region that contains the address. -/
def regionFor (regions : List FileBackedRegion) (a : Nat) : Option FileBackedRegion :=
  regions.find? fun r => r.contains a

/-- `page_fault_pager` for a fault at `addr`: the error the faulting task is terminated with, if
    any. -/
def pageFaultPager (file : List Nat) (addr : Nat) : EStateM Panic Process (Option PageInError) := do
  let a ← liftMem (liftPanic (VirtAddr.new addr))
  let p ← get
  match regionFor p.regions a.val with
  | some r =>
    match ← liftMem (pageIn file r (pageOf a.val)) with
    | .ok () => return none
    | .error e => return some e
  | none => return some .mapFailed

/-! ## What a page-in writes -/

/-- Byte `k` of a read at `pos` is byte `pos + k` of the file. -/
theorem getElem?_readAt {file : List Nat} {pos len k : Nat} (hk : k < len) :
    (readAt file pos len)[k]? = file[pos + k]? := by
  simp [readAt, hk, List.getElem?_drop]

/-- A read into a non-empty buffer returns nothing only at or past the end of the file. -/
theorem length_le_of_readAt_eq_nil {file : List Nat} {pos len : Nat} (hlen : 0 < len)
    (h : readAt file pos len = []) : file.length ≤ pos := by
  unfold readAt at h
  rcases List.take_eq_nil_iff.1 h with h | h
  · omega
  · exact List.drop_eq_nil_iff.1 h

/-- The read loop fills `buf[done..done']` with the window's bytes of the file and stops with the
    window full or the file at its end; nothing else changes. -/
theorem readLoop_run_ok {file : List Nat} {page fileOffset off fromFile : Nat} {e : Pte}
    (hfrom : fromFile ≤ PAGE_SIZE) {done done' : Nat} {s s' : ProcessMemory}
    (he : s.pt.entry page = some e) (hdone : done ≤ fromFile)
    (h : (readLoop file (page * PAGE_SIZE) fileOffset off fromFile done).run s = .ok done' s') :
    s'.pt = s.pt ∧ s'.phys.manager = s.phys.manager ∧ done ≤ done' ∧ done' ≤ fromFile ∧
      (done' < fromFile → file.length ≤ fileOffset + off + done') ∧
      ∀ g j, s'.phys.contents g j = if g = e.frame ∧ done ≤ j ∧ j < done' then
        (file[fileOffset + off + j]?).getD 0 else s.phys.contents g j := by
  rw [readLoop] at h
  split_ifs at h with hlt
  swap
  · -- the window is full
    cases h
    exact ⟨rfl, rfl, le_rfl, hdone, fun h => absurd h hlt, fun g j => by rw [if_neg (by omega)]⟩
  split at h <;> rename_i base hbase
  swap
  · cases h
  split at h <;> rename_i pos hpos
  swap
  · cases h
  obtain ⟨-, rfl⟩ := checkedAdd_eq_some.1 hbase
  obtain ⟨-, rfl⟩ := checkedAdd_eq_some.1 hpos
  split at h <;> rename_i hread
  · -- a read that returns nothing ends the loop: the file ends before the window does
    cases h
    exact ⟨rfl, rfl, le_rfl, hdone, fun _ => length_le_of_readAt_eq_nil (by omega) hread,
      fun g j => by rw [if_neg (by omega)]⟩
  rename_i b bs
  obtain ⟨_, s₁, h₁, h⟩ := run_bind_eq_ok h
  have hlen : (b :: bs).length ≤ fromFile - done := by
    rw [← hread]
    exact List.length_take_le _ _
  obtain ⟨hpt₁, hmgr₁, hc₁⟩ := writeBytes_run_page he (by omega) h₁
  obtain ⟨hpt, hmgr, hle, hle', hend, hc⟩ :=
    readLoop_run_ok hfrom (by rw [hpt₁]; exact he) (by omega) h
  refine ⟨hpt.trans hpt₁, hmgr.trans hmgr₁, by omega, hle',
    fun hlt' => by simpa only [Nat.add_assoc] using hend hlt', fun g j => ?_⟩
  rw [hc, hc₁]
  -- the byte comes from this read, from a later one, or was there before
  by_cases hin : g = e.frame ∧ done ≤ j ∧ j < done + (b :: bs).length
  · obtain ⟨rfl, hj₁, hj₂⟩ := hin
    rw [if_neg (by omega), if_pos ⟨rfl, hj₁, hj₂⟩, if_pos ⟨rfl, hj₁, by omega⟩, ← hread,
      getElem?_readAt (by omega), show fileOffset + off + done + (j - done) = fileOffset + off + j by omega]
  · rw [if_neg hin]
    by_cases hrest : g = e.frame ∧ done + (b :: bs).length ≤ j ∧ j < done'
    · rw [if_pos hrest, if_pos ⟨hrest.1, by omega, hrest.2.2⟩]
    · rw [if_neg hrest, if_neg (by omega)]
termination_by fromFile - done

/-- The fill of `page_in` leaves the page holding the window's bytes of the file, zeros where the
    file ends inside the window, and zeros past the window. -/
theorem pageInFill_run_ok {file : List Nat} {fileOffset page off fromFile : Nat} {e : Pte}
    {s s' : ProcessMemory} (he : s.pt.entry page = some e) (hfrom : fromFile ≤ PAGE_SIZE)
    (h : (pageInFill file fileOffset (page * PAGE_SIZE) off fromFile).run s = .ok (.ok ()) s') :
    s'.pt = s.pt ∧ s'.phys.manager = s.phys.manager ∧ ∀ j < PAGE_SIZE,
      s'.phys.contents e.frame j = if j < fromFile then (file[fileOffset + off + j]?).getD 0 else 0 := by
  unfold pageInFill at h
  obtain ⟨_, s₁, h₁, h⟩ := run_bind_eq_ok h
  obtain ⟨done, s₂, h₂, h⟩ := run_bind_eq_ok h
  obtain ⟨_, s₃, h₃, h⟩ := run_bind_eq_ok h
  cases h
  obtain ⟨hpt₁, hmgr₁, hc₁⟩ := writeBytes_run_page he (by simp only [List.length_replicate]; omega) h₁
  obtain ⟨hpt₂, hmgr₂, -, hle, hend, hc₂⟩ := readLoop_run_ok hfrom (by rw [hpt₁]; exact he) (Nat.zero_le _) h₂
  obtain ⟨hpt₃, hmgr₃, hc₃⟩ := writeBytes_run_page (by rw [hpt₂, hpt₁]; exact he)
    (by simp only [List.length_replicate]; omega) h₃
  refine ⟨hpt₃.trans (hpt₂.trans hpt₁), hmgr₃.trans (hmgr₂.trans hmgr₁), fun j hj => ?_⟩
  have hzero : ∀ n k, ((List.replicate n 0)[k]?).getD 0 = 0 := fun n k => by
    rw [List.getElem?_replicate]
    split_ifs <;> rfl
  rw [hc₃, hc₂, hc₁]
  simp only [true_and, List.length_replicate, Nat.zero_le]
  by_cases hwin : j < fromFile
  · rw [if_pos hwin]
    by_cases hread : j < done
    · -- read from the file
      rw [if_neg (by omega), if_pos hread]
    · -- the file ended before `j`: the last fill zeroed it
      have hnone : file[fileOffset + off + j]? = none :=
        List.getElem?_eq_none (by have := hend (by omega); omega)
      rw [if_pos ⟨by omega, by omega⟩, hnone, hzero]
      rfl
  · -- past the window: the first fill zeroed it, and nothing wrote there after
    rw [if_neg hwin, if_neg (by omega), if_neg (by omega), if_pos ⟨by omega, by omega⟩, hzero]

/-- A successful `map_and_fill` on an unmapped page: a frame that was free is mapped at the page
    with `fillFlags`, `fill` runs from there, and the page then has `flags` and the same frame. -/
theorem mapAndFill_run_ok {flags : PageTableFlags} {page : Nat}
    {fill : EStateM Panic ProcessMemory (Except PageInError Unit)} {s s' : ProcessMemory}
    (hunmapped : s.pt.entry page = none) (h : (mapAndFill flags page fill).run s = .ok (.ok ()) s') :
    ∃ f s₁ s₂, s.phys.manager.frames[f]? = some .free ∧ s₁.phys.manager.frames[f]? = some .allocated ∧
      s₁.pt.entry page = some ⟨f, fillFlags⟩ ∧ fill.run s₁ = .ok (.ok ()) s₂ ∧
      ∃ e, s₂.pt.entry page = some e ∧
        s'.pt.entry = Function.update s₂.pt.entry page (some ⟨e.frame, flags⟩) ∧ s'.phys = s₂.phys := by
  unfold mapAndFill at h
  obtain ⟨r, s₀, h₀, h⟩ := run_bind_eq_ok h
  obtain ⟨hpt₀, -, -, hfresh⟩ := allocateFrame_run h₀
  rcases r with _ | f
  · cases h
  obtain ⟨hfree, halloc⟩ := hfresh f rfl
  obtain ⟨m, s₁, h₁, h⟩ := run_bind_eq_ok h
  rcases m with (_ | _ | g) | u
  · -- `FrameAllocationFailed`: the frame is dropped and the page-in fails
    obtain ⟨_, _, -, h⟩ := run_bind_eq_ok h
    cases h
  · obtain ⟨_, _, -, h⟩ := run_bind_eq_ok h
    cases h
  · -- `PageAlreadyMapped` needs a mapped page
    have := map_run_pageAlreadyMapped h₁
    rw [hpt₀, hunmapped] at this
    cases this
  obtain ⟨-, hentry₁, hgrow₁, -⟩ := map_run_ok h₁
  obtain ⟨r, s₂, h₂, h⟩ := run_bind_eq_ok h
  rcases r with err | u
  · -- a failed fill unmaps the page and drops the frame
    obtain ⟨_, _, -, h⟩ := run_bind_eq_ok h
    obtain ⟨_, _, -, h⟩ := run_bind_eq_ok h
    cases h
  obtain ⟨r, s₃, h₃, h⟩ := run_bind_eq_ok h
  rcases r with err | u
  · obtain ⟨_, _, -, h⟩ := run_bind_eq_ok h
    cases h
  cases h
  obtain ⟨e, he, hentry₃, hphys₃, -⟩ := remap_run_ok h₃
  exact ⟨f, s₁, s₂, hfree, (hgrow₁.1 f halloc).1, by rw [hentry₁, Function.update_self], h₂,
    e, he, hentry₃, hphys₃⟩

/-- A successful `page_in` of an unmapped page of the region maps it, with the region's flags, to
    a frame that holds the page's window of the file: the bytes `off` on of the region's file
    bytes, zeros past the end of the file and past the window. -/
theorem pageIn_run_ok {file : List Nat} {r : FileBackedRegion} {page : Nat} {s s' : ProcessMemory}
    (hunmapped : s.pt.entry page = none) (h : (pageIn file r page).run s = .ok (.ok ()) s') :
    r.segment.start ≤ page * PAGE_SIZE ∧ ∃ f, s'.pt.entry page = some ⟨f, r.flags⟩ ∧
      s'.phys.manager.frames[f]? = some .allocated ∧ ∀ j < PAGE_SIZE, s'.phys.contents f j =
        if j < min (r.fileLen - (page * PAGE_SIZE - r.segment.start)) PAGE_SIZE then
          (file[r.fileOffset + (page * PAGE_SIZE - r.segment.start) + j]?).getD 0
        else 0 := by
  unfold pageIn at h
  split at h <;> rename_i off hoff
  swap
  · cases h
  unfold checkedSub at hoff
  split_ifs at hoff with hle
  cases hoff
  obtain ⟨f, s₁, s₂, -, halloc, hentry₁, hfill, e, he, hentry, hphys⟩ := mapAndFill_run_ok hunmapped h
  obtain ⟨hpt₂, hmgr₂, hc⟩ := pageInFill_run_ok hentry₁ (Nat.min_le_right _ _) hfill
  -- the fill changed no entry, so the page still maps `f`
  have hef : e.frame = f := by
    rw [hpt₂, hentry₁] at he
    cases he
    rfl
  refine ⟨hle, f, by rw [hentry, Function.update_self, hef], ?_, fun j hj => ?_⟩
  · rw [hphys, hmgr₂]
    exact halloc
  · rw [hphys]
    exact hc j hj

/-- In a list of regions as long as their segments, no two of which intersect, the region an
    address lies in is the one `region_for` finds. -/
theorem regionFor_eq_of_mem {a : Nat} {r : FileBackedRegion} (ha : r.contains a = true) :
    ∀ {regions : List FileBackedRegion}, (∀ x ∈ regions, x.size = x.segment.len) →
      regions.Pairwise (fun x y => ¬ x.segment.Intersects y.segment) → r ∈ regions →
      regionFor regions a = some r
  | [], _, _, hr => absurd hr List.not_mem_nil
  | x :: xs, hsize, hapart, hr => by
    rw [List.pairwise_cons] at hapart
    unfold regionFor
    rw [List.find?_cons]
    split <;> rename_i hx
    · -- `x` contains `a` too, so it is `r`: two regions that share `a` intersect
      rcases List.mem_cons.1 hr with rfl | hr'
      · rfl
      · refine absurd ?_ (hapart.1 r hr')
        have hxs := hsize x List.mem_cons_self
        have hrs := hsize r (List.mem_cons_of_mem _ hr')
        simp only [FileBackedRegion.contains, Bool.and_eq_true, decide_eq_true_eq] at ha hx
        exact ⟨by omega, by omega⟩
    · rcases List.mem_cons.1 hr with rfl | hr'
      · rw [ha] at hx
        cases hx
      · exact regionFor_eq_of_mem ha (fun y hy => hsize y (List.mem_cons_of_mem _ hy)) hapart.2 hr'

/-- Regions added after those that hold an address leave what `region_for` finds as it was. -/
theorem regionFor_of_prefix {regions regions' : List FileBackedRegion} {a : Nat} {r : FileBackedRegion}
    (hp : regions <+: regions') (h : regionFor regions a = some r) : regionFor regions' a = some r := by
  obtain ⟨rest, rfl⟩ := hp
  unfold regionFor at h ⊢
  rw [List.find?_append, h]
  rfl

/-- Paging in the page of byte `i` of a read-only segment, as `validate` rewrites it, leaves that
    byte resident: the window `page_in` computes for the page starts, in the file, at the byte of
    the page's first address, so that the lead `validate` moved the file range back by cancels. -/
theorem pageIn_resident {file : List Nat} {vaddr offset filesz start e i : Nat} {nx : Bool}
    {s s' : ProcessMemory} (hcong : offset % PAGE_SIZE = vaddr % PAGE_SIZE)
    (hstart : start = vaddr - vaddr % PAGE_SIZE) (hunmapped : s.pt.entry (pageOf (vaddr + i)) = none)
    (h : (pageIn file ⟨⟨start, e - start⟩, e - start, mappedFlags nx, offset - vaddr % PAGE_SIZE,
      vaddr % PAGE_SIZE + filesz⟩ (pageOf (vaddr + i))).run s = .ok (.ok ()) s') :
    s'.Resident (vaddr + i) (segmentByte file offset filesz i) (mappedFlags nx) := by
  obtain ⟨-, f, he, ha, hc⟩ := pageIn_run_ok hunmapped h
  refine ⟨f, he, ha, ?_⟩
  have hp : PAGE_SIZE = 4096 := rfl
  rw [hc _ (Nat.mod_lt _ (by decide))]
  dsimp only
  unfold segmentByte pageOf
  rw [hp] at hcong hstart ⊢
  by_cases hif : i < filesz
  · -- inside the file's part: the page's window reaches the byte, at the segment's offset
    rw [if_pos (by omega), if_pos hif]
    congr 2
    omega
  · rw [if_neg (by omega), if_neg hif]

/-- A successful run of the pager: the region `region_for` finds paged the page in, and nothing
    of the process changed but its memory. -/
theorem pageFaultPager_run_ok {file : List Nat} {addr : Nat} {r : FileBackedRegion} {q q' : Process}
    (hr : regionFor q.regions addr = some r) (h : (pageFaultPager file addr).run q = .ok none q') :
    q'.regions = q.regions ∧ (pageIn file r (pageOf addr)).run q.mem = .ok (.ok ()) q'.mem := by
  unfold pageFaultPager at h
  obtain ⟨a, q₁, h₁, h⟩ := run_bind_eq_ok h
  -- `VirtAddr::new` accepted the address, as it is
  have ha : a.val = addr ∧ q₁ = q := by
    unfold liftMem at h₁
    simp only [EStateM.run] at h₁
    split at h₁ <;> rename_i a' m hm
    · cases h₁
      obtain ⟨hnew, rfl⟩ := liftPanic_run_ok hm
      unfold VirtAddr.new at hnew
      split at hnew <;> rename_i v hv
      · cases hnew
        exact ⟨VirtAddr.tryNew_val hv, rfl⟩
      · cases hnew
    · cases h₁
  rw [ha.1, ha.2, run_get_bind, hr] at h
  dsimp only at h
  obtain ⟨res, q₂, h₂, h⟩ := run_bind_eq_ok h
  rcases res with err | u
  · cases h
  cases h
  unfold liftMem at h₂
  simp only [EStateM.run] at h₂ ⊢
  split at h₂ <;> rename_i res m hm
  · cases h₂
    exact ⟨rfl, hm⟩
  · cases h₂

end Muffin.Exec
