-- SUMMARY: `ValidatedExecutable::load`: committing a validated executable into a process, with its private copies, its file-backed regions and its TLS block, and what it does with any header `validate` accepted.
import Muffin.Exec.Elf
import Muffin.Mem.Resident

/-!
# Loading a validated executable

`load` runs after `execve` has torn the old image down, so every failure from
here on kills the process. For each validated segment it either allocates the
segment's pages at their fixed address and copies the file's bytes in
(`Private`), or reserves the segment in the process's virtual memory manager and
registers a file-backed region that the page-fault handler pages in later
(`Mapped`). Last it allocates the TLS block and points `FS` at it.

`validate` and `load` walk the same headers separately: whatever `load` can
trip on and `validate` does not reject first is no longer an `ENOEXEC` but a
killed process, or a kernel panic when it is an assertion.
-/

namespace Muffin.Exec

open Rust X86 EStateM Mem ProcessMemory

/-- A `FileBackedMemoryRegion` over a `LazyMemoryRegion`: its reserved segment, its size and
    flags, and the part of the file it pages in. -/
structure FileBackedRegion where
  segment : Segment
  size : Nat
  flags : PageTableFlags
  fileOffset : Nat
  fileLen : Nat

/-- What `load` reads and changes of a process and of the task that runs it. -/
structure Process where
  mem : ProcessMemory
  /-- The file-backed entries of `memory_regions()`. -/
  regions : List FileBackedRegion
  executableSegments : List Allocation
  /-- The task's TLS allocation. -/
  tls : Option Allocation
  fsBase : Nat

/-- Run a computation on the process's memory. -/
def Process.liftMem {α : Type} (x : EStateM Panic ProcessMemory α) : EStateM Panic Process α :=
  fun p =>
    match x.run p.mem with
    | .ok a m => .ok a { p with mem := m }
    | .error e m => .error e { p with mem := m }

theorem Process.liftMem_run_ok {α : Type} {x : EStateM Panic ProcessMemory α} {p : Process} {a : α}
    {m : ProcessMemory} (h : x.run p.mem = .ok a m) :
    (liftMem x).run p = .ok a { p with mem := m } := by
  unfold liftMem
  simp only [EStateM.run] at h ⊢
  rw [h]

theorem Process.liftMem_run_error {α : Type} {x : EStateM Panic ProcessMemory α} {p : Process}
    {e : Panic} {m : ProcessMemory} (h : x.run p.mem = .error e m) :
    (liftMem x).run p = .error e { p with mem := m } := by
  unfold liftMem
  simp only [EStateM.run] at h ⊢
  rw [h]

open Process

/-- `read_exact` on a regular file whose bytes are `file`: the `len` bytes from `offset`, or
    `Truncated` when the file ends first. -/
def readExact (file : List Nat) (offset len : Nat) : Except LoadExecutableError (List Nat) :=
  if len = 0 ∨ offset + len ≤ file.length then .ok ((file.drop offset).take len)
  else .error .truncated

/-- Copy the file's `filesz` bytes from `offset` into a fresh allocation of `size` bytes and
    zero the rest: `read_exact(node, &mut slice[..filesz], offset)?; slice[filesz..].fill(0)`.
    On `Truncated` the allocation is dropped. -/
def fillAllocation (file : List Nat) (alloc : Allocation) (offset filesz : Nat) :
    EStateM Panic Process (Except LoadExecutableError Unit) := do
  if filesz > alloc.layout.size then
    throw ⟨"range end index out of range for slice"⟩
  match readExact file offset filesz with
  | .error e =>
    liftMem alloc.drop
    return .error e
  | .ok bytes =>
    liftMem (writeBytes alloc.start (bytes ++ List.replicate (alloc.layout.size - filesz) 0))
    return .ok ()

/-- The flags of a file-backed segment: `PRESENT | USER_ACCESSIBLE`, and `NO_EXECUTE` unless the
    segment is executable. -/
def mappedFlags (noExecute : Bool) : PageTableFlags :=
  PageTableFlags.PRESENT ||| PageTableFlags.USER_ACCESSIBLE |||
    (if noExecute then PageTableFlags.NO_EXECUTE else 0)

/-- One round of `load`'s loop over the validated segments. -/
def loadSegment (file : List Nat) :
    ValidatedSegment → EStateM Panic Process (Except LoadExecutableError Unit)
  | .private vaddr layout offset filesz => do
    let some alloc ← liftMem (allocate (.fixed vaddr) layout .yes .no)
      | return .error .allocationFailed
    match ← fillAllocation file alloc offset filesz with
    | .error e => return .error e
    | .ok () =>
      modify fun p => { p with executableSegments := p.executableSegments ++ [alloc] }
      return .ok ()
  | .mapped start len noExecute offset filesz => do
    let .ok () ← liftMem (vmmMarkAsReserved ⟨start.val, len⟩)
      | return .error (.alreadyReserved start.val)
    let region : FileBackedRegion := ⟨⟨start.val, len⟩, len, mappedFlags noExecute, offset, filesz⟩
    modify fun p => { p with regions := p.regions ++ [region] }
    return .ok ()

/-- `load`'s loop over the validated segments, stopping at the first error. -/
def loadSegments (file : List Nat) :
    List ValidatedSegment → EStateM Panic Process (Except LoadExecutableError Unit)
  | [] => return .ok ()
  | seg :: segs => do
    match ← loadSegment file seg with
    | .error e => return .error e
    | .ok () => loadSegments file segs

/-- The TLS part of `load`: allocate the block anywhere, fill it, point `FS` at it and make it
    the task's TLS allocation, which drops the one it replaces. -/
def loadTls (file : List Nat) (tls : ValidatedTls) :
    EStateM Panic Process (Except LoadExecutableError Unit) := do
  let some alloc ← liftMem (allocate .anywhere tls.layout .yes .no)
    | return .error .allocationFailed
  match ← fillAllocation file alloc tls.offset tls.filesz with
  | .error e => return .error e
  | .ok () =>
    let p ← get
    set { p with fsBase := alloc.start, tls := some alloc }
    if let some old := p.tls then
      liftMem old.drop
    return .ok ()

/-- `ValidatedExecutable::load`: the entry point on success. -/
def load (v : ValidatedExecutable) (file : List Nat) :
    EStateM Panic Process (Except LoadExecutableError Nat) := do
  match ← loadSegments file v.segments with
  | .error e => return .error e
  | .ok () =>
    let some tls := v.tls | return .ok v.entry
    match ← loadTls file tls with
    | .error e => return .error e
    | .ok () => return .ok v.entry

-- ---------------------------------------------------------------------------
-- What `load` does with a validated segment
-- ---------------------------------------------------------------------------

theorem mappedFlags_user (noExecute : Bool) :
    PageTableFlags.contains (mappedFlags noExecute) PageTableFlags.USER_ACCESSIBLE = true := by
  cases noExecute <;> decide

/-- A private segment whose alignment is above a page reaches `allocate`'s assertion: the kernel
    panics, with the process as it was. -/
theorem loadSegment_private_of_align_gt (file : List Nat) {vaddr : VirtAddr} {layout : Layout}
    {offset filesz : Nat} (h : PAGE_SIZE < layout.align) (p : Process) :
    (loadSegment file (.private vaddr layout offset filesz)).run p =
      .error ⟨"assertion failed: layout.align() <= Size4KiB::SIZE.into_usize()"⟩ p := by
  have hrun := liftMem_run_error (@allocate_of_align_gt (.fixed vaddr) layout .yes .no h p.mem)
  unfold loadSegment
  rw [EStateM.run_bind, hrun]

/-- `load` panics on an executable whose first validated segment is private and aligned above a
    page, from every process state. -/
theorem load_of_align_gt (file : List Nat) {v : ValidatedExecutable} {vaddr : VirtAddr}
    {layout : Layout} {offset filesz : Nat} {rest : List ValidatedSegment}
    (hseg : v.segments = .private vaddr layout offset filesz :: rest) (h : PAGE_SIZE < layout.align)
    (p : Process) :
    (load v file).run p =
      .error ⟨"assertion failed: layout.align() <= Size4KiB::SIZE.into_usize()"⟩ p := by
  unfold load
  rw [hseg, EStateM.run_bind]
  unfold loadSegments
  rw [EStateM.run_bind, loadSegment_private_of_align_gt file h p]

/-- An executable with one writable `LOAD` segment whose `p_align` is `0x2000`. -/
def alignedElf : ElfFile :=
  ⟨.exec, 0x40_1000, [⟨PT_LOAD, 0x06, 0, 0x40_0000, 0x10, 0x2000, 0x2000⟩]⟩

/-- `validate` accepts the executable, and `load` then panics the kernel in every process. -/
theorem validate_accepts_load_panics :
    ∃ v, validate alignedElf = .ok v ∧ ∀ (file : List Nat) (p : Process),
      (load v file).run p =
        .error ⟨"assertion failed: layout.align() <= Size4KiB::SIZE.into_usize()"⟩ p :=
  ⟨_, rfl, fun file p => load_of_align_gt file rfl (by decide) p⟩

/-- A file-backed segment is reserved and registered user-accessible wherever it lies, as long as
    it is page aligned and no reserved segment overlaps it: `load` itself never looks at where. -/
theorem loadSegment_mapped_reserves (file : List Nat) {start : VirtAddr} {len : Nat}
    {noExecute : Bool} {offset filesz : Nat} (p : Process) (hstart : start.val % PAGE_SIZE = 0)
    (hlen : len % PAGE_SIZE = 0)
    (hfree : ∀ e ∈ p.mem.vmm.segments, Segment.overlaps ⟨start.val, len⟩ e = false) :
    ∃ p', (loadSegment file (.mapped start len noExecute offset filesz)).run p = .ok (.ok ()) p' ∧
      (⟨start.val, len⟩ : Segment) ∈ p'.mem.vmm.segments ∧
      p'.regions = p.regions ++ [⟨⟨start.val, len⟩, len, mappedFlags noExecute, offset, filesz⟩] := by
  obtain ⟨vmm, hvmm⟩ := VirtualMemoryManager.markAsReserved_eq_ok_iff.2 hfree
  have hrun := liftMem_run_ok (vmmMarkAsReserved_run_ok hstart hlen hvmm)
  let region : FileBackedRegion := ⟨⟨start.val, len⟩, len, mappedFlags noExecute, offset, filesz⟩
  have hres : (loadSegment file (.mapped start len noExecute offset filesz)).run p =
      .ok (.ok ()) { p with mem := { p.mem with vmm := vmm }, regions := p.regions ++ [region] } := by
    unfold loadSegment
    rw [EStateM.run_bind, hrun]
    rfl
  exact ⟨_, hres, (VirtualMemoryManager.markAsReserved_ok hvmm).1, rfl⟩

/-- An executable with one read-only, executable `LOAD` segment of one page at the first address
    of the upper half. -/
def upperElf : ElfFile :=
  ⟨.exec, 0xFFFF_8000_0000_0000,
    [⟨PT_LOAD, 0x05, 0, 0xFFFF_8000_0000_0000, 0x1000, 0x1000, 0x1000⟩]⟩

/-- A process after `execve`'s teardown: no frames, no tables, an empty manager for the user
    window `[0x1_0000_0000, 0x7F01_0000_0000)`. -/
def execProcess : Process :=
  ⟨⟨⟨⟨[]⟩, fun _ _ => 0⟩, ⟨fun _ => none, fun _ _ => false⟩, ⟨0x1_0000_0000, 0x7F00_0000_0000, []⟩⟩,
    [], [], none, 0⟩

/-- `validate` accepts the upper-half segment, and `load` reserves the kernel's first page in the
    process's manager and registers it as a user-accessible file-backed region. -/
theorem validate_accepts_upper_half_segment :
    ∃ v p, validate upperElf = .ok v ∧
      (load v []).run execProcess = .ok (.ok 0xFFFF_8000_0000_0000) p ∧
      (⟨0xFFFF_8000_0000_0000, 0x1000⟩ : Segment) ∈ p.mem.vmm.segments ∧
      ∃ r ∈ p.regions, r.segment = ⟨0xFFFF_8000_0000_0000, 0x1000⟩ ∧
        PageTableFlags.contains r.flags PageTableFlags.USER_ACCESSIBLE = true :=
  ⟨_, _, rfl, rfl, by decide, ⟨_, List.mem_singleton_self _, rfl, rfl⟩⟩

-- ---------------------------------------------------------------------------
-- What a successful `load` leaves
-- ---------------------------------------------------------------------------

/-- A successful run on the process's memory changed nothing else. -/
theorem Process.liftMem_run_eq_ok {α : Type} {x : EStateM Panic ProcessMemory α} {p p' : Process}
    {a : α} (h : (liftMem x).run p = .ok a p') : x.run p.mem = .ok a p'.mem ∧ p' = { p with mem := p'.mem } := by
  unfold liftMem at h
  simp only [EStateM.run] at h ⊢
  split at h <;> rename_i a' m hm
  · cases h
    exact ⟨hm, rfl⟩
  · cases h

/-- The byte at offset `i` of a segment whose first `filesz` bytes come from `offset` in the file:
    the file's byte while both last, zero after. -/
def segmentByte (file : List Nat) (offset filesz i : Nat) : Nat :=
  if i < filesz then (file[offset + i]?).getD 0 else 0

/-- The flags `allocate` gives the pages of a user-accessible allocation. -/
def privateFlags : PageTableFlags :=
  PageTableFlags.PRESENT ||| PageTableFlags.WRITABLE ||| PageTableFlags.NO_EXECUTE |||
    PageTableFlags.USER_ACCESSIBLE

theorem readExact_eq_ok {file : List Nat} {offset len : Nat} {bytes : List Nat}
    (h : readExact file offset len = .ok bytes) :
    bytes.length = len ∧ ∀ i < len, bytes[i]? = file[offset + i]? := by
  unfold readExact at h
  split_ifs at h with hfit
  cases h
  refine ⟨?_, fun i hi => by simp [hi, List.getElem?_drop]⟩
  rcases hfit with rfl | hfit
  · simp
  · simp only [List.length_take, List.length_drop]
    omega

/-- A successful fill writes the whole allocation: the segment's bytes of the file, then zeros. -/
theorem fillAllocation_run_ok {file : List Nat} {alloc : Allocation} {offset filesz : Nat}
    {p p' : Process} (h : (fillAllocation file alloc offset filesz).run p = .ok (.ok ()) p') :
    ∃ bs, (writeBytes alloc.start bs).run p.mem = .ok () p'.mem ∧ bs.length = alloc.layout.size ∧
      (∀ i < alloc.layout.size, bs[i]? = some (segmentByte file offset filesz i)) ∧
      p' = { p with mem := p'.mem } := by
  unfold fillAllocation at h
  split_ifs at h with hfit
  · cases h
  split at h <;> rename_i bytes hread
  · obtain ⟨_, _, -, h⟩ := run_bind_eq_ok h
    cases h
  obtain ⟨_, p₁, h₁, h⟩ := run_bind_eq_ok h
  cases h
  obtain ⟨hw, hp⟩ := Process.liftMem_run_eq_ok h₁
  obtain ⟨hlen, hbytes⟩ := readExact_eq_ok hread
  refine ⟨_, hw, by simp only [List.length_append, List.length_replicate]; omega, fun i hi => ?_, hp⟩
  unfold segmentByte
  by_cases hi' : i < filesz
  · -- a byte of the file
    have hsome : bytes[i]? = some bytes[i] := List.getElem?_eq_getElem (by omega)
    rw [List.getElem?_append_left (by omega), if_pos hi', ← hbytes i hi', hsome]
    rfl
  · -- a byte of the zeroed tail
    rw [List.getElem?_append_right (by omega), if_neg hi', List.getElem?_replicate, if_pos (by omega)]

/-- `p'` extends `p`: every page in use is kept, and every reserved segment and every region
    stays. -/
structure Process.Extends (p p' : Process) : Prop where
  kept : Kept p.mem p'.mem
  segments : ∀ x ∈ p.mem.vmm.segments, x ∈ p'.mem.vmm.segments
  regions : p.regions <+: p'.regions

instance : Std.Refl Process.Extends :=
  ⟨fun p => ⟨refl_of Kept p.mem, fun _ hx => hx, List.prefix_refl _⟩⟩

instance : IsTrans Process Process.Extends :=
  ⟨fun _ _ _ h₁ h₂ => ⟨trans_of Kept h₁.kept h₂.kept, fun x hx => h₂.segments x (h₁.segments x hx),
    h₁.regions.trans h₂.regions⟩⟩

/-- The regions of a process lie in reserved segments of its manager, each region as long as its
    segment, and no two of them intersect. -/
structure RegionsApart (p : Process) : Prop where
  reserved : ∀ r ∈ p.regions, r.segment ∈ p.mem.vmm.segments
  size_eq : ∀ r ∈ p.regions, r.size = r.segment.len
  apart : p.regions.Pairwise fun r r' => ¬ r.segment.Intersects r'.segment

/-- A run that extends the process and adds no region keeps the regions apart. -/
theorem RegionsApart.of_extends {p p' : Process} (h : p.Extends p') (hregions : p'.regions = p.regions)
    (ha : RegionsApart p) : RegionsApart p' := by
  obtain ⟨hreserved, hsize, hapart⟩ := ha
  exact ⟨fun r hr => h.segments _ (hreserved r (hregions ▸ hr)), fun r hr => hsize r (hregions ▸ hr),
    hregions ▸ hapart⟩

/-- What `load` made of a validated segment in the process `p`: the bytes of a private segment
    are resident, and a file-backed segment is one of the regions. -/
def SegmentLoaded (file : List Nat) (p : Process) : ValidatedSegment → Prop
  | .private vaddr layout offset filesz => ∀ i < layout.size,
    p.mem.Resident (vaddr.val + i) (segmentByte file offset filesz i) privateFlags
  | .mapped start len noExecute offset filesz =>
    ⟨⟨start.val, len⟩, len, mappedFlags noExecute, offset, filesz⟩ ∈ p.regions

theorem SegmentLoaded.of_extends {file : List Nat} {p p' : Process} (h : p.Extends p') :
    ∀ {seg : ValidatedSegment}, SegmentLoaded file p seg → SegmentLoaded file p' seg
  | .private .., hseg => fun i hi => (hseg i hi).of_kept h.kept
  | .mapped .., hseg => h.regions.subset hseg

/-- `allocate` followed by a successful fill, as for a private segment and for the TLS block: the
    allocation's bytes are the segment's, resident with `privateFlags`, and the process is
    extended in its memory only. -/
theorem allocate_fill_run_ok {file : List Nat} {location : Location} {layout : Layout}
    {offset filesz : Nat} {p p₁ p₂ : Process} {alloc : Allocation}
    (halloc : (allocate location layout .yes .no).run p.mem = .ok (some alloc) p₁.mem)
    (hp₁ : p₁ = { p with mem := p₁.mem })
    (h : (fillAllocation file alloc offset filesz).run p₁ = .ok (.ok ()) p₂) :
    p.Extends p₂ ∧ p₂ = { p with mem := p₂.mem } ∧ (∀ v, location = .fixed v → alloc.start = v.val) ∧
      ∀ i < layout.size, p₂.mem.Resident (alloc.start + i) (segmentByte file offset filesz i) privateFlags := by
  obtain ⟨hA, hlayout, hstart⟩ := allocate_run_some halloc
  obtain ⟨bs, hw, hlen, hbs, hp₂⟩ := fillAllocation_run_ok h
  obtain ⟨hkept, hres⟩ := hA.writeBytes_resident hlen hw
  have hp : p₂ = { p with mem := p₂.mem } := by rw [hp₂, hp₁]
  have hvmm := writeBytes_run_vmm hw
  refine ⟨⟨hkept, fun x hx => by rw [hvmm]; exact hA.segments x hx, hp ▸ List.prefix_refl _⟩,
    hp, hstart, fun i hi => ?_⟩
  exact hres i (hlayout ▸ hi) _ (hbs i (hlayout ▸ hi))

/-- A successful round of `load`'s loop loads its segment and extends the process; a file-backed
    segment's region is apart from the others, as its segment was free to reserve. -/
theorem loadSegment_run_ok {file : List Nat} {seg : ValidatedSegment} {p p' : Process}
    (h : (loadSegment file seg).run p = .ok (.ok ()) p') :
    p.Extends p' ∧ p'.tls = p.tls ∧ p'.fsBase = p.fsBase ∧ (RegionsApart p → RegionsApart p') ∧
      SegmentLoaded file p' seg := by
  cases seg with
  | «private» vaddr layout offset filesz =>
    rw [loadSegment] at h
    obtain ⟨r, p₁, h₁, h⟩ := run_bind_eq_ok h
    obtain ⟨halloc, hp₁⟩ := Process.liftMem_run_eq_ok h₁
    rcases r with _ | alloc
    · cases h
    obtain ⟨r, p₂, h₂, h⟩ := run_bind_eq_ok h
    rcases r with err | u
    · cases h
    obtain ⟨hext, hp, hstart, hres⟩ := allocate_fill_run_ok halloc hp₁ h₂
    -- the allocation joins the executable segments, which nothing here reads
    obtain ⟨_, p₃, h₃, h⟩ := run_bind_eq_ok h
    cases h
    cases h₃
    have hext' : p.Extends { p₂ with executableSegments := p₂.executableSegments ++ [alloc] } :=
      ⟨hext.kept, hext.segments, hext.regions⟩
    refine ⟨hext', by rw [hp], by rw [hp], fun ha => RegionsApart.of_extends hext' (by rw [hp]) ha,
      fun i hi => ?_⟩
    rw [← hstart vaddr rfl]
    exact hres i hi
  | mapped start len noExecute offset filesz =>
    rw [loadSegment] at h
    obtain ⟨r, p₁, h₁, h⟩ := run_bind_eq_ok h
    obtain ⟨hmark, hp₁⟩ := Process.liftMem_run_eq_ok h₁
    rcases r with err | u
    · cases h
    obtain ⟨vmm, hvmm, hmem⟩ := vmmMarkAsReserved_run_ok_ok hmark
    obtain ⟨hfree, rfl⟩ := VirtualMemoryManager.markAsReserved_eq_ok hvmm
    obtain ⟨_, p₂, h₂, h⟩ := run_bind_eq_ok h
    cases h
    cases h₂
    rw [hmem] at hp₁
    subst hp₁
    -- the new segment intersects no reserved segment, so no region's
    have hapart : ∀ e ∈ p.mem.vmm.segments, ¬ Segment.Intersects ⟨start.val, len⟩ e := fun e he hi => by
      have := Segment.overlaps_of_intersects hi
      rw [VirtualMemoryManager.findOverlapping_eq_none_iff.1 hfree e he] at this
      cases this
    refine ⟨⟨Kept.of_eq rfl rfl, fun x hx => mem_insertSegment.2 (.inr hx), List.prefix_append _ _⟩,
      rfl, rfl, fun ha => ⟨fun r hr => ?_, fun r hr => ?_, ?_⟩, List.mem_append_right _ (List.mem_singleton_self _)⟩
    · rcases List.mem_append.1 hr with hr | hr
      · exact mem_insertSegment.2 (.inr (ha.reserved r hr))
      · rw [List.mem_singleton.1 hr]
        exact mem_insertSegment.2 (.inl rfl)
    · rcases List.mem_append.1 hr with hr | hr
      · exact ha.size_eq r hr
      · rw [List.mem_singleton.1 hr]
    · refine List.pairwise_append.2 ⟨ha.apart, List.pairwise_singleton _ _, fun r hr r' hr' => ?_⟩
      rw [List.mem_singleton.1 hr']
      exact fun hi => hapart _ (ha.reserved r hr) hi.symm

/-- A successful run of `load`'s loop loads every segment and extends the process. -/
theorem loadSegments_run_ok {file : List Nat} :
    ∀ {segs : List ValidatedSegment} {p p' : Process}, (loadSegments file segs).run p = .ok (.ok ()) p' →
      p.Extends p' ∧ p'.tls = p.tls ∧ p'.fsBase = p.fsBase ∧ (RegionsApart p → RegionsApart p') ∧
        ∀ seg ∈ segs, SegmentLoaded file p' seg
  | [], p, p', h => by
    cases h
    exact ⟨refl_of Process.Extends p, rfl, rfl, id, fun _ h => absurd h List.not_mem_nil⟩
  | seg :: segs, p, p', h => by
    rw [loadSegments] at h
    obtain ⟨r, p₁, h₁, h⟩ := run_bind_eq_ok h
    rcases r with err | u
    · cases h
    obtain ⟨hext₁, htls₁, hfs₁, hap₁, hseg⟩ := loadSegment_run_ok h₁
    obtain ⟨hext, htls, hfs, hap, hsegs⟩ := loadSegments_run_ok h
    refine ⟨trans_of Process.Extends hext₁ hext, htls.trans htls₁, hfs.trans hfs₁, hap ∘ hap₁,
      fun s hs => ?_⟩
    -- the segment loaded first stays loaded through the rest of the loop
    rcases List.mem_cons.1 hs with rfl | hs
    · exact hseg.of_extends hext
    · exact hsegs s hs

/-- A successful TLS step in a process without a TLS block: the block's bytes are resident from
    the new `FS` base on, and the process is extended, with its regions as they were. -/
theorem loadTls_run_ok {file : List Nat} {tls : ValidatedTls} {p p' : Process} (hnone : p.tls = none)
    (h : (loadTls file tls).run p = .ok (.ok ()) p') :
    p.Extends p' ∧ p'.regions = p.regions ∧ ∀ i < tls.layout.size,
      p'.mem.Resident (p'.fsBase + i) (segmentByte file tls.offset tls.filesz i) privateFlags := by
  rw [loadTls] at h
  obtain ⟨r, p₁, h₁, h⟩ := run_bind_eq_ok h
  obtain ⟨halloc, hp₁⟩ := Process.liftMem_run_eq_ok h₁
  rcases r with _ | alloc
  · cases h
  obtain ⟨r, p₂, h₂, h⟩ := run_bind_eq_ok h
  rcases r with err | u
  · cases h
  obtain ⟨hext, hp, -, hres⟩ := allocate_fill_run_ok halloc hp₁ h₂
  -- there is no old block to drop
  have htls : p₂.tls = none := by
    rw [hp]
    exact hnone
  rw [run_get_bind, htls] at h
  cases h
  refine ⟨⟨hext.kept, hext.segments, hp ▸ List.prefix_refl _⟩, by rw [hp], hres⟩

/-- A successful `load` into a process without a TLS block returns the entry point, extends the
    process, keeps its regions apart, and leaves every validated segment loaded and the TLS
    block's bytes resident from `FS` on. -/
theorem load_run_ok {v : ValidatedExecutable} {file : List Nat} {p p' : Process} {entry : Nat}
    (hnone : p.tls = none) (h : (load v file).run p = .ok (.ok entry) p') :
    entry = v.entry ∧ p.Extends p' ∧ (RegionsApart p → RegionsApart p') ∧
      (∀ seg ∈ v.segments, SegmentLoaded file p' seg) ∧
      ∀ tls, v.tls = some tls → ∀ i < tls.layout.size,
        p'.mem.Resident (p'.fsBase + i) (segmentByte file tls.offset tls.filesz i) privateFlags := by
  rw [load] at h
  obtain ⟨r, p₁, h₁, h⟩ := run_bind_eq_ok h
  rcases r with err | u
  · cases h
  obtain ⟨hext₁, htls₁, -, hap₁, hsegs₁⟩ := loadSegments_run_ok h₁
  cases htv : v.tls with
  | none =>
    rw [htv] at h
    cases h
    exact ⟨rfl, hext₁, hap₁, hsegs₁, fun _ h => nomatch h⟩
  | some tls =>
    rw [htv] at h
    obtain ⟨r, p₂, h₂, h⟩ := run_bind_eq_ok h
    rcases r with err | u
    · cases h
    cases h
    obtain ⟨hext₂, hreg₂, hres⟩ := loadTls_run_ok (htls₁.trans hnone) h₂
    refine ⟨rfl, trans_of Process.Extends hext₁ hext₂,
      fun ha => RegionsApart.of_extends hext₂ hreg₂ (hap₁ ha), fun seg hs => (hsegs₁ seg hs).of_extends hext₂,
      fun tls' htls' => ?_⟩
    cases htls'
    exact hres

end Muffin.Exec
