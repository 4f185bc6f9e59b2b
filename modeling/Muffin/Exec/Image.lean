-- SUMMARY: `setup_user_image`: loading a validated executable, the user stack with its initial contents, the FX area, and what the image holds once it is resident, eagerly or through the pager.
import Muffin.Exec.PageIn
import Muffin.Syscall.InitialStack

/-!
# The user image

`setup_user_image` runs `load`, then allocates the task's user stack (256
pages with a guard page on each side), writes the process-entry stack into it,
and allocates the FX area with its initial FXSAVE image. Both callers, the
trampoline of a new process and `execve` after its teardown, call it on a task
without a TLS block, user stack or FX area, and a process without regions.

The main result follows one byte of the executable through all of this: the
bytes of a writable `LOAD` segment are resident once `setup_user_image`
returns, those of a read-only one once the pager has paged their page in, from
any later state whose regions start with the ones `load` registered; each holds
the file's byte at its offset, or zero past the file's part of the segment,
and its page gives the user the header's permissions. The TLS block's bytes
sit from `FS` on.
-/

namespace Muffin.Exec

open Rust X86 EStateM Mem ProcessMemory Process Syscall

/-- What `setup_user_image` reads and changes: the process, and the user stack and FX area of
    the task that runs it (its TLS block is the process's `tls`). -/
structure ImageState where
  process : Process
  ustack : Option Allocation
  fxArea : Option Allocation

/-- Run a computation on the process. -/
def onProcess {α : Type} (x : EStateM Panic Process α) : EStateM Panic ImageState α :=
  focus ImageState.process (fun t p => { t with process := p }) x

/-- Run `x` on the slice `[a, a + n)` of user memory, as a `from_raw_parts_mut(a, n)` does. -/
def onSlice {α : Type} (a n : Nat) (x : EStateM Panic (List Nat) α) :
    EStateM Panic ProcessMemory α := do
  let bytes ← readBytes a n
  match x.run bytes with
  | .ok r bytes' =>
    writeBytes a bytes'
    pure r
  | .error e bytes' =>
    writeBytes a bytes'
    throw e

/-- `Layout::new::<FxArea>()`: 512 bytes aligned to 16. -/
def fxAreaLayout : Layout := ⟨512, 16, ⟨4, rfl⟩, by decide⟩

/-- `INITIAL_FX_IMAGE`: zero but for FCW at offset 0, MXCSR at 24 and MXCSR_MASK at 28. -/
def INITIAL_FX_IMAGE : List Nat :=
  ((((((List.replicate 512 0).set 0 0x7F).set 1 0x03).set 24 0x80).set 25 0x1F).set 28 0xFF).set 29 0xFF

/-- `setup_user_image(process, task, validated, node, argv, envp)`: the entry `rip` and `rsp`. Setting
    `TS` in `CR0` is left out. -/
def setupUserImage (v : ValidatedExecutable) (file : List Nat) (argv envp : List (List Nat)) :
    EStateM Panic ImageState (Except LoadExecutableError (VirtAddr × VirtAddr)) := do
  match ← onProcess (load v file) with
  | .error e => return .error e
  | .ok entry =>
    match Layout.fromSizeAlign (PAGE_SIZE * 256) PAGE_SIZE with
    | .error _ => return .error .invalidSizeOrAlign
    | .ok layout =>
      let some ustack ← onProcess (liftMem (allocate .anywhere layout .yes .yes))
        | return .error .allocationFailed
      let ustackTop ← onProcess (liftMem (liftPanic (addrAdd ustack.start ustack.layout.size)))
      if ustackTop % 16 ≠ 0 then
        throw ⟨"assertion failed: ustack_top.is_aligned(16_u64)"⟩
      let r ← onProcess (liftMem (onSlice ustack.start ustack.layout.size
        (buildInitialStack ustackTop argv envp)))
      match r with
      | none =>
        -- the `?` drops the new stack's allocation
        onProcess (liftMem ustack.drop)
        return .error .allocationFailed
      | some rsp =>
        -- `*task.ustack().write() = Some(..)` drops the stack it replaces
        let t ← get
        set { t with ustack := some ustack }
        if let some old := t.ustack then
          onProcess (liftMem old.drop)
        let some fx ← onProcess (liftMem (allocate .anywhere fxAreaLayout .yes .no))
          | return .error .allocationFailed
        onProcess (liftMem (writeBytes fx.start INITIAL_FX_IMAGE))
        let t ← get
        set { t with fxArea := some fx }
        if let some old := t.fxArea then
          onProcess (liftMem old.drop)
        let entryAddr ← onProcess (liftMem (liftPanic (VirtAddr.new entry)))
        let rspAddr ← onProcess (liftMem (liftPanic (VirtAddr.new rsp)))
        return .ok (entryAddr, rspAddr)

/-! ## What a successful `setup_user_image` leaves -/

/-- A successful memory step of the process changed the process's memory only. -/
theorem onProcess_liftMem_run_eq_ok {α : Type} {x : EStateM Panic ProcessMemory α}
    {t t' : ImageState} {a : α} (h : (onProcess (liftMem x)).run t = .ok a t') :
    x.run t.process.mem = .ok a t'.process.mem ∧ t'.process.regions = t.process.regions ∧
      t'.process.fsBase = t.process.fsBase ∧ t'.ustack = t.ustack ∧ t'.fxArea = t.fxArea := by
  obtain ⟨p, hp, rfl⟩ := run_focus_eq_ok h
  obtain ⟨hx, hp'⟩ := Process.liftMem_run_eq_ok hp
  rw [hp']
  exact ⟨hx, rfl, rfl, rfl, rfl⟩

/-- A successful run on a slice read the slice, ran `x` on it and wrote back what `x` left. -/
theorem onSlice_run_ok {α : Type} {a n : Nat} {x : EStateM Panic (List Nat) α} {s s' : ProcessMemory}
    {r : α} (h : (onSlice a n x).run s = .ok r s') :
    ∃ bytes bytes', bytes.length = n ∧ x.run bytes = .ok r bytes' ∧ (writeBytes a bytes').run s = .ok () s' := by
  unfold onSlice at h
  obtain ⟨bytes, s₁, hread, hrest⟩ := run_bind_eq_ok h
  obtain ⟨rfl, hlen⟩ := readBytes_run_ok hread
  split at hrest <;> rename_i r' bytes' hx
  · obtain ⟨_, s₂, hwrite, hpure⟩ := run_bind_eq_ok hrest
    cases hpure
    exact ⟨bytes, bytes', hlen, hx, hwrite⟩
  · obtain ⟨_, s₂, -, hthrow⟩ := run_bind_eq_ok hrest
    cases hthrow

/-- A successful `setup_user_image` on a task without a TLS block, user stack or FX area extends
    the process without adding a region to those of `load`, and leaves every validated segment
    loaded and the TLS block's bytes resident from `FS` on: the stack and the FX area take fresh
    frames, and their writes stay inside them. -/
theorem setupUserImage_run_ok {v : ValidatedExecutable} {file : List Nat} {argv envp : List (List Nat)}
    {t t' : ImageState} {entry rsp : VirtAddr} (htls : t.process.tls = none) (hustack : t.ustack = none)
    (hfx : t.fxArea = none) (h : (setupUserImage v file argv envp).run t = .ok (.ok (entry, rsp)) t') :
    t.process.Extends t'.process ∧ (RegionsApart t.process → RegionsApart t'.process) ∧
      (∀ seg ∈ v.segments, SegmentLoaded file t'.process seg) ∧
      ∀ tls, v.tls = some tls → ∀ i < tls.layout.size, t'.process.mem.Resident (t'.process.fsBase + i)
        (segmentByte file tls.offset tls.filesz i) privateFlags := by
  unfold setupUserImage at h
  obtain ⟨r, t₁, hl, h₁⟩ := run_bind_eq_ok h
  obtain ⟨p₁, hload, rfl⟩ := run_focus_eq_ok hl
  rcases r with e | entry₀
  · cases h₁
  obtain ⟨-, hext₁, hap₁, hsegs₁, htls₁⟩ := load_run_ok htls hload
  dsimp only at h₁
  split at h₁
  · cases h₁
  rename_i layout hlayout
  -- the user stack
  obtain ⟨r, t₂, ha₂, h₂⟩ := run_bind_eq_ok h₁
  obtain ⟨halloc, hr₂, hfs₂, hu₂, hf₂⟩ := onProcess_liftMem_run_eq_ok ha₂
  rcases r with _ | ustack
  · cases h₂
  obtain ⟨hU, -, -⟩ := allocate_run_some halloc
  obtain ⟨top, t₃, ha₃, h₃⟩ := run_bind_eq_ok h₂
  obtain ⟨htop, hr₃, hfs₃, hu₃, hf₃⟩ := onProcess_liftMem_run_eq_ok ha₃
  obtain ⟨-, hm₃⟩ := liftPanic_run_ok htop
  split at h₃
  · obtain ⟨_, _, hthrow, -⟩ := run_bind_eq_ok h₃
    cases hthrow
  obtain ⟨r, t₄, ha₄, h₄⟩ := run_bind_eq_ok h₃
  obtain ⟨hslice, hr₄, hfs₄, hu₄, hf₄⟩ := onProcess_liftMem_run_eq_ok ha₄
  obtain ⟨bytes, stack, hbytes, hstack, hw₄⟩ := onSlice_run_ok hslice
  rcases r with _ | rsp₀
  · obtain ⟨_, _, -, hpure⟩ := run_bind_eq_ok h₄
    cases hpure
  -- there is no old stack to drop
  have hnone₄ : t₄.ustack = none := hu₄.trans (hu₃.trans (hu₂.trans hustack))
  rw [run_get_bind, run_set_bind, hnone₄] at h₄
  -- the FX area
  obtain ⟨r, t₅, ha₅, h₅⟩ := run_bind_eq_ok h₄
  obtain ⟨hallocF, hr₅, hfs₅, -, hf₅⟩ := onProcess_liftMem_run_eq_ok ha₅
  rcases r with _ | fx
  · cases h₅
  obtain ⟨hF, hFlayout, -⟩ := allocate_run_some hallocF
  obtain ⟨_, t₆, ha₆, h₆⟩ := run_bind_eq_ok h₅
  obtain ⟨hw₆, hr₆, hfs₆, -, hf₆⟩ := onProcess_liftMem_run_eq_ok ha₆
  have hnone₆ : t₆.fxArea = none := hf₆.trans (hf₅.trans (hf₄.trans (hf₃.trans (hf₂.trans hfx))))
  rw [run_get_bind, run_set_bind, hnone₆] at h₆
  -- the entry point and the stack pointer, which change nothing
  obtain ⟨_, t₇, ha₇, h₇⟩ := run_bind_eq_ok h₆
  obtain ⟨he₇, hr₇, hfs₇, -, -⟩ := onProcess_liftMem_run_eq_ok ha₇
  obtain ⟨-, hm₇⟩ := liftPanic_run_ok he₇
  obtain ⟨_, t₈, ha₈, h₈⟩ := run_bind_eq_ok h₇
  obtain ⟨hs₈, hr₈, hfs₈, -, -⟩ := onProcess_liftMem_run_eq_ok ha₈
  obtain ⟨-, hm₈⟩ := liftPanic_run_ok hs₈
  cases h₈
  -- both writes stay inside their fresh allocations
  have hlen : stack.length = ustack.layout.size :=
    (Moves.of_run_ok (buildInitialStack_moves top argv envp) hstack).trans hbytes
  rw [hm₃] at hw₄
  have hFlen : INITIAL_FX_IMAGE.length = fx.layout.size := by
    simp only [hFlayout, INITIAL_FX_IMAGE, List.length_set, List.length_replicate]
    rfl
  have hkept : Kept p₁.mem t'.process.mem := by
    rw [hm₈, hm₇]
    exact trans_of Kept (hU.writeBytes_resident hlen hw₄).1 (hF.writeBytes_resident hFlen hw₆).1
  have hsegs : ∀ x ∈ p₁.mem.vmm.segments, x ∈ t'.process.mem.vmm.segments := fun x hx => by
    rw [hm₈, hm₇, writeBytes_run_vmm hw₆]
    refine hF.segments x ?_
    rw [writeBytes_run_vmm hw₄]
    exact hU.segments x hx
  have hregions : t'.process.regions = p₁.regions :=
    hr₈.trans (hr₇.trans (hr₆.trans (hr₅.trans (hr₄.trans (hr₃.trans hr₂)))))
  have hfs : t'.process.fsBase = p₁.fsBase :=
    hfs₈.trans (hfs₇.trans (hfs₆.trans (hfs₅.trans (hfs₄.trans (hfs₃.trans hfs₂)))))
  have hext : p₁.Extends t'.process := ⟨hkept, hsegs, hregions ▸ List.prefix_refl _⟩
  refine ⟨trans_of Process.Extends hext₁ hext, fun ha => RegionsApart.of_extends hext hregions (hap₁ ha),
    fun seg hs => (hsegs₁ seg hs).of_extends hext, fun tls htv i hi => ?_⟩
  rw [hfs]
  exact (htls₁ tls htv i hi).of_kept hkept

/-! ## The image a user task sees -/

/-- The user may write to a page with `flags`: it is present, user accessible and writable. -/
def userWritable (flags : PageTableFlags) : Bool :=
  PageTableFlags.contains flags
    (PageTableFlags.PRESENT ||| PageTableFlags.USER_ACCESSIBLE ||| PageTableFlags.WRITABLE)

/-- The user may execute a page with `flags`: it is present and user accessible, and its
    `NO_EXECUTE` bit is clear. -/
def userExecutable (flags : PageTableFlags) : Bool :=
  PageTableFlags.contains flags (PageTableFlags.PRESENT ||| PageTableFlags.USER_ACCESSIBLE) &&
    !PageTableFlags.contains flags PageTableFlags.NO_EXECUTE

theorem userWritable_privateFlags : userWritable privateFlags = true := by decide

theorem userExecutable_privateFlags : userExecutable privateFlags = false := by decide

theorem userWritable_mappedFlags (noExecute : Bool) : userWritable (mappedFlags noExecute) = false := by
  cases noExecute <;> decide

theorem userExecutable_mappedFlags (noExecute : Bool) :
    userExecutable (mappedFlags noExecute) = !noExecute := by
  cases noExecute <;> decide

/-- Byte `i` of the segment of header `h` is resident in `s`: a user read at `h.vaddr + i` finds
    the file's byte, or zero past the file's part, through a page the user may write exactly when
    `h` is writable and execute exactly when `h` is executable. -/
def HeaderByteResident (file : List Nat) (s : ProcessMemory) (h : ProgramHeader) (i : Nat) : Prop :=
  s.userByte (h.vaddr + i) = some (segmentByte file h.offset h.filesz i) ∧
    ∃ flags, s.pt.translateFlags (pageOf (h.vaddr + i)) = some flags ∧
      userWritable flags = flagsContains h.flags PF_W ∧ userExecutable flags = flagsContains h.flags PF_X

theorem headerByteResident_of_resident {file : List Nat} {s : ProcessMemory} {h : ProgramHeader} {i : Nat}
    {flags : PageTableFlags} (hr : s.Resident (h.vaddr + i) (segmentByte file h.offset h.filesz i) flags)
    (hw : userWritable flags = flagsContains h.flags PF_W)
    (hx : userExecutable flags = flagsContains h.flags PF_X) : HeaderByteResident file s h i :=
  ⟨hr.userByte_eq.1, flags, hr.userByte_eq.2, hw, hx⟩

/-- Every byte of every `LOAD` header with memory of an executable `validate` accepted, once a
    successful `setup_user_image` has loaded it into a task without a TLS block, user stack or FX
    area: a writable header's bytes are resident, and a read-only header's once the pager has
    paged in their page, from any later process whose regions start with those of the image. The
    bytes of the `TLS` header sit from `FS` on. -/
theorem setupUserImage_segments_resident {elf : ElfFile} {v : ValidatedExecutable}
    (hv : validate elf = .ok v) {file : List Nat} {argv envp : List (List Nat)} {t t' : ImageState}
    {entry rsp : VirtAddr} (hapart : RegionsApart t.process) (htls : t.process.tls = none)
    (hustack : t.ustack = none) (hfx : t.fxArea = none)
    (hrun : (setupUserImage v file argv envp).run t = .ok (.ok (entry, rsp)) t') :
    (∀ h ∈ elf.programHeaders, h.typ = PT_LOAD → flagsContains h.flags PF_W = true →
      ∀ i < h.memsz, HeaderByteResident file t'.process.mem h i) ∧
    (∀ h ∈ elf.programHeaders, h.typ = PT_LOAD → flagsContains h.flags PF_W = false →
      ∀ i < h.memsz, ∀ (q q' : Process) (addr : Nat), t'.process.regions <+: q.regions →
        pageOf addr = pageOf (h.vaddr + i) → q.mem.pt.entry (pageOf addr) = none →
        (pageFaultPager file addr).run q = .ok none q' → HeaderByteResident file q'.mem h i) ∧
    ∀ h ∈ elf.programHeaders, h.typ = PT_TLS → ∀ i < h.memsz,
      t'.process.mem.userByte (t'.process.fsBase + i) = some (segmentByte file h.offset h.filesz i) := by
  obtain ⟨-, hap, hsegs, htlsr⟩ := setupUserImage_run_ok htls hustack hfx hrun
  have hapart' := hap hapart
  refine ⟨fun h hh htyp hw i hi => ?_, fun h hh htyp hw i hi q q' addr hpre hpage hunmapped hpager => ?_,
    fun h hh htyp i hi => ?_⟩
  · -- a writable header was copied into its allocation at its address
    obtain ⟨seg, hseg, hval⟩ := validate_load_header hv hh htyp (by omega)
    obtain ⟨-, -, ⟨-, hx, vaddr, layout, hvaddr, hsize, rfl⟩ | ⟨hw', -⟩⟩ := validateLoad_eq_some hval
    · have hres := hsegs _ hseg i (hsize ▸ hi)
      rw [hvaddr] at hres
      exact headerByteResident_of_resident hres (by rw [hw, userWritable_privateFlags])
        (by rw [hx, userExecutable_privateFlags])
    · rw [hw] at hw'
      cases hw'
  · -- a read-only header is a region, which the pager finds and pages in from the file
    obtain ⟨seg, hseg, hval⟩ := validate_load_header hv hh htyp (by omega)
    obtain ⟨-, hcong, ⟨hw', -⟩ | ⟨-, start, e, hstart, hend, he, rfl⟩⟩ := validateLoad_eq_some hval
    · rw [hw] at hw'
      cases hw'
    have hcontains : FileBackedRegion.contains ⟨⟨start.val, e - start.val⟩, e - start.val,
        mappedFlags (!flagsContains h.flags PF_X), h.offset - h.vaddr % PAGE_SIZE,
        h.vaddr % PAGE_SIZE + h.filesz⟩ addr = true := by
      have hp : PAGE_SIZE = 4096 := rfl
      unfold pageOf at hpage
      simp only [FileBackedRegion.contains, Bool.and_eq_true, decide_eq_true_eq]
      rw [hp] at hpage hstart he
      omega
    have hfind := regionFor_of_prefix hpre
      (regionFor_eq_of_mem hcontains hapart'.size_eq hapart'.apart (hsegs _ hseg))
    obtain ⟨-, hpagein⟩ := pageFaultPager_run_ok hfind hpager
    rw [hpage] at hpagein hunmapped
    exact headerByteResident_of_resident (pageIn_resident hcong hstart hunmapped hpagein)
      (by rw [hw, userWritable_mappedFlags]) (by rw [userExecutable_mappedFlags, Bool.not_not])
  · -- the TLS block
    obtain ⟨tls, htv, hsize, hoff, hfs⟩ := validate_tls_header hv hh htyp
    rw [← hoff, ← hfs]
    exact (htlsr tls htv i (hsize ▸ hi)).userByte_eq.1

end Muffin.Exec
