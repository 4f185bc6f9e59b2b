-- SUMMARY: How system calls reach user memory: the pointer checks of `UserspacePtr`, the page-table checks of the address space, `write_user`, which checks before it writes, and `sys_getcwd`, which writes through a pointer it only checked for bit 63.
import Muffin.Abi.Errno
import Muffin.Mem.Space

/-!
# User memory in system calls

A kernel access to a user page that is not mapped faults in Ring 0, and
`page_fault_classify` looks up the memory region of the address: a lazy or
file-backed region is paged in and the access runs again, any other region
terminates the task, and where no region backs the address the kernel panics.
So every system call has to establish that a user range is mapped, or backed
by a region, before it touches it.

The checks it has for that differ. `UserspaceMutPtr::try_from_usize` looks at
bit 63 only, `validate_range` at the end of the range only, and
`is_user_writable` at the page-table entry of every page. `write_user` makes all
three before it writes (`writeUser_ok`); `sys_getcwd` builds a raw slice from a
pointer that passed the first alone and writes the path into it.
-/

namespace Muffin.Syscall

open Rust X86 Mem ProcessMemory Abi

/-- `NotUserspace`: the address that failed a check. -/
structure NotUserspace where
  addr : Nat
  deriving DecidableEq, Repr

/-- `is_upper_half`: an error for a non-canonical address. -/
def isUpperHalf (addr : Nat) : Except NotUserspace Bool :=
  match VirtAddr.tryNew addr with
  | .ok v => .ok (decide (UPPER_HALF_START ≤ v.val))
  | .error _ => .error ⟨addr⟩

/-- `UserspaceMutPtr::try_from_usize`: only bit 63 is tested. -/
def tryFromUsizeMut (ptr : Nat) : Except NotUserspace Nat :=
  if ptr &&& 2 ^ 63 ≠ 0 then .error ⟨ptr⟩ else .ok ptr

/-- `UserspacePtr::try_from_usize`: the address must be canonical and in the lower half. -/
def tryFromUsize (ptr : Nat) : Except NotUserspace Nat :=
  match isUpperHalf ptr with
  | .ok false => .ok ptr
  | .ok true => .error ⟨ptr⟩
  | .error e => .error e

/-- `validate_range(size)`: the end `start + size` must not overflow and must be a canonical
    lower-half address. -/
def validateRange (start size : Nat) : Except NotUserspace Unit :=
  match checkedAdd start size with
  | none => .error ⟨start⟩
  | some e =>
    match isUpperHalf e with
    | .ok true => .error ⟨e⟩
    | .ok false => .ok ()
    | .error err => .error err

/-- `is_user_accessible`: every page of `[addr, addr + len)` is mapped with all of `required`. -/
def isUserAccessible (pt : PageTables) (addr len : Nat) (required : PageTableFlags) : Bool :=
  if len = 0 then true
  else
    match checkedAdd addr (len - 1) with
    | none => false
    | some last =>
      match VirtAddr.tryNew last with
      | .error _ => false
      | .ok _ =>
        (pagesOf addr len).all fun p =>
          match pt.translateFlags p with
          | some flags => PageTableFlags.contains flags required
          | none => false

/-- `is_user_writable`. -/
def isUserWritable (pt : PageTables) (addr len : Nat) : Bool :=
  isUserAccessible pt addr len
    (PageTableFlags.PRESENT ||| PageTableFlags.WRITABLE ||| PageTableFlags.USER_ACCESSIBLE)

/-- `write_user(addr, value)`, for the bytes of the value. -/
def writeUser (addr : Nat) (bytes : List Nat) : EStateM Panic ProcessMemory (Except Errno Unit) := do
  let .ok ptr := tryFromUsizeMut addr | return .error EFAULT
  let .ok () := validateRange ptr bytes.length | return .error EFAULT
  let .ok vaddr := VirtAddr.tryNew addr | return .error EFAULT
  let s ← get
  if !isUserWritable s.pt vaddr.val bytes.length then
    return .error EFAULT
  writeBytes addr bytes
  return .ok ()

-- ---------------------------------------------------------------------------
-- Faults of the kernel on user addresses
-- ---------------------------------------------------------------------------

/-- The variants of `MemoryRegion`, as `page_fault_classify` and `page_fault_pager` match on
    them. -/
inductive RegionKind where
  | lazy
  | fileBacked
  | mapped
  | shared
  deriving DecidableEq, Repr

/-- A memory region of the process: its range and its variant. -/
structure Region where
  start : Nat
  size : Nat
  kind : RegionKind
  deriving DecidableEq, Repr

/-- `MemoryRegion::contains`. -/
def Region.contains (r : Region) (a : Nat) : Bool :=
  decide (r.start ≤ a) && decide (a < r.start + r.size)

/-- `MemoryRegions::region_for`: the first region that contains the address. -/
def regionFor (regions : List Region) (a : Nat) : Option Region :=
  regions.find? fun r => r.contains a

/-- What `page_fault_classify` does next. -/
inductive FaultAction where
  /-- Return to `page_fault_pager` on the task's kernel stack. -/
  | pageIn (r : Region)
  /-- `terminate_faulting_task`: from Ring 0 the task is marked and halts, and the access never
      completes. -/
  | terminate
  | panic
  deriving DecidableEq, Repr

/-- `page_fault_classify` for a fault in Ring 0 on a page that is not present, outside the guard
    page of the kernel stack; `stackUsable` is whether `pager_stack_top` finds the stack pointer
    in the mapped kernel stack. -/
def classifyKernelFault (regions : List Region) (stackUsable : Bool) (a : Nat) : FaultAction :=
  match regionFor regions a with
  | some r =>
    match r.kind with
    | .lazy | .fileBacked => if stackUsable then .pageIn r else .terminate
    | .mapped | .shared => .terminate
  | none => .panic

/-- A byte the kernel stores at the user address `a` on behalf of a system call. On a page that
    is not mapped the store faults and `page_fault_classify` decides. `page_fault_pager` runs
    `pager`, which is `map_zeroed` or `page_in` of the region and answers whether the page is now
    mapped; then the store runs again, and a failed page-in terminates the task. A system call
    runs on its task's kernel stack, which `pager_stack_top` accepts. `none` is the terminated
    task, which never returns to the system call. -/
def storeUserByte (regions : List Region) (pager : Region → Nat → EStateM Panic ProcessMemory Bool)
    (a b : Nat) : EStateM Panic ProcessMemory (Option Unit) := do
  let s ← get
  match s.pt.entry (pageOf a) with
  | some _ =>
    writeByte a b
    return some ()
  | none =>
    match classifyKernelFault regions true a with
    | .panic => throw ⟨"EXCEPTION: PAGE FAULT"⟩
    | .terminate => return none
    | .pageIn r =>
      if ← pager r (pageOf a) then
        writeByte a b
        return some ()
      else
        return none

/-- Stores of the kernel at `a`, `a + 1`, …, up to a store that terminates the task. -/
def storeUserBytes (regions : List Region) (pager : Region → Nat → EStateM Panic ProcessMemory Bool) :
    Nat → List Nat → EStateM Panic ProcessMemory (Option Unit)
  | _, [] => return some ()
  | a, b :: bs => do
    let some () ← storeUserByte regions pager a b | return none
    storeUserBytes regions pager (a + 1) bs

/-- `sys_getcwd`: copy the working directory and a terminating zero into a raw slice of `size`
    bytes at `buf`; `none` when a store terminated the task. -/
def sysGetcwd (regions : List Region) (pager : Region → Nat → EStateM Panic ProcessMemory Bool)
    (cwd : List Nat) (buf size : Nat) : EStateM Panic ProcessMemory (Option (Except Errno Nat)) := do
  if buf = 0 then
    return some (.error EINVAL)
  if size = 0 then
    return some (.error EINVAL)
  let bytelen := cwd.length
  if size ≤ bytelen then
    return some (.error ERANGE)
  -- the `zip` of the slice with the path writes the whole path, then `slice[bytelen] = 0`
  let some () ← storeUserBytes regions pager buf cwd | return none
  let some () ← storeUserByte regions pager (buf + bytelen) 0 | return none
  return some (.ok buf)

/-- `dispatch_sys_getcwd`: `NotUserspace` converts to `EINVAL`. -/
def dispatchSysGetcwd (regions : List Region) (pager : Region → Nat → EStateM Panic ProcessMemory Bool)
    (cwd : List Nat) (path size : Nat) : EStateM Panic ProcessMemory (Option (Except Errno Nat)) :=
  match tryFromUsizeMut path with
  | .error _ => return some (.error EINVAL)
  | .ok ptr => sysGetcwd regions pager cwd ptr size

-- ---------------------------------------------------------------------------
-- The pointer checks
-- ---------------------------------------------------------------------------

/-- `is_upper_half` answers `false` exactly on the lower half. -/
theorem isUpperHalf_eq_ok_false {a : Nat} : isUpperHalf a = .ok false ↔ a < LOWER_HALF_END := by
  obtain ⟨h₁, h₂, -⟩ := halves_eq
  constructor
  · intro h
    unfold isUpperHalf at h
    split at h <;> rename_i v hv
    · have hlt : ¬UPPER_HALF_START ≤ v.val := by simpa using h
      rw [← VirtAddr.tryNew_val hv]
      rcases v.canonical with hc | hc
      · exact hc
      · exact absurd hc.1 hlt
    · cases h
  · intro h
    unfold isUpperHalf
    rw [VirtAddr.tryNew_lower h]
    simp only [Except.ok.injEq, decide_eq_false_iff_not, Nat.not_le]
    omega

theorem tryFromUsize_of_lt {ptr : Nat} (h : ptr < LOWER_HALF_END) : tryFromUsize ptr = .ok ptr := by
  unfold tryFromUsize
  rw [isUpperHalf_eq_ok_false.2 h]

/-- A range that `validate_range` accepts ends in the lower half. -/
theorem lt_of_validateRange {start size : Nat} (h : validateRange start size = .ok ()) :
    start + size < LOWER_HALF_END := by
  unfold validateRange at h
  split at h <;> rename_i e he
  · cases h
  · obtain ⟨-, rfl⟩ := checkedAdd_eq_some.1 he
    split at h <;> rename_i hup
    · cases h
    · exact isUpperHalf_eq_ok_false.1 hup
    · cases h

-- ---------------------------------------------------------------------------
-- `write_user` cannot fault
-- ---------------------------------------------------------------------------

/-- A range that `is_user_accessible` accepts has a page-table entry for each of its bytes. -/
theorem entry_isSome_of_isUserAccessible {pt : PageTables} {addr len : Nat}
    {required : PageTableFlags} (h : isUserAccessible pt addr len required = true) {i : Nat}
    (hi : i < len) : (pt.entry (pageOf (addr + i))).isSome := by
  unfold isUserAccessible at h
  rw [if_neg (by omega)] at h
  split at h
  · cases h
  · split at h
    · cases h
    · have hp := List.all_eq_true.1 h _ (mem_pagesOf hi)
      unfold PageTables.translateFlags at hp
      cases he : pt.entry (pageOf (addr + i)) with
      | none => simp [he] at hp
      | some e => rfl

/-- `write_user` never faults: on every address and every state it either writes or returns
    `EFAULT`. -/
theorem writeUser_ok (addr : Nat) (bytes : List Nat) (s : ProcessMemory) :
    ∃ r s', (writeUser addr bytes).run s = .ok r s' := by
  unfold writeUser
  -- each failed check returns at once; past them every byte's page is mapped
  split
  · split
    · split
      · rename_i vaddr hv
        simp only [EStateM.run_bind, EStateM.run_get]
        split <;> rename_i hw
        · exact ⟨_, _, rfl⟩
        · have hmapped : ∀ i < bytes.length, (s.pt.entry (pageOf (addr + i))).isSome := by
            intro i hi
            have hw' : isUserWritable s.pt vaddr.val bytes.length = true := by simpa using hw
            rw [← VirtAddr.tryNew_val hv]
            exact entry_isSome_of_isUserAccessible hw' hi
          obtain ⟨s', hrun, -⟩ := writeBytes_run_of_mapped hmapped
          exact ⟨_, s', by rw [EStateM.run_bind, hrun]; rfl⟩
      · exact ⟨_, _, rfl⟩
    · exact ⟨_, _, rfl⟩
  · exact ⟨_, _, rfl⟩

-- ---------------------------------------------------------------------------
-- `getcwd` writes through an unchecked pointer
-- ---------------------------------------------------------------------------

/-- A store on a page that is not mapped, at an address no memory region covers, panics. -/
theorem storeUserByte_run_of_no_region {regions : List Region}
    {pager : Region → Nat → EStateM Panic ProcessMemory Bool} {a b : Nat} {s : ProcessMemory}
    (hunmapped : s.pt.entry (pageOf a) = none) (hnone : regionFor regions a = none) :
    (storeUserByte regions pager a b).run s = .error ⟨"EXCEPTION: PAGE FAULT"⟩ s := by
  have hc : classifyKernelFault regions true a = .panic := by
    unfold classifyKernelFault; rw [hnone]
  unfold storeUserByte
  simp only [EStateM.run_bind, EStateM.run_get, hunmapped, hc]
  rfl

/-- A store on a page that is not mapped, in a mapped or shared region, terminates the task; the
    kernel does not panic. -/
theorem storeUserByte_run_of_eager_region {regions : List Region}
    {pager : Region → Nat → EStateM Panic ProcessMemory Bool} {a b : Nat} {s : ProcessMemory}
    {r : Region} (hunmapped : s.pt.entry (pageOf a) = none) (hr : regionFor regions a = some r)
    (hkind : r.kind = .mapped ∨ r.kind = .shared) :
    (storeUserByte regions pager a b).run s = .ok none s := by
  have hc : classifyKernelFault regions true a = .terminate := by
    unfold classifyKernelFault; rw [hr]
    rcases hkind with h | h <;> simp [h]
  unfold storeUserByte
  simp only [EStateM.run_bind, EStateM.run_get, hunmapped, hc]
  rfl

/-- A store on a page that is not mapped, in a lazy or file-backed region whose page-in maps the
    page, completes on the paged-in page. -/
theorem storeUserByte_run_of_pageIn {regions : List Region}
    {pager : Region → Nat → EStateM Panic ProcessMemory Bool} {a b : Nat} {s s' : ProcessMemory}
    {r : Region} {e : Pte} (hunmapped : s.pt.entry (pageOf a) = none)
    (hr : regionFor regions a = some r) (hkind : r.kind = .lazy ∨ r.kind = .fileBacked)
    (hpager : (pager r (pageOf a)).run s = .ok true s') (hmapped : s'.pt.entry (pageOf a) = some e) :
    (storeUserByte regions pager a b).run s =
      .ok (some ()) { s' with phys := s'.phys.write e.frame (a % PAGE_SIZE) b } := by
  have hc : classifyKernelFault regions true a = .pageIn r := by
    unfold classifyKernelFault; rw [hr]
    rcases hkind with h | h <;> simp [h]
  unfold storeUserByte
  simp only [EStateM.run_bind, EStateM.run_get, hunmapped, hc]
  rw [hpager]
  simp only [if_true, EStateM.run_bind, writeByte_run_of_mapped hmapped]
  rfl

/-- `getcwd` writes into any buffer below bit 63 that is large enough, mapped or not: when the
    first page of the buffer is not mapped and no memory region covers it, the kernel's first
    write faults and the fault handler panics. -/
theorem dispatchSysGetcwd_unmapped {cwd : List Nat} {path size : Nat} (regions : List Region)
    (pager : Region → Nat → EStateM Panic ProcessMemory Bool) (s : ProcessMemory)
    (hbit : path < 2 ^ 63) (hnull : path ≠ 0) (hsize : cwd.length < size) (hcwd : cwd ≠ [])
    (hunmapped : s.pt.entry (pageOf path) = none) (hnone : regionFor regions path = none) :
    (dispatchSysGetcwd regions pager cwd path size).run s = .error ⟨"EXCEPTION: PAGE FAULT"⟩ s := by
  have hptr : tryFromUsizeMut path = .ok path := by
    unfold tryFromUsizeMut
    rw [if_neg (not_not.2 (and_two_pow_of_lt hbit))]
  obtain ⟨c, cs, rfl⟩ := List.exists_cons_of_ne_nil hcwd
  unfold dispatchSysGetcwd
  rw [hptr]
  unfold sysGetcwd
  simp only [hnull, if_false, show size ≠ 0 by omega, show ¬ size ≤ (c :: cs).length by omega]
  unfold storeUserBytes
  simp only [EStateM.run_bind, storeUserByte_run_of_no_region hunmapped hnone]

/-- An address space with nothing mapped. -/
def unmappedMemory : ProcessMemory :=
  ⟨⟨⟨[]⟩, fun _ _ => 0⟩, ⟨fun _ => none, fun _ _ => false⟩, ⟨0x1_0000_0000, 0x7F00_0000_0000, []⟩⟩

/-- `getcwd(0x1000, 2)` with the working directory `/` in a process that has nothing mapped at
    `0x1000` and no memory region. -/
theorem getcwd_unmapped_buffer_faults :
    (dispatchSysGetcwd [] (fun _ _ => pure false) [0x2F] 0x1000 2).run unmappedMemory =
      .error ⟨"EXCEPTION: PAGE FAULT"⟩ unmappedMemory :=
  dispatchSysGetcwd_unmapped [] (fun _ _ => pure false) unmappedMemory (by decide) (by decide)
    (by decide) (by simp) rfl rfl

end Muffin.Syscall
