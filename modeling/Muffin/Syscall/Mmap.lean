-- SUMMARY: `sys_mmap` of `kernel_syscall`, generic over the memory-region access it is given, its kernel instance for anonymous mappings over `create_mapping`, and `dispatch_sys_mmap`.
import Muffin.Syscall.UserAccess
import Muffin.Lib.EStateM

/-!
# `mmap`

`sys_mmap` checks the length, the flags and the protection, and then either
creates an anonymous private mapping, at the caller's address for `MAP_FIXED`
or anywhere, or maps a file. It is generic over `MemoryRegionAccess`; the kernel
gives it `KernelAccess`, whose anonymous mappings are `create_mapping`
followed by tracking the mapping as a memory region of the process.

For `MAP_FIXED` the only check on the address is that it is not null and that
the range ends in the lower half: its alignment reaches the page-alignment
assertion of the kernel's `mark_as_reserved`.
-/

namespace Muffin.Syscall

open Rust X86 EStateM Mem ProcessMemory Abi

/-- `MapFlags::SHARED`. -/
def MAP_SHARED : Nat := 0x01

/-- `MapFlags::PRIVATE`. -/
def MAP_PRIVATE : Nat := 0x02

/-- `MapFlags::FIXED`. -/
def MAP_FIXED : Nat := 0x10

/-- `MapFlags::ANONYMOUS`. -/
def MAP_ANONYMOUS : Nat := 0x20

/-- `ProtFlags::READ`. -/
def PROT_READ : Nat := 0x1

/-- `ProtFlags::WRITE`. -/
def PROT_WRITE : Nat := 0x2

/-- `ProtFlags::EXEC`. -/
def PROT_EXEC : Nat := 0x4

/-- `from_bits` of a `bitflags` type whose flags are `all`: `None` when another bit is set. -/
def flagsFromBits (all bits : Nat) : Option Nat := if bits &&& all = bits then some bits else none

/-- `contains` of a `bitflags` type: every bit of `other` is set. -/
def flagsContains (flags other : Nat) : Bool := flags &&& other == other

/-- The operations of `MemoryRegionAccess` that `sys_mmap` calls, in the monad `m`. -/
structure MemoryRegionAccess (m : Type → Type) where
  createAndTrackMapping : MapLocation → Nat → m (Except CreateMappingError Nat)
  mapSharedFile : Int → Nat → m (Except Errno Nat)
  mapPrivateFile : Int → Nat → Nat → Nat → m (Except Errno Nat)

variable {m : Type → Type} [Monad m]

/-- An anonymous mapping, with `CreateMappingError` turned into an error number. -/
def mapAnonymous (cx : MemoryRegionAccess m) (location : MapLocation) (len : Nat) :
    m (Except Errno Nat) := do
  match ← cx.createAndTrackMapping location len with
  | .error .locationAlreadyMapped => return .error EINVAL
  | .error .outOfMemory => return .error ENOMEM
  | .ok addr => return .ok addr

/-- `sys_mmap`. `addr` has passed `UserspacePtr::try_from_usize`. -/
def sysMmap (cx : MemoryRegionAccess m) (addr len prot flags : Nat) (fd : Int) (offset : Nat) :
    m (Except Errno Nat) := do
  if len = 0 then
    return .error EINVAL
  let some flags := flagsFromBits (MAP_SHARED ||| MAP_PRIVATE ||| MAP_FIXED ||| MAP_ANONYMOUS) flags
    | return .error EINVAL
  let some prot := flagsFromBits (PROT_READ ||| PROT_WRITE ||| PROT_EXEC) prot
    | return .error EINVAL
  if flagsContains prot PROT_WRITE && flagsContains prot PROT_EXEC then
    return .error EINVAL
  if flagsContains flags MAP_ANONYMOUS then
    if !flagsContains flags MAP_PRIVATE then
      return .error EINVAL
    if flagsContains flags MAP_FIXED then
      if addr = 0 then
        return .error EINVAL
      let .ok () := validateRange addr len | return .error EINVAL
      mapAnonymous cx (.fixed addr) len
    else
      mapAnonymous cx .anywhere len
  else
    if fd < 0 then
      return .error EBADF
    if flagsContains flags MAP_FIXED then
      return .error EINVAL
    match flagsContains flags MAP_SHARED, flagsContains flags MAP_PRIVATE with
    | true, false =>
      if offset ≠ 0 then
        return .error EINVAL
      cx.mapSharedFile fd len
    | false, true => cx.mapPrivateFile fd len offset prot
    | _, _ => return .error EINVAL

-- ---------------------------------------------------------------------------
-- The kernel's instance
-- ---------------------------------------------------------------------------

/-- What the kernel's `MemoryRegionAccess` changes: the process's memory and the
    `MemoryRegion::Mapped` regions that anonymous mappings become. -/
structure MmProcess where
  mem : ProcessMemory
  mappings : List Mapping

/-- Run a computation on the process's memory. -/
def MmProcess.liftMem {α : Type} (x : EStateM Panic ProcessMemory α) : EStateM Panic MmProcess α :=
  focus MmProcess.mem (fun p mem => { p with mem := mem }) x

/-- `KernelAccess::create_and_track_mapping`: `create_mapping`, then the mapping becomes a
    tracked region. -/
def createAndTrackMapping (location : MapLocation) (size : Nat) :
    EStateM Panic MmProcess (Except CreateMappingError Nat) := do
  match ← MmProcess.liftMem (createMapping location size) with
  | .error e => return .error e
  | .ok mapping =>
    modify fun p => { p with mappings := p.mappings ++ [mapping] }
    return .ok mapping.addr

/-- The file-backed half of `KernelAccess` (`map_shared_file`, `map_private_file`), which reads
    the process's file descriptors and is left as a parameter. -/
structure FileMappings where
  mapSharedFile : Int → Nat → EStateM Panic MmProcess (Except Errno Nat)
  mapPrivateFile : Int → Nat → Nat → Nat → EStateM Panic MmProcess (Except Errno Nat)

/-- `KernelAccess` as a `MemoryRegionAccess`. -/
def kernelAccess (files : FileMappings) : MemoryRegionAccess (EStateM Panic MmProcess) where
  createAndTrackMapping := createAndTrackMapping
  mapSharedFile := files.mapSharedFile
  mapPrivateFile := files.mapPrivateFile

/-- `dispatch_sys_mmap`: the six argument registers. -/
def dispatchSysMmap (files : FileMappings) (addr len prot flags fd offset : Nat) :
    EStateM Panic MmProcess (Except Errno Nat) := do
  let .ok addr := tryFromUsize addr | return .error EINVAL
  let some prot := i32TryFromUsize prot | return .error EOVERFLOW
  let some flags := i32TryFromUsize flags | return .error EOVERFLOW
  let some fd := i32TryFromUsize fd | return .error EOVERFLOW
  sysMmap (kernelAccess files) addr len prot.toNat flags.toNat fd offset

-- ---------------------------------------------------------------------------
-- An unaligned `MAP_FIXED` address
-- ---------------------------------------------------------------------------

/-- A private anonymous `MAP_FIXED` request with a non-null address whose range `validate_range`
    accepts goes straight to `create_and_track_mapping` at that address, aligned or not. -/
theorem sysMmap_fixed (cx : MemoryRegionAccess m) {addr len : Nat} (hlen : len ≠ 0) (hnull : addr ≠ 0)
    (hrange : validateRange addr len = .ok ()) (fd : Int) (offset : Nat) :
    sysMmap cx addr len (PROT_READ ||| PROT_WRITE) (MAP_PRIVATE ||| MAP_ANONYMOUS ||| MAP_FIXED) fd
      offset = mapAnonymous cx (.fixed addr) len := by
  have hflags : flagsFromBits (MAP_SHARED ||| MAP_PRIVATE ||| MAP_FIXED ||| MAP_ANONYMOUS)
      (MAP_PRIVATE ||| MAP_ANONYMOUS ||| MAP_FIXED) = some 0x32 := by decide
  have hprot : flagsFromBits (PROT_READ ||| PROT_WRITE ||| PROT_EXEC) (PROT_READ ||| PROT_WRITE) =
      some 0x3 := by decide
  unfold sysMmap
  simp only [hlen, hflags, hprot, hnull, hrange, if_false]
  rfl

/-- `mmap(addr, len, PROT_READ | PROT_WRITE, MAP_PRIVATE | MAP_ANONYMOUS | MAP_FIXED, 0, 0)` with a
    lower-half range whose start is not page aligned panics the kernel, whatever the process. -/
theorem dispatchSysMmap_fixed_unaligned (files : FileMappings) {addr len : Nat} (s : MmProcess)
    (hnull : addr ≠ 0) (halign : addr % PAGE_SIZE ≠ 0) (hlen : len ≠ 0)
    (hrange : validateRange addr len = .ok ()) :
    (dispatchSysMmap files addr len (PROT_READ ||| PROT_WRITE) (MAP_PRIVATE ||| MAP_ANONYMOUS ||| MAP_FIXED)
      0 0).run s = .error ⟨"assertion failed: segment.start.is_aligned(Size4KiB::SIZE)"⟩ s := by
  have hend := lt_of_validateRange hrange
  have hlimits := halves_eq
  have hcreate := @createMapping_fixed_unaligned addr len (by omega) halign
    (by unfold PAGE_SIZE; omega) s.mem
  have hprot : i32TryFromUsize (PROT_READ ||| PROT_WRITE) = some ((PROT_READ ||| PROT_WRITE : Nat) : Int) :=
    if_pos (by decide)
  have hflags : i32TryFromUsize (MAP_PRIVATE ||| MAP_ANONYMOUS ||| MAP_FIXED) =
      some ((MAP_PRIVATE ||| MAP_ANONYMOUS ||| MAP_FIXED : Nat) : Int) := if_pos (by decide)
  have hfd : i32TryFromUsize 0 = some ((0 : Nat) : Int) := if_pos (by decide)
  unfold dispatchSysMmap
  simp only [tryFromUsize_of_lt (show addr < LOWER_HALF_END by omega), hprot, hflags, hfd,
    Int.toNat_natCast]
  rw [sysMmap_fixed _ hlen hnull hrange]
  unfold mapAnonymous
  simp only [kernelAccess, createAndTrackMapping, MmProcess.liftMem, EStateM.run_bind,
    run_focus_error hcreate]

/-- `mmap(0x1001, 0x1000, PROT_READ | PROT_WRITE, MAP_PRIVATE | MAP_ANONYMOUS | MAP_FIXED, 0, 0)`
    in a process with nothing mapped. -/
theorem mmap_fixed_0x1001_panics :
    (dispatchSysMmap ⟨fun _ _ => pure (.error ENODEV), fun _ _ _ _ => pure (.error ENODEV)⟩ 0x1001
      0x1000 (PROT_READ ||| PROT_WRITE) (MAP_PRIVATE ||| MAP_ANONYMOUS ||| MAP_FIXED) 0 0).run
        ⟨unmappedMemory, []⟩ =
      .error ⟨"assertion failed: segment.start.is_aligned(Size4KiB::SIZE)"⟩ ⟨unmappedMemory, []⟩ :=
  dispatchSysMmap_fixed_unaligned _ _ (by decide) (by decide) (by decide) (by decide)


-- ---------------------------------------------------------------------------
-- A reservation whose end check leaves the canonical range
-- ---------------------------------------------------------------------------

/-- A private anonymous request without `MAP_FIXED` goes to `create_and_track_mapping` anywhere,
    whatever the address hint. -/
theorem sysMmap_anywhere (cx : MemoryRegionAccess m) {len : Nat} (addr : Nat) (hlen : len ≠ 0)
    (fd : Int) (offset : Nat) :
    sysMmap cx addr len (PROT_READ ||| PROT_WRITE) (MAP_PRIVATE ||| MAP_ANONYMOUS) fd offset =
      mapAnonymous cx .anywhere len := by
  have hflags : flagsFromBits (MAP_SHARED ||| MAP_PRIVATE ||| MAP_FIXED ||| MAP_ANONYMOUS)
      (MAP_PRIVATE ||| MAP_ANONYMOUS) = some 0x22 := by decide
  have hprot : flagsFromBits (PROT_READ ||| PROT_WRITE ||| PROT_EXEC) (PROT_READ ||| PROT_WRITE) =
      some 0x3 := by decide
  unfold sysMmap
  simp only [hlen, hflags, hprot, if_false]
  rfl

/-- `mmap(addr, len, PROT_READ | PROT_WRITE, MAP_PRIVATE | MAP_ANONYMOUS, 0, 0)` with a lower-half
    hint: when `reserve` panics on the rounded-up length, so does the kernel, before anything
    changes. -/
theorem dispatchSysMmap_anywhere_of_reserve_error (files : FileMappings) {addr len pageAlignedSize : Nat}
    {p : Panic} (s : MmProcess) (haddr : addr < LOWER_HALF_END) (hlen : len ≠ 0)
    (hp : checkedNextMultipleOf len PAGE_SIZE = some pageAlignedSize)
    (hreserve : s.mem.vmm.reserve (pageAlignedSize / PAGE_SIZE * 4096) = .error p) :
    (dispatchSysMmap files addr len (PROT_READ ||| PROT_WRITE) (MAP_PRIVATE ||| MAP_ANONYMOUS) 0 0).run s =
      .error p s := by
  have hcreate := createMapping_anywhere_of_reserve_error hp hreserve
  have hprot : i32TryFromUsize (PROT_READ ||| PROT_WRITE) = some ((PROT_READ ||| PROT_WRITE : Nat) : Int) :=
    if_pos (by decide)
  have hflags : i32TryFromUsize (MAP_PRIVATE ||| MAP_ANONYMOUS) =
      some ((MAP_PRIVATE ||| MAP_ANONYMOUS : Nat) : Int) := if_pos (by decide)
  have hfd : i32TryFromUsize 0 = some ((0 : Nat) : Int) := if_pos (by decide)
  unfold dispatchSysMmap
  simp only [tryFromUsize_of_lt haddr, hprot, hflags, hfd, Int.toNat_natCast]
  rw [sysMmap_anywhere _ _ hlen]
  unfold mapAnonymous
  simp only [kernelAccess, createAndTrackMapping, MmProcess.liftMem, EStateM.run_bind,
    run_focus_error hcreate]

/-- `mmap(0, 2 ^ 47, PROT_READ | PROT_WRITE, MAP_PRIVATE | MAP_ANONYMOUS, 0, 0)` in a process with
    nothing mapped: no range of that length fits the window, but instead of `ENOMEM` the kernel
    panics in `reserve`. -/
theorem mmap_anywhere_2pow47_panics :
    (dispatchSysMmap ⟨fun _ _ => pure (.error ENODEV), fun _ _ _ _ => pure (.error ENODEV)⟩ 0
      0x8000_0000_0000 (PROT_READ ||| PROT_WRITE) (MAP_PRIVATE ||| MAP_ANONYMOUS) 0 0).run
        ⟨unmappedMemory, []⟩ =
      .error ⟨"attempt to add resulted in non-canonical virtual address"⟩ ⟨unmappedMemory, []⟩ :=
  dispatchSysMmap_anywhere_of_reserve_error _ _ (by decide) (by decide) rfl
    (VirtualMemoryManager.reserve_eq_error_of_not_canonical rfl (by decide) (by decide) (by decide)
      (by decide) (by decide))

end Muffin.Syscall
