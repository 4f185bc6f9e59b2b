-- SUMMARY: The ext2 file system of `kernel_ext2` on a block device: the superblock and the block group descriptors as the arrays their bytefields convert to, `Ext2Fs::try_new`, block reads and writes, and the allocation of blocks and inodes through the group bitmaps, with what an allocation writes to the device.
import Muffin.Lib.Bytes
import Muffin.Lib.EStateM
import Muffin.Lib.Rust

/-!
# ext2: superblock, descriptors and allocation

An `Ext2Fs` holds its block device, and the superblock and the table of block
group descriptors it read when it was created. Both structs are `bytefield`s:
each field is a range of bytes at a fixed offset, read from an array and written
back to one as a little-endian integer. A struct is kept here as the array it
converts back to, that is the bytes its fields cover with zeros between them,
which is what `From<&Superblock>` writes.

`allocate_block` and `allocate_inode` share `allocate_resource`. For each group
in turn it looks for the first clear bit of the group's bitmap block. For the
first group that has one, it decrements the descriptor's and the superblock's
counters of free blocks, writes both back, and returns `group * per_group + bit`.
The bitmap is read into a buffer and the bit is set in that buffer only, which
is dropped when the function returns: an allocation writes the superblock and
the descriptor table and no other byte of the device (`allocateBlock_data_kept`).

Within the crate every `Err` is passed on with `?`. A run here ends on the first
`Err` or panic, and keeps the state it reached.
-/

namespace Muffin.Ext2

open Rust Bytes EStateM

/-- `kernel_ext2::Error`. -/
inductive Error where
  | invalidSuperblock
  | unableToReadSuperblock
  | unableToWriteSuperblock
  | unableToReadBlockGroupDescriptorTable
  | unableToWriteBlockGroupDescriptorTable
  | notDirectory
  | notRegularFile
  | deviceRead
  | deviceWrite
  | invalidInodeAddress (addr : Nat)
  | invalidBlockIndex (index : Nat)
  | noSpace
  | notSupported
  | entryExists
  deriving DecidableEq, Repr

/-- How a call into the crate ends early: an `Err` passed on with `?`, or a panic. -/
inductive Exit where
  | error (e : Error)
  | panic (p : Panic)
  deriving DecidableEq, Repr

-- ---------------------------------------------------------------------------
-- The block device
-- ---------------------------------------------------------------------------

/-- `BlockDevice::read_at` on a device whose bytes are `device`: the `len` bytes at `off`, and
    an error for a read past the end. A read of nothing succeeds anywhere. -/
def readAt (device : List Nat) (off len : Nat) : Option (List Nat) :=
  if len = 0 then some []
  else if off + len ≤ device.length then some (slice device off len) else none

/-- `BlockDevice::write_at`: the device with `bytes` at `off`, and an error for a write past
    the end. -/
def writeAt (device : List Nat) (off : Nat) (bytes : List Nat) : Option (List Nat) :=
  if bytes = [] then some device
  else if off + bytes.length ≤ device.length then some (overwrite device off bytes) else none

theorem readAt_eq_some {device bytes : List Nat} {off len : Nat}
    (h : readAt device off len = some bytes) :
    bytes = slice device off len ∧ (len = 0 ∨ off + len ≤ device.length) := by
  unfold readAt at h
  split_ifs at h with h₀ h₁ <;> cases h
  · exact ⟨by simp [h₀, slice], .inl h₀⟩
  · exact ⟨rfl, .inr h₁⟩

theorem readAt_of_le {device : List Nat} {off len : Nat} (h : off + len ≤ device.length) :
    readAt device off len = some (slice device off len) := by
  unfold readAt
  split_ifs with h₀
  · simp [h₀, slice]
  · rfl

theorem length_le_of_readAt {device bytes : List Nat} {off len : Nat}
    (h : readAt device off len = some bytes) : bytes.length ≤ len := by
  obtain ⟨rfl, -⟩ := readAt_eq_some h
  simp [slice]

/-- A write changes the bytes it covers and no other, and keeps the device's size. -/
theorem writeAt_frame {device device' bytes : List Nat} {off : Nat}
    (h : writeAt device off bytes = some device') :
    device'.length = device.length ∧
      ∀ i, (i < off ∨ off + bytes.length ≤ i) → device'[i]? = device[i]? := by
  unfold writeAt at h
  split_ifs at h with h₀ h₁ <;> cases h
  · exact ⟨rfl, fun _ _ => rfl⟩
  · exact ⟨length_overwrite h₁, fun i hi => getElem?_overwrite_of_not_mem (by omega) hi⟩

/-- Writing back the bytes a read returned leaves the device as it was. -/
theorem writeAt_of_readAt {device bytes : List Nat} {off len : Nat}
    (h : readAt device off len = some bytes) : writeAt device off bytes = some device := by
  obtain ⟨rfl, hlen⟩ := readAt_eq_some h
  unfold writeAt
  rcases hlen with h₀ | hfit
  · simp [h₀, slice]
  · split_ifs with h₁ h₂
    · rfl
    · rw [overwrite_slice_self hfit]
    · exact absurd (by rw [length_slice_of_le hfit]; exact hfit) h₂

/-- A read that returned some bytes was inside the device. -/
theorem readAt_fits {device bytes : List Nat} {off len : Nat} (h : readAt device off len = some bytes)
    (hne : bytes ≠ []) : bytes.length = len ∧ off + len ≤ device.length := by
  obtain ⟨rfl, hfit⟩ := readAt_eq_some h
  rcases hfit with h₀ | hfit
  · subst h₀
    exact absurd (by simp [slice]) hne
  · exact ⟨length_slice_of_le hfit, hfit⟩

/-- A read returns as many bytes as it asked for. -/
theorem length_of_readAt {device bytes : List Nat} {off len : Nat}
    (h : readAt device off len = some bytes) : bytes.length = len := by
  obtain ⟨rfl, hfit⟩ := readAt_eq_some h
  rcases hfit with rfl | hfit
  · simp [slice]
  · exact length_slice_of_le hfit

/-- A write of as many bytes as a read there returned, and of at least one, succeeds. -/
theorem writeAt_of_readAt_length {device old bytes : List Nat} {off len : Nat}
    (hread : readAt device off len = some old) (hlen : bytes.length = old.length) (hne : bytes ≠ []) :
    writeAt device off bytes = some (overwrite device off bytes) := by
  obtain ⟨rfl, hfit⟩ := readAt_eq_some hread
  rcases hfit with h₀ | hfit
  · subst h₀
    simp only [slice, List.take_zero, List.length_nil] at hlen
    exact absurd (List.eq_nil_of_length_eq_zero hlen) hne
  · unfold writeAt
    rw [if_neg hne, if_pos (by rw [hlen, length_slice_of_le hfit]; exact hfit)]

/-- A write leaves the reads of the bytes around it as they were. -/
theorem readAt_overwrite_of_disjoint {device bytes : List Nat} {off off' len : Nat}
    (h : off + bytes.length ≤ device.length) (hd : off' + len ≤ off ∨ off + bytes.length ≤ off') :
    readAt (overwrite device off bytes) off' len = readAt device off' len := by
  unfold readAt
  rw [length_overwrite h, slice_overwrite_of_disjoint (by omega) hd]

/-- A write leaves the reads of the bytes around it as they were, also when it writes nothing. -/
theorem readAt_of_writeAt_of_disjoint {device device' bytes : List Nat} {off off' len : Nat}
    (hw : writeAt device off bytes = some device')
    (hd : off' + len ≤ off ∨ off + bytes.length ≤ off') :
    readAt device' off' len = readAt device off' len := by
  unfold writeAt at hw
  split_ifs at hw with hnil hfit
  · cases hw
    rfl
  · cases hw
    exact readAt_overwrite_of_disjoint hfit hd

/-- Distinct blocks of `bs` bytes do not meet. -/
theorem block_disjoint {a a' bs : Nat} (h : a ≠ a') : a * bs + bs ≤ a' * bs ∨ a' * bs + bs ≤ a * bs := by
  rcases Nat.lt_or_gt_of_ne h with hlt | hgt
  · exact .inl (by rw [← Nat.succ_mul]; exact Nat.mul_le_mul_right bs hlt)
  · exact .inr (by rw [← Nat.succ_mul]; exact Nat.mul_le_mul_right bs hgt)

-- ---------------------------------------------------------------------------
-- The superblock and the block group descriptors
-- ---------------------------------------------------------------------------

/-- `SUPERBLOCK_OFFSET`. -/
def SUPERBLOCK_OFFSET : Nat := 1024

/-- The size of `SuperblockArray`. -/
def SUPERBLOCK_SIZE : Nat := 1024

/-- The byte ranges of the fields of `Superblock`: `num_inodes` to `last_mount_path`, which it
    reads as 16 bytes, and `compression` to `num_preallocate_blocks_directory`. -/
def SUPERBLOCK_FIELDS : List (Nat × Nat) := [(0, 152), (200, 206)]

/-- `BGD_SIZE`. -/
def BGD_SIZE : Nat := 32

/-- The byte range of the fields of `BlockGroupDescriptor`, `block_usage_bitmap_block` to
    `num_directories`. -/
def BGD_FIELDS : List (Nat × Nat) := [(0, 18)]

/-- `Superblock`, as the `SuperblockArray` it converts to. -/
structure Superblock where
  bytes : List Nat
  length_eq : bytes.length = SUPERBLOCK_SIZE

namespace Superblock

/-- `Superblock::try_from(SuperblockArray)`, which cannot fail. -/
def ofArray (a : List Nat) : Superblock := ⟨mask SUPERBLOCK_SIZE SUPERBLOCK_FIELDS a, length_mask ..⟩

/-- `num_blocks`. -/
def numBlocks (sb : Superblock) : Nat := readLE sb.bytes 4 4

/-- `num_unallocated_blocks`. -/
def numUnallocatedBlocks (sb : Superblock) : Nat := readLE sb.bytes 12 4

/-- `log2_block_size`. -/
def log2BlockSize (sb : Superblock) : Nat := readLE sb.bytes 24 4

/-- `blocks_per_group`. -/
def blocksPerGroup (sb : Superblock) : Nat := readLE sb.bytes 32 4

/-- `inodes_per_group`. -/
def inodesPerGroup (sb : Superblock) : Nat := readLE sb.bytes 40 4

/-- `inode_size`. -/
def inodeSize (sb : Superblock) : Nat := readLE sb.bytes 88 2

/-- `*num_unallocated_blocks_mut() = n`. -/
def setNumUnallocatedBlocks (sb : Superblock) (n : Nat) : Superblock :=
  ⟨writeLE sb.bytes 12 4 n, by rw [length_writeLE (by rw [sb.length_eq]; decide)]; exact sb.length_eq⟩

/-- `Superblock::block_size`: `1024 << log2_block_size` as a `u32`, or `none` where the shift
    overflows, which panics. -/
def blockSize? (sb : Superblock) : Option Nat :=
  if sb.log2BlockSize < 32 then some ((1024 <<< sb.log2BlockSize) % U32_LIMIT) else none

theorem log2BlockSize_setNumUnallocatedBlocks (sb : Superblock) (n : Nat) :
    (sb.setNumUnallocatedBlocks n).log2BlockSize = sb.log2BlockSize :=
  readLE_writeLE_of_disjoint (by rw [sb.length_eq]; decide) (.inr (by decide))

end Superblock

/-- `BlockGroupDescriptor`, as the 32-byte array it converts to. -/
structure BlockGroupDescriptor where
  bytes : List Nat
  length_eq : bytes.length = BGD_SIZE

namespace BlockGroupDescriptor

/-- `BlockGroupDescriptor::try_from([u8; 32])`, which cannot fail. -/
def ofArray (a : List Nat) : BlockGroupDescriptor := ⟨mask BGD_SIZE BGD_FIELDS a, length_mask ..⟩

/-- `block_usage_bitmap_block`. -/
def blockUsageBitmapBlock (d : BlockGroupDescriptor) : Nat := readLE d.bytes 0 4

/-- `inode_usage_bitmap_block`. -/
def inodeUsageBitmapBlock (d : BlockGroupDescriptor) : Nat := readLE d.bytes 4 4

/-- `inode_table_starting_block`. -/
def inodeTableStartingBlock (d : BlockGroupDescriptor) : Nat := readLE d.bytes 8 4

/-- `num_unallocated_blocks`. -/
def numUnallocatedBlocks (d : BlockGroupDescriptor) : Nat := readLE d.bytes 12 2

/-- `*num_unallocated_blocks_mut() = n`. -/
def setNumUnallocatedBlocks (d : BlockGroupDescriptor) (n : Nat) : BlockGroupDescriptor :=
  ⟨writeLE d.bytes 12 2 n, by rw [length_writeLE (by rw [d.length_eq]; decide)]; exact d.length_eq⟩

end BlockGroupDescriptor

/-- `Ext2Fs`: the block device's bytes, the superblock and the descriptor table. Its cache of
    indirect blocks is `CachedFs`, through which every call ends as it does here while the
    cache matches the device; reads of an indirect block here go to the device. -/
structure Ext2Fs where
  blockDevice : List Nat
  superblock : Superblock
  bgdt : List BlockGroupDescriptor

/-- A call into the crate on an `Ext2Fs`. -/
abbrev FsM := EStateM Exit Ext2Fs

/-- `Ext2Fs::bgdt_offset` for the block size `bs`. -/
def bgdtOffset (bs : Nat) : Nat := if bs = 1024 then 2048 else bs

/-- `self.superblock.block_size()`. -/
def blockSize : FsM Nat := do
  let some bs := (← get).superblock.blockSize? | throw (.panic ⟨"attempt to shift left with overflow"⟩)
  pure bs

/-- A `u32` result of an operation with overflow checks, and the panic `msg` past `u32::MAX`. -/
def checkedU32 (n : Nat) (msg : String) : FsM Nat :=
  if n < U32_LIMIT then pure n else throw (.panic ⟨msg⟩)

/-- A read of the device whose failure the caller maps to the error `e`. -/
def deviceRead (off len : Nat) (e : Error) : FsM (List Nat) := do
  let some bytes := readAt (← get).blockDevice off len | throw (.error e)
  pure bytes

/-- A write to the device whose failure the caller maps to the error `e`. -/
def deviceWrite (off : Nat) (bytes : List Nat) (e : Error) : FsM Unit := do
  let some device := writeAt (← get).blockDevice off bytes | throw (.error e)
  modify fun fs => { fs with blockDevice := device }

/-- `Ext2Fs::resolve_block_offset`: the `u32` product of the address and the block size. -/
def resolveBlockOffset (addr : Nat) : FsM Nat := do
  checkedU32 (addr * (← blockSize)) "attempt to multiply with overflow"

/-- `Ext2Fs::read_block` into a buffer of `len` bytes. -/
def readBlock (addr len : Nat) : FsM (List Nat) := do
  deviceRead (← resolveBlockOffset addr) len .deviceRead

/-- `Ext2Fs::write_block`. -/
def writeBlock (addr : Nat) (bytes : List Nat) : FsM Unit := do
  deviceWrite (← resolveBlockOffset addr) bytes .deviceWrite

-- ---------------------------------------------------------------------------
-- `try_new`
-- ---------------------------------------------------------------------------

/-- The descriptors of `n` groups from the table's block `data`, the first being group `i`:
    the slice of a descriptor that does not fit in the block panics. -/
def descriptorsFrom (data : List Nat) : Nat → Nat → Except Exit (List BlockGroupDescriptor)
  | 0, _ => pure []
  | n + 1, i => do
    if data.length < i * BGD_SIZE + BGD_SIZE then
      throw (.panic ⟨"range end index out of range for slice"⟩)
    else
      let rest ← descriptorsFrom data n (i + 1)
      pure (BlockGroupDescriptor.ofArray (slice data (i * BGD_SIZE) BGD_SIZE) :: rest)

/-- `Ext2Fs::try_new`. -/
def tryNew (device : List Nat) : Except Exit Ext2Fs := do
  let some data := readAt device SUPERBLOCK_OFFSET SUPERBLOCK_SIZE
    | throw (.error .unableToReadSuperblock)
  let sb := Superblock.ofArray data
  if sb.blocksPerGroup = 0 then
    throw (.panic ⟨"attempt to divide by zero"⟩)
  else
    let groups := divCeil sb.numBlocks sb.blocksPerGroup
    let some bs := sb.blockSize? | throw (.panic ⟨"attempt to shift left with overflow"⟩)
    let some table := readAt device (bgdtOffset bs) bs
      | throw (.error .unableToReadBlockGroupDescriptorTable)
    let bgdt ← descriptorsFrom table groups 0
    pure ⟨device, sb, bgdt⟩

-- ---------------------------------------------------------------------------
-- Allocation
-- ---------------------------------------------------------------------------

/-- The lowest clear bit of a byte. -/
def lowestClearBit (byte : Nat) : Option Nat := (List.range 8).find? fun k => byte &&& (1 <<< k) == 0

/-- The first clear bit of a bitmap: bit `k` of byte `i` is bit `8 * i + k`. -/
def firstClearBit : List Nat → Option Nat
  | [] => none
  | byte :: bytes =>
    match lowestClearBit byte with
    | some k => some k
    | none => (firstClearBit bytes).map (8 + ·)

/-- `Ext2Fs::try_reserve_in_group_with_bitmap`. -/
def tryReserveInGroupWithBitmap (bitmapBlock : Nat) : FsM (Option Nat) := do
  let bitmap ← readBlock bitmapBlock (← blockSize)
  match firstClearBit bitmap with
  -- the bit is set in the buffer only, and the buffer is dropped with the return
  | some i => pure (some i)
  | none =>
    writeBlock bitmapBlock bitmap
    pure none

/-- `self.bgdt[group_index]`. -/
def descriptor (g : Nat) : FsM BlockGroupDescriptor := do
  let some d := (← get).bgdt[g]? | throw (.panic ⟨"index out of bounds"⟩)
  pure d

/-- The bitmap block that `field` names in group `g`'s descriptor, whose `BlockAddress::new`
    is `expect`ed. -/
def bitmapBlockOf (field : BlockGroupDescriptor → Nat) (g : Nat) : FsM Nat := do
  let block := field (← descriptor g)
  if block = 0 then
    throw (.panic ⟨"bgdt does not have valid block address for bitmap block"⟩)
  else
    pure block

/-- `Ext2Fs::try_reserve_block_in_group`. -/
def tryReserveBlockInGroup (g : Nat) : FsM (Option Nat) := do
  tryReserveInGroupWithBitmap (← bitmapBlockOf BlockGroupDescriptor.blockUsageBitmapBlock g)

/-- `Ext2Fs::try_reserve_inode_in_group`. -/
def tryReserveInodeInGroup (g : Nat) : FsM (Option Nat) := do
  tryReserveInGroupWithBitmap (← bitmapBlockOf BlockGroupDescriptor.inodeUsageBitmapBlock g)

/-- `*descriptor.num_unallocated_blocks_mut() -= 1` on group `g`'s descriptor in memory. -/
def decrementGroupCounter (g : Nat) : FsM BlockGroupDescriptor := do
  let d ← descriptor g
  if d.numUnallocatedBlocks = 0 then
    throw (.panic ⟨"attempt to subtract with overflow"⟩)
  else
    let d := d.setNumUnallocatedBlocks (d.numUnallocatedBlocks - 1)
    modify fun fs => { fs with bgdt := fs.bgdt.set g d }
    pure d

/-- Read the descriptor table's block of `bs` bytes at `off`, merge group `g`'s descriptor `d`
    into it and write it back. -/
def writeDescriptor (bs off g : Nat) (d : BlockGroupDescriptor) : FsM Unit := do
  let table ← deviceRead off bs .unableToReadBlockGroupDescriptorTable
  if table.length < g * BGD_SIZE + BGD_SIZE then
    throw (.panic ⟨"range end index out of range for slice"⟩)
  else
    deviceWrite off (overwrite table (g * BGD_SIZE) d.bytes) .unableToWriteBlockGroupDescriptorTable

/-- `*self.superblock.num_unallocated_blocks_mut() -= 1`, and the superblock written back. -/
def decrementSuperblockCounter : FsM Unit := do
  let sb := (← get).superblock
  if sb.numUnallocatedBlocks = 0 then
    throw (.panic ⟨"attempt to subtract with overflow"⟩)
  else
    let sb := sb.setNumUnallocatedBlocks (sb.numUnallocatedBlocks - 1)
    modify fun fs => { fs with superblock := sb }
    deviceWrite SUPERBLOCK_OFFSET sb.bytes .unableToWriteSuperblock

/-- The loop of `allocate_resource` over `groups`, with the block size `bs` and the table's
    offset `off` computed before it. -/
def allocateResourceFrom (bs off perGroup : Nat) (tryReserve : Nat → FsM (Option Nat)) :
    List Nat → FsM (Option Nat)
  | [] => pure none
  | g :: groups => do
    let some first ← tryReserve g | allocateResourceFrom bs off perGroup tryReserve groups
    let d ← decrementGroupCounter g
    writeDescriptor bs off g d
    decrementSuperblockCounter
    let n ← checkedU32 (g * perGroup) "attempt to multiply with overflow"
    let n ← checkedU32 (n + first % U32_LIMIT) "attempt to add with overflow"
    pure (some n)

/-- `Ext2Fs::allocate_resource`. -/
def allocateResource (perGroup : Nat) (tryReserve : Nat → FsM (Option Nat)) : FsM (Option Nat) := do
  let bs ← blockSize
  let groups := (← get).bgdt.length
  let off := bgdtOffset (← blockSize)
  allocateResourceFrom bs off perGroup tryReserve (List.range groups)

/-- `BlockAddress::new` and `InodeAddress::new`: zero is no address. -/
def nonZero (n : Nat) : Option Nat := if n = 0 then none else some n

/-- `Ext2Fs::allocate_block`. -/
def allocateBlock : FsM (Option Nat) := do
  let r ← allocateResource (← get).superblock.blocksPerGroup tryReserveBlockInGroup
  pure (r.bind nonZero)

/-- `Ext2Fs::allocate_inode`. -/
def allocateInode : FsM (Option Nat) := do
  let r ← allocateResource (← get).superblock.inodesPerGroup tryReserveInodeInGroup
  pure (r.bind nonZero)

-- ---------------------------------------------------------------------------
-- What an allocation writes
-- ---------------------------------------------------------------------------

/-- A byte of the superblock or of the descriptor table's block, for the block size `bs`. -/
def MetadataByte (bs i : Nat) : Prop :=
  (SUPERBLOCK_OFFSET ≤ i ∧ i < SUPERBLOCK_OFFSET + SUPERBLOCK_SIZE) ∨
    (bgdtOffset bs ≤ i ∧ i < bgdtOffset bs + bs)

/-- `fs'` has the block size of `fs`, a device of the same size, and the same bytes outside the
    metadata of block size `bs`. -/
def DataKept (bs : Nat) (fs fs' : Ext2Fs) : Prop :=
  fs'.superblock.log2BlockSize = fs.superblock.log2BlockSize ∧
    fs'.blockDevice.length = fs.blockDevice.length ∧
    ∀ i, ¬ MetadataByte bs i → fs'.blockDevice[i]? = fs.blockDevice[i]?

instance (bs : Nat) : Std.Refl (DataKept bs) := ⟨fun _ => ⟨rfl, rfl, fun _ _ => rfl⟩⟩

instance (bs : Nat) : IsTrans Ext2Fs (DataKept bs) :=
  ⟨fun _ _ _ ⟨h₁, h₂, h₃⟩ ⟨h₁', h₂', h₃'⟩ =>
    ⟨h₁'.trans h₁, h₂'.trans h₂, fun i hi => (h₃' i hi).trans (h₃ i hi)⟩⟩

/-- A change of the descriptors in memory keeps the data. -/
theorem dataKept_bgdt (bs : Nat) (fs : Ext2Fs) (bgdt : List BlockGroupDescriptor) :
    DataKept bs fs { fs with bgdt := bgdt } :=
  ⟨rfl, rfl, fun _ _ => rfl⟩

theorem blockSize_moves : Moves (· = ·) blockSize :=
  Moves.get_bind fun s => by
    split
    · exact Moves.pure _ s
    · exact Moves.throw _ s

theorem blockSize_run {fs : Ext2Fs} {bs : Nat} (h : fs.superblock.blockSize? = some bs) :
    blockSize.run fs = .ok bs fs := by
  simp only [blockSize, EStateM.run, bind, EStateM.bind, get, getThe, MonadStateOf.get,
    EStateM.get, h]
  rfl

theorem checkedU32_moves (n : Nat) (msg : String) : Moves (· = ·) (checkedU32 n msg) :=
  Moves.ite (Moves.pure _) (Moves.throw _)

theorem deviceRead_run (fs : Ext2Fs) (off len : Nat) (e : Error) :
    (deviceRead off len e).run fs =
      match readAt fs.blockDevice off len with
      | some bytes => .ok bytes fs
      | none => .error (.error e) fs := by
  simp only [deviceRead, EStateM.run, bind, EStateM.bind, get, getThe, MonadStateOf.get,
    EStateM.get]
  cases readAt fs.blockDevice off len <;> rfl

theorem deviceRead_moves (off len : Nat) (e : Error) : Moves (· = ·) (deviceRead off len e) :=
  Moves.get_bind fun s => by
    split
    · exact Moves.pure _ s
    · exact Moves.throw _ s

/-- A read returns at most the bytes it asked for. -/
theorem deviceRead_returns (off len : Nat) (e : Error) :
    Returns (fun bytes => bytes.length ≤ len) (deviceRead off len e) := by
  intro s
  rw [deviceRead_run]
  cases h : readAt s.blockDevice off len with
  | none => trivial
  | some bytes => exact length_le_of_readAt h

theorem deviceWrite_run (fs : Ext2Fs) (off : Nat) (bytes : List Nat) (e : Error) :
    (deviceWrite off bytes e).run fs =
      match writeAt fs.blockDevice off bytes with
      | some device => .ok () { fs with blockDevice := device }
      | none => .error (.error e) fs := by
  simp only [deviceWrite, EStateM.run, bind, EStateM.bind, get, getThe, MonadStateOf.get,
    EStateM.get]
  cases writeAt fs.blockDevice off bytes <;> rfl

theorem resolveBlockOffset_moves (addr : Nat) : Moves (· = ·) (resolveBlockOffset addr) :=
  blockSize_moves.bind fun _ => checkedU32_moves _ _

theorem readBlock_moves (addr len : Nat) : Moves (· = ·) (readBlock addr len) :=
  (resolveBlockOffset_moves addr).bind fun _ => deviceRead_moves _ _ _

/-- Writing back the bytes `read_block` returned leaves the device as it was. -/
theorem writeBlock_of_readBlock {addr len : Nat} {bytes : List Nat} {fs fs' : Ext2Fs}
    (h : (readBlock addr len).run fs = .ok bytes fs') : (writeBlock addr bytes).run fs' = .ok () fs' := by
  obtain ⟨off, fs₁, hoff, hread⟩ := run_bind_eq_ok h
  obtain rfl := (resolveBlockOffset_moves addr).of_run_ok hoff
  obtain rfl := (deviceRead_moves _ _ _).of_run_ok hread
  have hat : readAt fs.blockDevice off len = some bytes := by
    rw [deviceRead_run] at hread
    split at hread <;> cases hread
    assumption
  unfold writeBlock
  rw [run_bind_of_run_ok hoff, deviceWrite_run, writeAt_of_readAt hat]

theorem descriptor_run (fs : Ext2Fs) (g : Nat) :
    (descriptor g).run fs =
      match fs.bgdt[g]? with
      | some d => .ok d fs
      | none => .error (.panic ⟨"index out of bounds"⟩) fs := by
  simp only [descriptor, EStateM.run, bind, EStateM.bind, get, getThe, MonadStateOf.get,
    EStateM.get]
  cases fs.bgdt[g]? <;> rfl

theorem descriptor_moves (g : Nat) : Moves (· = ·) (descriptor g) :=
  Moves.get_bind fun s => by
    split
    · exact Moves.pure _ s
    · exact Moves.throw _ s

theorem bitmapBlockOf_moves (field : BlockGroupDescriptor → Nat) (g : Nat) :
    Moves (· = ·) (bitmapBlockOf field g) :=
  (descriptor_moves g).bind fun _ => Moves.ite (Moves.throw _) (Moves.pure _)

/-- A write inside the metadata keeps the data. -/
theorem deviceWrite_dataKept {bs off : Nat} {bytes : List Nat} (e : Error)
    (hin : ∀ i, off ≤ i → i < off + bytes.length → MetadataByte bs i) :
    Moves (DataKept bs) (deviceWrite off bytes e) :=
  Moves.get_bind fun s => by
    split
    · rename_i device hw
      obtain ⟨hlen, hframe⟩ := writeAt_frame hw
      refine ⟨rfl, hlen, fun i hi => hframe i ?_⟩
      by_contra hout
      exact hi (hin i (by omega) (by omega))
    · exact Moves.throw _ s

/-- Looking for a clear bit changes nothing: the bitmap is written back only when it has no
    clear bit, and then it is written back as it was read. -/
theorem tryReserveInGroupWithBitmap_moves (bitmapBlock : Nat) :
    Moves (· = ·) (tryReserveInGroupWithBitmap bitmapBlock) := by
  intro s
  unfold tryReserveInGroupWithBitmap
  rw [finalState_bind]
  split
  · rename_i bs s₁ hbs
    obtain rfl := blockSize_moves.of_run_ok hbs
    rw [finalState_bind]
    split
    · rename_i bitmap s₂ hread
      obtain rfl := (readBlock_moves _ _).of_run_ok hread
      split
      · rfl
      · rw [finalState_bind_of_run_ok (writeBlock_of_readBlock hread)]
        rfl
    · rename_i hread
      exact (readBlock_moves _ _).of_run_error hread
  · rename_i hbs
    exact blockSize_moves.of_run_error hbs

theorem tryReserveBlockInGroup_moves (g : Nat) : Moves (· = ·) (tryReserveBlockInGroup g) :=
  (bitmapBlockOf_moves _ g).bind tryReserveInGroupWithBitmap_moves

theorem tryReserveInodeInGroup_moves (g : Nat) : Moves (· = ·) (tryReserveInodeInGroup g) :=
  (bitmapBlockOf_moves _ g).bind tryReserveInGroupWithBitmap_moves

theorem decrementGroupCounter_dataKept (bs g : Nat) : Moves (DataKept bs) (decrementGroupCounter g) :=
  (Moves.of_eq (descriptor_moves g)).bind fun d => by
    split
    · exact Moves.throw _
    · intro s
      exact Moves.modify_bind (dataKept_bgdt bs s _) (Moves.pure _)

/-- The descriptor table is written back inside its block. -/
theorem writeDescriptor_dataKept (bs g : Nat) (d : BlockGroupDescriptor) :
    Moves (DataKept bs) (writeDescriptor bs (bgdtOffset bs) g d) :=
  Moves.bind_returns (Moves.of_eq (deviceRead_moves _ _ _)) (deviceRead_returns _ _ _)
    fun table hlen => by
      split
      · exact Moves.throw _
      · rename_i hfit
        refine deviceWrite_dataKept _ fun i h₁ h₂ => .inr ⟨h₁, ?_⟩
        rw [length_overwrite (by rw [d.length_eq]; omega)] at h₂
        omega

/-- The superblock is written back at its offset. -/
theorem decrementSuperblockCounter_dataKept (bs : Nat) :
    Moves (DataKept bs) decrementSuperblockCounter :=
  Moves.get_bind fun s => by
    dsimp only
    split
    · exact Moves.throw _ s
    · refine Moves.modify_bind ⟨Superblock.log2BlockSize_setNumUnallocatedBlocks _ _, rfl,
        fun _ _ => rfl⟩ (deviceWrite_dataKept _ fun i h₁ h₂ => .inl ⟨h₁, ?_⟩)
      rw [Superblock.length_eq] at h₂
      exact h₂

/-- Every run of the loop of `allocate_resource`, whatever it returns, keeps the data. -/
theorem allocateResourceFrom_dataKept (bs perGroup : Nat) {tryReserve : Nat → FsM (Option Nat)}
    (hres : ∀ g, Moves (· = ·) (tryReserve g)) (groups : List Nat) :
    Moves (DataKept bs) (allocateResourceFrom bs (bgdtOffset bs) perGroup tryReserve groups) := by
  induction groups with
  | nil => exact Moves.pure _
  | cons g groups ih =>
    refine (Moves.of_eq (hres g)).bind fun r => ?_
    cases r with
    | none => exact ih
    | some first =>
      refine (decrementGroupCounter_dataKept bs g).bind fun d => ?_
      refine (writeDescriptor_dataKept bs g d).seq ((decrementSuperblockCounter_dataKept bs).seq ?_)
      exact (Moves.of_eq (checkedU32_moves _ _)).bind fun n =>
        (Moves.of_eq (checkedU32_moves _ _)).bind fun _ => Moves.pure _

theorem allocateResource_dataKept (fs : Ext2Fs) {bs : Nat} (hbs : fs.superblock.blockSize? = some bs)
    (perGroup : Nat) {tryReserve : Nat → FsM (Option Nat)} (hres : ∀ g, Moves (· = ·) (tryReserve g)) :
    DataKept bs fs (finalState (allocateResource perGroup tryReserve) fs) := by
  unfold allocateResource
  rw [finalState_bind_of_run_ok (blockSize_run hbs), finalState_get_bind,
    finalState_bind_of_run_ok (blockSize_run hbs)]
  exact allocateResourceFrom_dataKept bs perGroup hres _ fs

/-- Every run of `allocate_block`, whatever it returns, writes no byte of the device outside the
    superblock and the descriptor table. -/
theorem allocateBlock_dataKept (fs : Ext2Fs) {bs : Nat} (hbs : fs.superblock.blockSize? = some bs) :
    DataKept bs fs (finalState allocateBlock fs) := by
  unfold allocateBlock
  rw [finalState_get_bind, finalState_bind]
  have h := allocateResource_dataKept fs hbs fs.superblock.blocksPerGroup tryReserveBlockInGroup_moves
  unfold finalState at h
  split <;> rename_i hrun <;> rw [hrun] at h
  · exact h
  · exact h

-- ---------------------------------------------------------------------------
-- What an allocation returns
-- ---------------------------------------------------------------------------

theorem checkedU32_run_ok {n m : Nat} {msg : String} {s s' : Ext2Fs}
    (h : (checkedU32 n msg).run s = .ok m s') : m = n ∧ s' = s := by
  unfold checkedU32 at h
  split at h <;> cases h
  exact ⟨rfl, rfl⟩

/-- A successful `read_block` returns the bytes of the block at `addr * block_size`. -/
theorem readBlock_run_ok {addr len bs : Nat} {bytes : List Nat} {s s' : Ext2Fs}
    (hbs : s.superblock.blockSize? = some bs) (h : (readBlock addr len).run s = .ok bytes s') :
    s' = s ∧ bytes = slice s.blockDevice (addr * bs) len := by
  obtain ⟨off, s₁, hoff, hread⟩ := run_bind_eq_ok h
  unfold resolveBlockOffset at hoff
  rw [run_bind_of_run_ok (blockSize_run hbs)] at hoff
  obtain ⟨rfl, rfl⟩ := checkedU32_run_ok hoff
  rw [deviceRead_run] at hread
  split at hread <;> cases hread
  rename_i hat
  exact ⟨rfl, (readAt_eq_some hat).1⟩

/-- A successful search that finds a bit returns the first clear bit of the bitmap block. -/
theorem tryReserveInGroupWithBitmap_run_some {a bs bit : Nat} {s s' : Ext2Fs}
    (hbs : s.superblock.blockSize? = some bs)
    (h : (tryReserveInGroupWithBitmap a).run s = .ok (some bit) s') :
    s' = s ∧ firstClearBit (slice s.blockDevice (a * bs) bs) = some bit := by
  unfold tryReserveInGroupWithBitmap at h
  rw [run_bind_of_run_ok (blockSize_run hbs)] at h
  obtain ⟨bitmap, s₁, hread, hfound⟩ := run_bind_eq_ok h
  obtain ⟨rfl, rfl⟩ := readBlock_run_ok hbs hread
  split at hfound
  · rename_i i hi
    cases hfound
    exact ⟨rfl, hi⟩
  · obtain ⟨_, _, -, hnone⟩ := run_bind_eq_ok hfound
    cases hnone

theorem bitmapBlockOf_run_ok {field : BlockGroupDescriptor → Nat} {g a : Nat} {s s' : Ext2Fs}
    (h : (bitmapBlockOf field g).run s = .ok a s') : s' = s ∧ ∃ d, s.bgdt[g]? = some d ∧ a = field d := by
  obtain ⟨d, s₁, hd, hblock⟩ := run_bind_eq_ok h
  obtain rfl := (descriptor_moves g).of_run_ok hd
  have hget : s.bgdt[g]? = some d := by
    rw [descriptor_run] at hd
    split at hd <;> cases hd
    assumption
  dsimp only at hblock
  split at hblock <;> cases hblock
  exact ⟨rfl, d, hget, rfl⟩

/-- The value of a successful loop of `allocate_resource`: group `g`'s search found `first`,
    from the state the loop started in. -/
theorem allocateResourceFrom_run_some {bs off perGroup x : Nat} {tryReserve : Nat → FsM (Option Nat)}
    (hres : ∀ g, Moves (· = ·) (tryReserve g)) {s s' : Ext2Fs} (groups : List Nat)
    (h : (allocateResourceFrom bs off perGroup tryReserve groups).run s = .ok (some x) s') :
    ∃ g ∈ groups, ∃ first, (tryReserve g).run s = .ok (some first) s ∧
      x = g * perGroup + first % U32_LIMIT := by
  induction groups with
  | nil => cases h
  | cons g groups ih =>
    obtain ⟨r, s₁, hr, hrest⟩ := run_bind_eq_ok h
    obtain rfl := (hres g).of_run_ok hr
    cases r with
    | none =>
      obtain ⟨g', hg', first, hfirst, hx⟩ := ih hrest
      exact ⟨g', List.mem_cons_of_mem g hg', first, hfirst, hx⟩
    | some first =>
      -- the counters and the write-backs, then the two checked operations of the number
      obtain ⟨_, _, -, h₁⟩ := run_bind_eq_ok hrest
      obtain ⟨_, _, -, h₂⟩ := run_bind_eq_ok h₁
      obtain ⟨_, _, -, h₃⟩ := run_bind_eq_ok h₂
      obtain ⟨n, _, hn, h₄⟩ := run_bind_eq_ok h₃
      obtain ⟨n', _, hn', h₅⟩ := run_bind_eq_ok h₄
      obtain ⟨rfl, -⟩ := checkedU32_run_ok hn
      obtain ⟨rfl, -⟩ := checkedU32_run_ok hn'
      cases h₅
      exact ⟨g, List.mem_cons_self, first, hr, rfl⟩

theorem allocateResource_run_some {perGroup bs x : Nat} {tryReserve : Nat → FsM (Option Nat)}
    (hres : ∀ g, Moves (· = ·) (tryReserve g)) {s s' : Ext2Fs} (hbs : s.superblock.blockSize? = some bs)
    (h : (allocateResource perGroup tryReserve).run s = .ok (some x) s') :
    ∃ g first, (tryReserve g).run s = .ok (some first) s ∧ x = g * perGroup + first % U32_LIMIT := by
  unfold allocateResource at h
  rw [run_bind_of_run_ok (blockSize_run hbs), run_get_bind, run_bind_of_run_ok (blockSize_run hbs)] at h
  obtain ⟨g, -, first, hfirst, hx⟩ := allocateResourceFrom_run_some hres _ h
  exact ⟨g, first, hfirst, hx⟩

/-- A successful `allocate_block` is a successful `allocate_resource` over the block bitmaps whose
    number is not zero. -/
theorem allocateBlock_run_some {fs fs' : Ext2Fs} {x : Nat} (hrun : allocateBlock.run fs = .ok (some x) fs') :
    (allocateResource fs.superblock.blocksPerGroup tryReserveBlockInGroup).run fs = .ok (some x) fs' := by
  unfold allocateBlock at hrun
  rw [run_get_bind] at hrun
  obtain ⟨r, s₁, hr, hx⟩ := run_bind_eq_ok hrun
  injection hx with hbind hs
  subst hs
  -- `BlockAddress::new` keeps the number the loop computed
  obtain ⟨y, rfl, hy⟩ := Option.bind_eq_some_iff.mp hbind
  unfold nonZero at hy
  split at hy <;> cases hy
  exact hr

/-- A search of the group whose bitmap block `field` names, that finds a bit. -/
theorem bitmapBlockOf_tryReserve_run_some {field : BlockGroupDescriptor → Nat} {g bs bit : Nat}
    {s s' : Ext2Fs} (hbs : s.superblock.blockSize? = some bs)
    (h : (bitmapBlockOf field g >>= tryReserveInGroupWithBitmap).run s = .ok (some bit) s') :
    ∃ d, s.bgdt[g]? = some d ∧ firstClearBit (slice s.blockDevice (field d * bs) bs) = some bit := by
  obtain ⟨a, s₁, ha, hfound⟩ := run_bind_eq_ok h
  obtain ⟨rfl, d, hd, rfl⟩ := bitmapBlockOf_run_ok ha
  exact ⟨d, hd, (tryReserveInGroupWithBitmap_run_some hbs hfound).2⟩

/-- The `bs` bytes of block `a` hold no byte of the superblock or of the descriptor table, as
    for the bitmap blocks of a well-formed image. -/
def OutsideMetadata (bs a : Nat) : Prop := ∀ i, a * bs ≤ i → i < a * bs + bs → ¬ MetadataByte bs i

instance (bs : Nat) : DecidablePred (MetadataByte bs) := fun _ => inferInstanceAs (Decidable (_ ∨ _))

instance (bs a : Nat) : Decidable (OutsideMetadata bs a) := Nat.decidableLoHi _ _ _

/-- The bytes of a block outside the metadata are those of the device before the run. -/
theorem slice_of_dataKept {bs a : Nat} {fs fs' : Ext2Fs} (hkept : DataKept bs fs fs')
    (hout : OutsideMetadata bs a) :
    slice fs'.blockDevice (a * bs) bs = slice fs.blockDevice (a * bs) bs := by
  apply List.ext_getElem?
  intro i
  rw [getElem?_slice, getElem?_slice]
  split
  · exact hkept.2.2 _ (hout _ (by omega) (by omega))
  · rfl

/-- `allocate_block` returns `group * blocks_per_group + bit` for the first clear bit of a group's
    block bitmap, and when the bitmaps lie outside the superblock and the descriptor table, that
    bit is still the first clear one on the device after the call. -/
theorem allocateBlock_bit_stays_clear {fs fs' : Ext2Fs} {bs x : Nat}
    (hbs : fs.superblock.blockSize? = some bs)
    (hlayout : ∀ d ∈ fs.bgdt, OutsideMetadata bs d.blockUsageBitmapBlock)
    (hrun : allocateBlock.run fs = .ok (some x) fs') :
    ∃ g d bit, fs.bgdt[g]? = some d ∧ x = g * fs.superblock.blocksPerGroup + bit % U32_LIMIT ∧
      firstClearBit (slice fs.blockDevice (d.blockUsageBitmapBlock * bs) bs) = some bit ∧
      firstClearBit (slice fs'.blockDevice (d.blockUsageBitmapBlock * bs) bs) = some bit := by
  have hkept : DataKept bs fs fs' := by
    have h := allocateBlock_dataKept fs hbs
    unfold finalState at h
    rwa [hrun] at h
  obtain ⟨g, first, hfirst, rfl⟩ :=
    allocateResource_run_some tryReserveBlockInGroup_moves hbs (allocateBlock_run_some hrun)
  obtain ⟨d, hd, hbit⟩ := bitmapBlockOf_tryReserve_run_some hbs hfirst
  refine ⟨g, d, first, hd, rfl, hbit, ?_⟩
  rw [slice_of_dataKept hkept (hlayout d (List.mem_of_getElem? hd))]
  exact hbit

/-- An image of nine blocks of 1024 bytes with one group of eight inodes: the superblock in
    block 1, the descriptor table in block 2, the bitmaps in blocks 3 and 4, the inode table in
    block 5 and the root directory's entries in block 6. Blocks 1 to 6 are in use (bits 0 to 5 of
    the block bitmap) and blocks 7 and 8 are free. Inode 2 is the root directory and inode 5 an
    empty regular file. -/
def smallImage : List Nat :=
  List.replicate 1024 0 ++
    writeLE (writeLE (writeLE (writeLE (writeLE (writeLE (writeLE (writeLE (writeLE
      (List.replicate 1024 0) 0 4 8) 4 4 9) 12 4 2) 16 4 3) 20 4 1) 32 4 8192) 40 4 8) 56 2 0xEF53)
      88 2 128 ++
    writeLE (writeLE (writeLE (writeLE (List.replicate 1024 0) 0 4 3) 4 4 4) 8 4 5) 12 2 2 ++
    (0x3F :: List.replicate 1023 0xFF) ++ (0x1F :: List.replicate 1023 0xFF) ++
    (List.replicate 128 0 ++
      writeLE (writeLE (writeLE (List.replicate 128 0) 0 2 0x41ED) 4 4 1024) 40 4 6 ++
      List.replicate 256 0 ++ writeLE (List.replicate 128 0) 0 2 0x81A4 ++ List.replicate 384 0) ++
    List.replicate (3 * 1024) 0

/-- The file system `try_new` builds on `smallImage`. -/
def smallFs : Ext2Fs :=
  ⟨smallImage, Superblock.ofArray (slice smallImage 1024 1024),
    [BlockGroupDescriptor.ofArray (slice smallImage 2048 32)]⟩

/-- With 1024-byte blocks, every block from block 3 on lies outside the metadata. -/
theorem outsideMetadata_1024 {a : Nat} (ha : 3 ≤ a) : OutsideMetadata 1024 a := by
  intro i hi _ hm
  simp only [MetadataByte, bgdtOffset, SUPERBLOCK_OFFSET, SUPERBLOCK_SIZE, if_true] at hm
  omega

set_option maxRecDepth 100000 in
/-- On `smallImage`, `allocate_block` returns block 6, the root directory's, for the first free
    bit (block 7), and a second call returns block 6 again. -/
theorem smallImage_allocateBlock_repeats :
    ∃ fs' fs'', tryNew smallImage = .ok smallFs ∧ smallFs.superblock.blockSize? = some 1024 ∧
      (∀ d ∈ smallFs.bgdt, OutsideMetadata 1024 d.blockUsageBitmapBlock) ∧
      allocateBlock.run smallFs = .ok (some 6) fs' ∧
      (∃ g d bit, smallFs.bgdt[g]? = some d ∧
        6 = g * smallFs.superblock.blocksPerGroup + bit % U32_LIMIT ∧
        firstClearBit (slice smallFs.blockDevice (d.blockUsageBitmapBlock * 1024) 1024) = some bit ∧
        firstClearBit (slice fs'.blockDevice (d.blockUsageBitmapBlock * 1024) 1024) = some bit) ∧
      allocateBlock.run fs' = .ok (some 6) fs'' :=
  have hlayout : ∀ d ∈ smallFs.bgdt, OutsideMetadata 1024 d.blockUsageBitmapBlock := by
    intro d hd
    rw [smallFs, List.mem_singleton] at hd
    subst hd
    exact outsideMetadata_1024 (by decide)
  ⟨_, _, rfl, rfl, hlayout, rfl, allocateBlock_bit_stays_clear rfl hlayout rfl, rfl⟩

-- ---------------------------------------------------------------------------
-- What `try_new` reads
-- ---------------------------------------------------------------------------

/-- The descriptors that fit in the table's block are read from their 32-byte slots. -/
theorem descriptorsFrom_eq_ok {data : List Nat} {n i : Nat} (h : (i + n) * BGD_SIZE ≤ data.length) :
    descriptorsFrom data n i =
      .ok ((List.range' i n).map fun g => BlockGroupDescriptor.ofArray (slice data (g * BGD_SIZE) BGD_SIZE)) := by
  induction n generalizing i with
  | zero => rfl
  | succ n ih =>
    have hfit : ¬ data.length < i * BGD_SIZE + BGD_SIZE := by
      unfold BGD_SIZE at h ⊢
      omega
    rw [descriptorsFrom, if_neg hfit, ih (by rw [show i + 1 + n = i + (n + 1) by omega]; exact h)]
    rfl

/-- A table of descriptors that runs past the block panics, at the first descriptor that does
    not fit. -/
theorem descriptorsFrom_eq_panic {data : List Nat} {n i : Nat}
    (h : data.length < (i + n + 1) * BGD_SIZE) :
    descriptorsFrom data (n + 1) i = .error (.panic ⟨"range end index out of range for slice"⟩) := by
  induction n generalizing i with
  | zero =>
    rw [descriptorsFrom, if_pos (by unfold BGD_SIZE at h ⊢; omega)]
    rfl
  | succ n ih =>
    rw [descriptorsFrom]
    split_ifs
    · rfl
    · rw [ih (by rw [show i + 1 + n + 1 = i + (n + 1) + 1 by omega]; exact h)]
      rfl

section TryNew

variable {device data : List Nat} {bs : Nat}
  (hdata : readAt device SUPERBLOCK_OFFSET SUPERBLOCK_SIZE = some data)
  (hbpg : 0 < (Superblock.ofArray data).blocksPerGroup)
  (hbs : (Superblock.ofArray data).blockSize? = some bs)
  (htable : bgdtOffset bs + bs ≤ device.length)

/-- What a successful `try_new` keeps: the device, and the superblock it read, whose block size
    does not overflow. -/
theorem tryNew_eq_ok_inv {device : List Nat} {fs : Ext2Fs} (h : tryNew device = .ok fs) :
    fs.blockDevice = device ∧ ∃ data bs, readAt device SUPERBLOCK_OFFSET SUPERBLOCK_SIZE = some data ∧
      fs.superblock = Superblock.ofArray data ∧ fs.superblock.blockSize? = some bs := by
  unfold tryNew at h
  split at h
  · rename_i data hdata
    dsimp only at h
    split at h
    · cases h
    · split at h
      · rename_i bs hbs
        split at h
        · obtain ⟨_, -, hfs⟩ := Except.bind_eq_ok.1 h
          cases hfs
          exact ⟨rfl, data, bs, hdata, rfl, hbs⟩
        · cases h
      · cases h
  · cases h

include hdata hbpg hbs htable in
/-- Once the superblock and the table's block are read, `try_new` is the loop over the groups. -/
theorem tryNew_eq_bind :
    tryNew device = (do
      let bgdt ← descriptorsFrom (slice device (bgdtOffset bs) bs)
        (divCeil (Superblock.ofArray data).numBlocks (Superblock.ofArray data).blocksPerGroup) 0
      pure ⟨device, Superblock.ofArray data, bgdt⟩) := by
  unfold tryNew
  rw [hdata]
  dsimp only
  rw [if_neg (Nat.pos_iff_ne_zero.1 hbpg), hbs]
  dsimp only
  rw [readAt_of_le htable]

include hdata hbpg hbs htable in
/-- When the descriptors of all groups fit in one block, `try_new` succeeds and reads each one
    from its slot after `bgdt_offset`. -/
theorem tryNew_eq_ok
    (hfit : divCeil (Superblock.ofArray data).numBlocks (Superblock.ofArray data).blocksPerGroup *
      BGD_SIZE ≤ bs) :
    tryNew device = .ok ⟨device, Superblock.ofArray data,
      (List.range (divCeil (Superblock.ofArray data).numBlocks
        (Superblock.ofArray data).blocksPerGroup)).map fun g =>
          BlockGroupDescriptor.ofArray (slice device (bgdtOffset bs + g * BGD_SIZE) BGD_SIZE)⟩ := by
  have hlen : (slice device (bgdtOffset bs) bs).length = bs := length_slice_of_le htable
  -- the slot of group `g` in the table's block is its slot on the device
  have hslots : ∀ n, n * BGD_SIZE ≤ bs →
      (List.range' 0 n).map (fun g => BlockGroupDescriptor.ofArray
        (slice (slice device (bgdtOffset bs) bs) (g * BGD_SIZE) BGD_SIZE)) =
      (List.range n).map fun g =>
        BlockGroupDescriptor.ofArray (slice device (bgdtOffset bs + g * BGD_SIZE) BGD_SIZE) := by
    intro n hn
    rw [← List.range_eq_range']
    refine List.map_congr_left fun g hg => ?_
    have hg : (g + 1) * BGD_SIZE ≤ bs := le_trans (Nat.mul_le_mul_right _ (List.mem_range.1 hg)) hn
    rw [slice_slice (by rw [Nat.succ_mul] at hg; exact hg)]
  rw [tryNew_eq_bind hdata hbpg hbs htable, descriptorsFrom_eq_ok (by rw [hlen, Nat.zero_add]; exact hfit),
    hslots _ hfit]
  rfl

include hdata hbpg hbs htable in
/-- When the descriptors of the groups do not fit in one block, `try_new` panics: the table is
    read as one block and sliced 32 bytes per group. -/
theorem tryNew_table_past_block_panics
    (hmany : bs < divCeil (Superblock.ofArray data).numBlocks
      (Superblock.ofArray data).blocksPerGroup * BGD_SIZE) :
    tryNew device = .error (.panic ⟨"range end index out of range for slice"⟩) := by
  have hlen : (slice device (bgdtOffset bs) bs).length = bs := length_slice_of_le htable
  obtain ⟨n, hn⟩ : ∃ n, divCeil (Superblock.ofArray data).numBlocks
      (Superblock.ofArray data).blocksPerGroup = n + 1 :=
    Nat.exists_eq_add_one.2 (Nat.pos_of_ne_zero fun h => by rw [h, Nat.zero_mul] at hmany; omega)
  rw [tryNew_eq_bind hdata hbpg hbs htable, hn,
    descriptorsFrom_eq_panic (by rw [hlen, Nat.zero_add]; rw [hn] at hmany; exact hmany)]
  rfl

end TryNew

/-- The superblock of an image of `numBlocks` blocks of `1024 << log2BlockSize` bytes in groups
    of `blocksPerGroup` blocks. -/
def superblockArray (numBlocks log2BlockSize blocksPerGroup : Nat) : List Nat :=
  writeLE (writeLE (writeLE (writeLE (List.replicate 1024 0) 4 4 numBlocks) 24 4 log2BlockSize)
    32 4 blocksPerGroup) 56 2 0xEF53

/-- A device of `size` bytes with the superblock `sb` at `SUPERBLOCK_OFFSET` and zeros around it. -/
def imageOf (sb : List Nat) (size : Nat) : List Nat :=
  List.replicate 1024 0 ++ sb ++ List.replicate (size - 2048) 0

theorem length_imageOf {sb : List Nat} {size : Nat} (hsb : sb.length = SUPERBLOCK_SIZE)
    (hsize : 2048 ≤ size) : (imageOf sb size).length = size := by
  simp only [imageOf, List.length_append, List.length_replicate, hsb, SUPERBLOCK_SIZE]
  omega

theorem readAt_imageOf {sb : List Nat} {size : Nat} (hsb : sb.length = SUPERBLOCK_SIZE)
    (hsize : 2048 ≤ size) : readAt (imageOf sb size) SUPERBLOCK_OFFSET SUPERBLOCK_SIZE = some sb := by
  have hslice := slice_append_middle (List.replicate 1024 0) sb (List.replicate (size - 2048) 0)
  rw [List.length_replicate, hsb] at hslice
  rw [readAt_of_le (by rw [length_imageOf hsb hsize]; unfold SUPERBLOCK_OFFSET SUPERBLOCK_SIZE; omega)]
  exact congrArg some hslice

/-- An image of 33 groups of 8192 blocks of 1 KiB, 264 MiB. -/
def manyGroupsImage : List Nat := imageOf (superblockArray (33 * 8192) 0 8192) (33 * 8192 * 1024)

set_option maxRecDepth 100000 in
theorem manyGroupsImage_tryNew_panics :
    tryNew manyGroupsImage = .error (.panic ⟨"range end index out of range for slice"⟩) := by
  have hsb : (superblockArray (33 * 8192) 0 8192).length = SUPERBLOCK_SIZE := rfl
  have hbs : (Superblock.ofArray (superblockArray (33 * 8192) 0 8192)).blockSize? = some 1024 := rfl
  have hnum : (Superblock.ofArray (superblockArray (33 * 8192) 0 8192)).numBlocks = 33 * 8192 := rfl
  have hbpg : (Superblock.ofArray (superblockArray (33 * 8192) 0 8192)).blocksPerGroup = 8192 := rfl
  have hlen : manyGroupsImage.length = 33 * 8192 * 1024 := length_imageOf hsb (by decide)
  exact tryNew_table_past_block_panics (readAt_imageOf hsb (by decide)) (by rw [hbpg]; decide) hbs
    (by rw [hlen]; decide) (by rw [hnum, hbpg]; decide)

-- ---------------------------------------------------------------------------
-- Block offsets past 4 GiB
-- ---------------------------------------------------------------------------

/-- `resolve_block_offset` on a file system with block size `bs`: the product, or the panic of a
    `u32` product past `u32::MAX`. -/
theorem resolveBlockOffset_run {fs : Ext2Fs} {bs : Nat} (hbs : fs.superblock.blockSize? = some bs)
    (addr : Nat) :
    (resolveBlockOffset addr).run fs =
      if addr * bs < U32_LIMIT then .ok (addr * bs) fs
      else .error (.panic ⟨"attempt to multiply with overflow"⟩) fs := by
  unfold resolveBlockOffset
  rw [run_bind_of_run_ok (blockSize_run hbs)]
  unfold checkedU32
  split <;> rfl

/-- `read_block` of a block that starts at or past 4 GiB panics, whatever the device holds and
    however large it is: `resolve_block_offset` multiplies in `u32`. -/
theorem readBlock_past_4GiB_panics {fs : Ext2Fs} {bs addr : Nat} (len : Nat)
    (hbs : fs.superblock.blockSize? = some bs) (hover : U32_LIMIT ≤ addr * bs) :
    (readBlock addr len).run fs = .error (.panic ⟨"attempt to multiply with overflow"⟩) fs := by
  have hoff := resolveBlockOffset_run hbs addr
  rw [if_neg (Nat.not_lt.2 hover)] at hoff
  exact run_bind_of_run_error hoff

/-- `read_block` of a block below 4 GiB: the bytes the device holds there. -/
theorem readBlock_run_of_readAt {fs : Ext2Fs} {bs addr len : Nat} {bytes : List Nat}
    (hbs : fs.superblock.blockSize? = some bs) (haddr : addr * bs < U32_LIMIT)
    (hread : readAt fs.blockDevice (addr * bs) len = some bytes) :
    (readBlock addr len).run fs = .ok bytes fs := by
  have hoff := resolveBlockOffset_run hbs addr
  rw [if_pos haddr] at hoff
  unfold readBlock
  rw [run_bind_of_run_ok hoff, deviceRead_run, hread]

/-- `write_block` of a block below 4 GiB, where the device has room for the bytes. -/
theorem writeBlock_run_of_writeAt {fs : Ext2Fs} {bs addr : Nat} {bytes device : List Nat}
    (hbs : fs.superblock.blockSize? = some bs) (haddr : addr * bs < U32_LIMIT)
    (hwrite : writeAt fs.blockDevice (addr * bs) bytes = some device) :
    (writeBlock addr bytes).run fs = .ok () { fs with blockDevice := device } := by
  have hoff := resolveBlockOffset_run hbs addr
  rw [if_pos haddr] at hoff
  unfold writeBlock
  rw [run_bind_of_run_ok hoff, deviceWrite_run, hwrite]

/-- An image of 33 groups of 32768 blocks of 4 KiB, a little over 4 GiB. -/
def largeImage : List Nat := imageOf (superblockArray (33 * 32768) 2 32768) (33 * 32768 * 4096)

set_option maxRecDepth 100000 in
theorem largeImage_readBlock_panics :
    ∃ fs, tryNew largeImage = .ok fs ∧ 2 ^ 20 < fs.superblock.numBlocks ∧
      fs.blockDevice.length = fs.superblock.numBlocks * 4096 ∧
      (readBlock (2 ^ 20) 4096).run fs = .error (.panic ⟨"attempt to multiply with overflow"⟩) fs := by
  have hsb : (superblockArray (33 * 32768) 2 32768).length = SUPERBLOCK_SIZE := rfl
  have hbs : (Superblock.ofArray (superblockArray (33 * 32768) 2 32768)).blockSize? = some 4096 := rfl
  have hnum : (Superblock.ofArray (superblockArray (33 * 32768) 2 32768)).numBlocks = 33 * 32768 := rfl
  have hbpg : (Superblock.ofArray (superblockArray (33 * 32768) 2 32768)).blocksPerGroup = 32768 := rfl
  have hlen : largeImage.length = 33 * 32768 * 4096 := length_imageOf hsb (by decide)
  refine ⟨_, tryNew_eq_ok (readAt_imageOf hsb (by decide)) (by rw [hbpg]; decide) hbs
    (by rw [hlen]; decide) (by rw [hnum, hbpg]; decide), ?_, ?_,
    readBlock_past_4GiB_panics 4096 hbs (by decide)⟩
  · show 2 ^ 20 < (Superblock.ofArray (superblockArray (33 * 32768) 2 32768)).numBlocks
    rw [hnum]
    decide
  · show largeImage.length = (Superblock.ofArray (superblockArray (33 * 32768) 2 32768)).numBlocks * 4096
    rw [hlen, hnum]

end Muffin.Ext2
