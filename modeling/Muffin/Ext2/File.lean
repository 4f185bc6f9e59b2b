-- SUMMARY: Inodes and regular files of `kernel_ext2`: reading and writing an inode in its group's table, `resolve_block_index` through the direct and indirect pointers, `read_blocks_from_inode` with its runs of consecutive blocks, and `read_from_file` and `write_to_file`.
import Muffin.Ext2.Fs

/-!
# ext2: inodes and regular files

An inode is the 128-byte array its `bytefield` converts to, which its fields
cover entirely. `resolve_block_index` maps a block of a file to a block of the
device through the twelve direct pointers and the singly, doubly and triply
indirect blocks; a zero pointer is a hole.

`read_blocks_from_inode` resolves a range of blocks and reads each run of
consecutive device blocks with one read, and each run of holes as zeros.
`write_to_file` reads the blocks its range covers, copies the buffer into them,
and writes each one back; a block that is a hole gets the block
`allocate_block` returns, recorded in the first free direct pointer. Since an
allocation does not set its bit on the device, two holes written by one call get
the same block (`smallFile_write_read_back`).

The file is the caller's `&mut RegularFile`: a call on it runs on the file
system and the file together, and keeps the changes it made to both when it
ends early.
-/

namespace Muffin.Ext2

open Rust Bytes EStateM

/-- The bytes of `InodeRawArray`. -/
def INODE_SIZE : Nat := 128

/-- `Inode`, as the 128-byte array it converts to. -/
structure Inode where
  bytes : List Nat
  length_eq : bytes.length = INODE_SIZE

namespace Inode

/-- `Inode::try_from(InodeRawArray)`, which cannot fail. -/
def ofArray (a : List Nat) : Inode := ⟨mask INODE_SIZE [(0, INODE_SIZE)] a, length_mask ..⟩

/-- `type_and_perm`. -/
def typeAndPerm (inode : Inode) : Nat := readLE inode.bytes 0 2

/-- `byte_size_lower`. -/
def byteSizeLower (inode : Inode) : Nat := readLE inode.bytes 4 4

/-- `num_disk_sectors`. -/
def numDiskSectors (inode : Inode) : Nat := readLE inode.bytes 28 4

/-- `direct_block_ptr[i]`. -/
def directBlockPtr (inode : Inode) (i : Fin 12) : Nat := readLE inode.bytes (40 + 4 * i) 4

/-- `singly_indirect_block_ptr`. -/
def singlyIndirectBlockPtr (inode : Inode) : Nat := readLE inode.bytes 88 4

/-- `doubly_indirect_block_ptr`. -/
def doublyIndirectBlockPtr (inode : Inode) : Nat := readLE inode.bytes 92 4

/-- `triply_indirect_block_ptr`. -/
def triplyIndirectBlockPtr (inode : Inode) : Nat := readLE inode.bytes 96 4

/-- `byte_size_upper_or_dir_acl`. -/
def byteSizeUpperOrDirAcl (inode : Inode) : Nat := readLE inode.bytes 108 4

/-- Write the field of `w` bytes at `off`, inside the inode. -/
def setField (inode : Inode) (off w n : Nat) (h : off + w ≤ INODE_SIZE) : Inode :=
  ⟨writeLE inode.bytes off w n, by rw [length_writeLE (by rw [inode.length_eq]; exact h)]; exact inode.length_eq⟩

/-- `set_direct_ptr(i, ptr)`, with `None` written as zero. -/
def setDirectPtr (inode : Inode) (i : Fin 12) (ptr : Nat) : Inode :=
  inode.setField (40 + 4 * i) 4 ptr (by unfold INODE_SIZE; omega)

/-- `set_file_size_lower`. -/
def setFileSizeLower (inode : Inode) (n : Nat) : Inode := inode.setField 4 4 n (by decide)

/-- `set_file_size_upper`. -/
def setFileSizeUpper (inode : Inode) (n : Nat) : Inode := inode.setField 108 4 n (by decide)

/-- `*num_disk_sectors_mut() = n`. -/
def setNumDiskSectors (inode : Inode) (n : Nat) : Inode := inode.setField 28 4 n (by decide)

/-- `typ() == Type::Directory`: `from_bits_truncate` keeps the bits `0xF000` of the type. -/
def isDirectory (inode : Inode) : Bool := inode.typeAndPerm &&& 0xF000 == 0x4000

/-- `Inode::len`. -/
def len (inode : Inode) : Nat :=
  if inode.isDirectory then inode.byteSizeLower
  else inode.byteSizeLower ||| (inode.byteSizeUpperOrDirAcl <<< 32)

/-- `direct_ptrs()`: the twelve direct pointers, zero being none. -/
def directPtrs (inode : Inode) : List (Option Nat) :=
  (List.finRange 12).map fun i => nonZero (inode.directBlockPtr i)

/-- The first direct pointer that is none, which `write_to_file` fills. -/
def firstFreeSlot (inode : Inode) : Option (Fin 12) :=
  (List.finRange 12).find? fun i => inode.directBlockPtr i == 0

end Inode

/-- `RegularFile`: an inode and its address. -/
structure RegularFile where
  inodeAddress : Nat
  inode : Inode

-- ---------------------------------------------------------------------------
-- Inodes in their tables
-- ---------------------------------------------------------------------------

/-- The byte offset of inode `addr` in its group's inode table, as `read_inode` and
    `write_inode` compute it. -/
def inodeOffset (addr : Nat) : FsM Nat := do
  let sb := (← get).superblock
  if sb.inodesPerGroup = 0 then
    throw (.panic ⟨"attempt to divide by zero"⟩)
  else
    let d ← descriptor ((addr - 1) / sb.inodesPerGroup)
    if d.inodeTableStartingBlock = 0 then
      throw (.panic ⟨"called `Option::unwrap()` on a `None` value"⟩)
    else
      let table ← resolveBlockOffset d.inodeTableStartingBlock
      let inTable ← checkedU32 ((addr - 1) % sb.inodesPerGroup * sb.inodeSize)
        "attempt to multiply with overflow"
      pure (table + inTable)

/-- `Ext2Fs::read_inode`: the first 128 bytes of the inode's slot. -/
def readInode (addr : Nat) : FsM Inode := do
  let bytes ← deviceRead (← inodeOffset addr) INODE_SIZE .deviceRead
  pure (Inode.ofArray bytes)

/-- `Ext2Fs::write_inode`. -/
def writeInode (addr : Nat) (inode : Inode) : FsM Unit := do
  deviceWrite (← inodeOffset addr) inode.bytes .deviceWrite

-- ---------------------------------------------------------------------------
-- Resolving a block of a file
-- ---------------------------------------------------------------------------

/-- `indirect_pointer_limits`: the first block index of the singly, doubly and triply indirect
    ranges, in `u32`. -/
def indirectPointerLimits : FsM (Nat × Nat × Nat) := do
  let pointersPerBlock := (← blockSize) / 4
  let indirect ← checkedU32 (12 + pointersPerBlock) "attempt to add with overflow"
  let square ← checkedU32 (pointersPerBlock * pointersPerBlock) "attempt to multiply with overflow"
  let doubleIndirect ← checkedU32 (indirect + square) "attempt to add with overflow"
  pure (12, indirect, doubleIndirect)

/-- The block pointers of an indirect block: its `u32`s, zero being none. -/
def pointerTable (data : List Nat) : List (Option Nat) :=
  (List.range (data.length / 4)).map fun i => nonZero (readLE data (4 * i) 4)

/-- `resolve_indirect_ptr`: entry `index` of the indirect block `ptr`. -/
def resolveIndirectPtr (ptr : Option Nat) (index : Nat) : FsM (Option Nat) := do
  let some ptr := ptr | pure none
  let data ← readBlock ptr (← blockSize)
  match (pointerTable data)[index]? with
  | some entry => pure entry
  | none => throw (.error (.invalidBlockIndex index))

/-- `resolve_double_indirect_ptr`. -/
def resolveDoubleIndirectPtr (ptr : Option Nat) (index : Nat) : FsM (Option Nat) := do
  let perBlock := (← blockSize) / 4
  if perBlock = 0 then
    throw (.panic ⟨"attempt to divide by zero"⟩)
  else
    let single ← resolveIndirectPtr ptr (index / perBlock)
    resolveIndirectPtr single (index % perBlock)

/-- `resolve_triple_indirect_ptr`. -/
def resolveTripleIndirectPtr (ptr : Option Nat) (index : Nat) : FsM (Option Nat) := do
  let perBlock := (← blockSize) / 4
  let perDouble ← checkedU32 (perBlock * perBlock) "attempt to multiply with overflow"
  if perDouble = 0 then
    throw (.panic ⟨"attempt to divide by zero"⟩)
  else
    let double ← resolveIndirectPtr ptr (index / perDouble)
    resolveDoubleIndirectPtr double (index % perDouble)

/-- `resolve_block_index`. -/
def resolveBlockIndex (inode : Inode) (index : Nat) : FsM (Option Nat) := do
  let (direct, indirect, doubleIndirect) ← indirectPointerLimits
  if index < direct then
    pure (inode.directPtrs[index]?).join
  else if index < indirect then
    resolveIndirectPtr (nonZero inode.singlyIndirectBlockPtr) (index - direct)
  else if index < doubleIndirect then
    resolveDoubleIndirectPtr (nonZero inode.doublyIndirectBlockPtr) (index - indirect)
  else
    -- in `u64`, which cannot overflow once the square fitted in a `u32`
    let perBlock := (← blockSize) / 4
    if doubleIndirect + perBlock * perBlock * perBlock ≤ index then
      throw (.error (.invalidBlockIndex index))
    else
      resolveTripleIndirectPtr (nonZero inode.triplyIndirectBlockPtr) (index - doubleIndirect)

-- ---------------------------------------------------------------------------
-- Reading the blocks of a file
-- ---------------------------------------------------------------------------

/-- How many of `pointers` continue the run of device blocks that ends with `prev`: each is the
    block after the one before it. -/
def consecutiveCount (prev : Nat) : List (Option Nat) → Nat
  | some next :: rest => if prev + 1 < U32_LIMIT ∧ prev + 1 = next then consecutiveCount next rest + 1 else 0
  | _ => 0

/-- The end of the run that starts at `start`: the holes up to the next pointer that is set,
    or the blocks that follow each other. -/
def runEnd (pointers : List (Option Nat)) (start : Nat) : Nat :=
  match pointers[start]? with
  | some (some first) => start + 1 + consecutiveCount first (pointers.drop (start + 1))
  | _ => start + 1 + ((pointers.drop (start + 1)).takeWhile Option.isNone).length

/-- The loop of `read_blocks_from_inode` from `start`, one run per round: each round ends at
    least one pointer further, so `fuel` of the number of pointers is enough. The bytes of the
    runs, and the count it adds up. -/
def readRunsFrom (bs : Nat) (pointers : List (Option Nat)) : Nat → Nat → FsM (List Nat × Nat)
  | 0, _ => pure ([], 0)
  | fuel + 1, start =>
    if pointers.length ≤ start then pure ([], 0)
    else do
      let stop := runEnd pointers start
      let bytes ← match pointers[start]? with
        | some (some first) => do
          deviceRead (← resolveBlockOffset first) ((stop - start) * bs) .deviceRead
        | _ => pure (List.replicate ((stop - start) * bs) 0)
      let (rest, total) ← readRunsFrom bs pointers fuel stop
      pure (bytes ++ rest, (stop - start) * bs + total)

/-- `read_blocks_from_inode` for the blocks `start` to `stop` of a file: their bytes and the
    number of bytes it counts. -/
def readBlocksFromInode (inode : Inode) (start stop : Nat) : FsM (List Nat × Nat) := do
  let bs ← blockSize
  let pointers ← (List.range' start (stop - start + 1)).mapM (resolveBlockIndex inode)
  readRunsFrom bs pointers pointers.length 0

/-- The `u32` difference `a - b`, which panics below zero. -/
def checkedSubU32 (a b : Nat) : FsM Nat :=
  if b ≤ a then pure (a - b) else throw (.panic ⟨"attempt to subtract with overflow"⟩)

/-- The blocks a transfer of `len` bytes at `offset` covers, as `read_from_file` and
    `write_to_file` compute them in `u32`: the first and the last block, and the offset in the
    first. -/
def blockRange (offset len : Nat) : FsM (Nat × Nat × Nat) := do
  let bs ← blockSize
  if bs = 0 then
    throw (.panic ⟨"attempt to divide by zero"⟩)
  else
    let offset := offset % U32_LIMIT
    let stop ← checkedU32 (offset + len % U32_LIMIT) "attempt to add with overflow"
    let last ← checkedSubU32 stop 1
    let count ← checkedSubU32 (last / bs) (offset / bs)
    let _ ← checkedU32 (count + 1) "attempt to add with overflow"
    pure (offset / bs, last / bs, offset % bs)

/-- `Ext2Fs::read_from_file`: the bytes it copies into a buffer of `len` bytes, whose number it
    returns. -/
def readFromFile (file : RegularFile) (offset len : Nat) : FsM (List Nat) := do
  let size := file.inode.len
  if size ≤ offset then
    pure []
  else
    let (start, last, relative) ← blockRange offset len
    let (data, count) ← readBlocksFromInode file.inode start last
    let total := min (min count (size - offset % U32_LIMIT)) len
    if data.length < relative + total then
      throw (.panic ⟨"range end index out of range for slice"⟩)
    else
      pure (slice data relative total)

-- ---------------------------------------------------------------------------
-- Writing a file
-- ---------------------------------------------------------------------------

/-- A call on the file system and on the caller's file. -/
abbrev FileM := EStateM Exit (Ext2Fs × RegularFile)

/-- Run a call of the file system inside a call on a file. -/
def onFs {α : Type} (x : FsM α) : FileM α := focus Prod.fst (fun p fs => (fs, p.2)) x

/-- Change the caller's inode. -/
def modifyInode (f : Inode → Inode) : FileM Unit :=
  modify fun p => (p.1, { p.2 with inode := f p.2.inode })

/-- The device block for block `index` of the file: the one it has, or one `allocate_block`
    returns, recorded in the first free direct pointer and written to the inode table; and
    whether it is new. -/
def blockForWrite (index : Nat) : FileM (Nat × Bool) := do
  match ← onFs (resolveBlockIndex (← get).2.inode index) with
  | some block => pure (block, false)
  | none =>
    let some block ← onFs allocateBlock | throw (.error .noSpace)
    match (← get).2.inode.firstFreeSlot with
    | some slot =>
      modifyInode fun inode => inode.setDirectPtr slot block
      let file := (← get).2
      onFs (writeInode file.inodeAddress file.inode)
      pure (block, true)
    | none => throw (.panic ⟨"not yet implemented: allocate indirect block"⟩)

/-- The loop of `write_to_file` over the blocks and the chunks of the data: each chunk written
    to the block for its index. The number of blocks allocated. -/
def writeChunks : List Nat → List (List Nat) → FileM Nat
  | index :: indices, chunk :: chunks => do
    let (block, new) ← blockForWrite index
    onFs (writeBlock block chunk)
    let allocated ← writeChunks indices chunks
    pure ((if new then 1 else 0) + allocated)
  | _, _ => pure 0

/-- `chunks_exact(bs)`: the chunks of `bs` bytes, without the remainder. -/
def chunksExact (bs : Nat) (data : List Nat) : List (List Nat) :=
  (List.range (data.length / bs)).map fun i => slice data (i * bs) bs

/-- `Ext2Fs::write_to_file` on the caller's file. -/
def writeToFile (offset : Nat) (buf : List Nat) : FileM Nat := do
  let bs ← onFs blockSize
  let (start, last, relative) ← onFs (blockRange offset buf.length)
  let (data, _) ← onFs (readBlocksFromInode (← get).2.inode start last)
  if data.length < relative + buf.length then
    throw (.panic ⟨"range end index out of range for slice"⟩)
  else
    let data := overwrite data relative buf
    let allocated ← writeChunks (List.range' start (last - start + 1)) (chunksExact bs data)
    let size := offset % U32_LIMIT + buf.length
    if (← get).2.inode.len < size then
      let sectors := (← get).2.inode.numDiskSectors + allocated
      if U32_LIMIT ≤ sectors then
        throw (.panic ⟨"attempt to add with overflow"⟩)
      else
        modifyInode fun inode =>
          ((inode.setFileSizeLower (size % U32_LIMIT)).setFileSizeUpper
            ((size >>> 32) % U32_LIMIT)).setNumDiskSectors sectors
        let file := (← get).2
        onFs (writeInode file.inodeAddress file.inode)
        pure buf.length
    else
      pure buf.length

/-- The empty regular file of `smallImage`, inode 5. -/
def smallFile : RegularFile := ⟨5, Inode.ofArray (slice smallImage 5632 128)⟩

/-- Writing two blocks, of ones and then of twos, to the empty file of `smallImage` returns
    2048, records block 6 in both direct pointers, and reading the two blocks back returns the
    block of twos twice. -/
theorem smallFile_write_read_back :
    value? (do
      let n ← writeToFile 0 (List.replicate 1024 1 ++ List.replicate 1024 2)
      let file := (← get).2
      let bytes ← onFs (readFromFile file 0 n)
      pure (n, file.inode.directPtrs.take 3, bytes)) (smallFs, smallFile) =
      some (2048, [some 6, some 6, none], List.replicate 1024 2 ++ List.replicate 1024 2) := by
  decide +kernel

-- ---------------------------------------------------------------------------
-- Empty reads
-- ---------------------------------------------------------------------------

theorem checkedU32_run_of_lt {n : Nat} {msg : String} {s : Ext2Fs} (h : n < U32_LIMIT) :
    (checkedU32 n msg).run s = .ok n s := by
  rw [checkedU32, if_pos h]
  rfl

theorem checkedSubU32_run (a b : Nat) (s : Ext2Fs) :
    (checkedSubU32 a b).run s =
      if b ≤ a then .ok (a - b) s else .error (.panic ⟨"attempt to subtract with overflow"⟩) s := by
  unfold checkedSubU32
  split <;> rfl

/-- The blocks of an empty transfer that starts at a block boundary: the last one, computed as
    `(offset + len - 1) / block_size`, is the block before the first, and the `u32` subtraction
    of the two panics; at offset zero `offset + len - 1` itself underflows. -/
theorem blockRange_empty_at_block_start {fs : Ext2Fs} {bs offset : Nat}
    (hbs : fs.superblock.blockSize? = some bs) (hpos : 0 < bs)
    (halign : offset % U32_LIMIT % bs = 0) :
    (blockRange offset 0).run fs = .error (.panic ⟨"attempt to subtract with overflow"⟩) fs := by
  have hlt : offset % U32_LIMIT < U32_LIMIT := Nat.mod_lt _ (by decide)
  unfold blockRange
  rw [run_bind_of_run_ok (blockSize_run hbs)]
  dsimp only
  rw [if_neg (Nat.pos_iff_ne_zero.1 hpos), Nat.zero_mod, Nat.add_zero,
    run_bind_of_run_ok (checkedU32_run_of_lt hlt)]
  by_cases hzero : offset % U32_LIMIT = 0
  · have hstop : (checkedSubU32 (offset % U32_LIMIT) 1).run fs =
        .error (.panic ⟨"attempt to subtract with overflow"⟩) fs := by
      rw [checkedSubU32_run, if_neg (by omega)]
    exact run_bind_of_run_error hstop
  · obtain ⟨q, hq⟩ : ∃ q, offset % U32_LIMIT = bs * q :=
      ⟨_, (Nat.mul_div_cancel' (Nat.dvd_of_mod_eq_zero halign)).symm⟩
    -- the last block `(offset - 1) / bs` is the block before the first, `offset / bs`
    have hbefore : (offset % U32_LIMIT - 1) / bs < offset % U32_LIMIT / bs := by
      rw [hq, Nat.mul_div_cancel_left _ hpos, Nat.div_lt_iff_lt_mul hpos, Nat.mul_comm q bs]
      omega
    have hstop : (checkedSubU32 (offset % U32_LIMIT) 1).run fs = .ok (offset % U32_LIMIT - 1) fs := by
      rw [checkedSubU32_run, if_pos (by omega)]
    have hcount : (checkedSubU32 ((offset % U32_LIMIT - 1) / bs) (offset % U32_LIMIT / bs)).run fs =
        .error (.panic ⟨"attempt to subtract with overflow"⟩) fs := by
      rw [checkedSubU32_run, if_neg (by omega)]
    rw [run_bind_of_run_ok hstop]
    exact run_bind_of_run_error hcount

/-- `read_from_file` into an empty buffer, at an offset inside the file that starts a block,
    panics instead of returning `Ok(0)`: at offset zero, on every non-empty file. -/
theorem readFromFile_empty_panics {fs : Ext2Fs} {bs offset : Nat} {file : RegularFile}
    (hbs : fs.superblock.blockSize? = some bs) (hpos : 0 < bs) (hoff : offset < file.inode.len)
    (halign : offset % U32_LIMIT % bs = 0) :
    (readFromFile file offset 0).run fs = .error (.panic ⟨"attempt to subtract with overflow"⟩) fs := by
  unfold readFromFile
  dsimp only
  rw [if_neg (Nat.not_le.2 hoff)]
  exact run_bind_of_run_error (blockRange_empty_at_block_start hbs hpos halign)

set_option maxRecDepth 100000 in
theorem smallFile_empty_read_panics :
    (readFromFile ⟨5, smallFile.inode.setFileSizeLower 1024⟩ 0 0).run smallFs =
      .error (.panic ⟨"attempt to subtract with overflow"⟩) smallFs :=
  @readFromFile_empty_panics smallFs 1024 0 ⟨5, smallFile.inode.setFileSizeLower 1024⟩ rfl
    (by decide) (by decide) (by decide)

end Muffin.Ext2
