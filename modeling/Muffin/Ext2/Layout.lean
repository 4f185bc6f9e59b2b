-- SUMMARY: The `bytefield!` structs of `kernel_ext2` (superblock, block group descriptor, inode, directory entry header) as layouts of slots, both round trips of each codec, that the superblock, descriptors and inodes of the model are the codec's round trip of the bytes read, and what the write-backs of an inode and of the superblock put on the device.
import Muffin.Lib.Bytefield
import Muffin.Ext2.Dir

/-!
# ext2: the `bytefield!` codecs

`bytefield!` declares a struct by its fields, each a type and a byte offset in an
array. `try_from` reads every field from the array, little-endian;
`From<&Struct>` starts from `Default::default()`, an array of zeros, and writes
every field into it. A `Layout` is such a declaration, with two facts the macro
never checks carried as fields: the fields lie in the array and share no byte.
The four structs below are built with both proved, so that reading back what was
written gives the values (`Layout.decode_encode`) for every value whose fields
fit their types.

Writing back what was read is another matter: it keeps the bytes the fields
cover and zeros the rest (`Layout.encode_decode`). The fields of `Inode` and
`DirEntryNoName` cover their arrays, and there the round trip is the identity. The
fields of `Superblock` cover bytes 0 to 152 and 200 to 206 of 1024, and those of
`BlockGroupDescriptor` bytes 0 to 18 of 32. The model of `Ext2Fs` keeps each
struct as that round trip of the bytes it read (`Superblock.bytes_ofArray`), so
reading an inode and writing it back changes nothing (`writeInode_of_readInode`),
while every `allocate_block` that returns a block leaves zeros on the device in
every byte of the superblock that no field covers
(`allocateBlock_zeroes_unread_superblock_bytes`).
-/

namespace Muffin.Ext2

open Rust Bytes EStateM

-- ---------------------------------------------------------------------------
-- `bytefield!`
-- ---------------------------------------------------------------------------

/-- The field types `bytefield_field_read!` and `bytefield_field_write!` accept. -/
inductive FieldType where
  | u8
  | u16
  | u32
  | u64
  | u128
  | u8Array (len : Nat)
  | u32Array (len : Nat)
  deriving DecidableEq, Repr

/-- The bytes a field of type `t` at `offset` takes: one little-endian word of
    `size_of::<t>()` bytes, or `len` words of one byte or of four. -/
def FieldType.slot (offset : Nat) : FieldType → Slot
  | .u8 => ⟨offset, 1, 1⟩
  | .u16 => ⟨offset, 2, 1⟩
  | .u32 => ⟨offset, 4, 1⟩
  | .u64 => ⟨offset, 8, 1⟩
  | .u128 => ⟨offset, 16, 1⟩
  | .u8Array len => ⟨offset, 1, len⟩
  | .u32Array len => ⟨offset, 4, len⟩

/-- The slots of the fields of a `bytefield!` struct, each a type at an offset. -/
def bytefield (fields : List (FieldType × Nat)) : List Slot := fields.map fun f => f.1.slot f.2

/-- A `bytefield!` struct over an array of `size` bytes whose fields lie in the array and
    share no byte. -/
structure Layout where
  fields : List (FieldType × Nat)
  size : Nat
  inBounds : ∀ s ∈ bytefield fields, s.offset + s.size ≤ size
  disjoint : (bytefield fields).Pairwise Slot.Disjoint

namespace Layout

variable (L : Layout)

/-- The slots of the fields. -/
def slots : List Slot := bytefield L.fields

/-- The byte ranges of the fields. -/
def ranges : List (Nat × Nat) := L.slots.map Slot.range

/-- `Struct::try_from(&array)`: the words of every field, in order. -/
def decode (buf : List Nat) : List (List Nat) := decodeFields L.slots buf

/-- `From<&Struct> for array`: every field written into zeros. -/
def encode (values : List (List Nat)) : List Nat := encodeFields L.slots L.size values

/-- The values of a struct: each field's words fit its type. -/
def Fits (values : List (List Nat)) : Prop := List.Forall₂ Slot.Fits L.slots values

variable {L} {buf : List Nat} {values : List (List Nat)}

/-- A struct converted to its array and back is the struct. -/
theorem decode_encode (h : L.Fits values) : L.decode (L.encode values) = values :=
  decodeFields_encodeFields h L.disjoint L.inBounds

/-- An array converted to a struct and back keeps the bytes the fields cover and zeros the
    others. -/
theorem encode_decode (hbytes : ∀ b ∈ buf, b < 256) (hlen : buf.length = L.size) :
    L.encode (L.decode buf) = mask L.size L.ranges buf :=
  encodeFields_decodeFields hbytes hlen L.inBounds

/-- The same, with the ranges of the fields merged where they meet. -/
theorem encode_decode_of_coalesce {fields : List (Nat × Nat)} (h : coalesce L.ranges = fields)
    (hbytes : ∀ b ∈ buf, b < 256) (hlen : buf.length = L.size) :
    L.encode (L.decode buf) = mask L.size fields buf := by
  rw [encode_decode hbytes hlen, ← mask_coalesce, h]

/-- Where the fields cover the whole array, an array converted to a struct and back is the
    array. -/
theorem encode_decode_of_covers (h : coalesce L.ranges = [(0, L.size)])
    (hbytes : ∀ b ∈ buf, b < 256) (hlen : buf.length = L.size) : L.encode (L.decode buf) = buf := by
  rw [encode_decode_of_coalesce h hbytes hlen]
  exact mask_eq_self (fun i hi => by simp [hi]) hlen

end Layout

-- ---------------------------------------------------------------------------
-- The structs of the crate
-- ---------------------------------------------------------------------------

/-- `bytefield! { pub struct Superblock (SuperblockArray) { .. } }`. -/
def Superblock.layout : Layout where
  fields := [
    (.u32, 0),          -- num_inodes
    (.u32, 4),          -- num_blocks
    (.u32, 8),          -- num_superuser_reserved_blocks
    (.u32, 12),         -- num_unallocated_blocks
    (.u32, 16),         -- num_unallocated_inodes
    (.u32, 20),         -- superblock_block_number
    (.u32, 24),         -- log2_block_size
    (.u32, 28),         -- log2_fragment_size
    (.u32, 32),         -- blocks_per_group
    (.u32, 36),         -- fragments_per_group
    (.u32, 40),         -- inodes_per_group
    (.u32, 44),         -- last_mount_time
    (.u32, 48),         -- last_written_time
    (.u16, 52),         -- mounts_since_fsck
    (.u16, 54),         -- mounts_allowed_before_fsck
    (.u16, 56),         -- magic_number
    (.u16, 58),         -- state
    (.u16, 60),         -- error_policy
    (.u16, 62),         -- version_minor
    (.u32, 64),         -- last_fsck
    (.u32, 68),         -- fsck_force_interval
    (.u32, 72),         -- os_id
    (.u32, 76),         -- version_major
    (.u16, 80),         -- uid_for_reserved_blocks
    (.u16, 82),         -- gid_for_reserved_blocks
    (.u32, 84),         -- first_non_reserved_inode
    (.u16, 88),         -- inode_size
    (.u16, 90),         -- this_superblock_block_group
    (.u32, 92),         -- optional_features
    (.u32, 96),         -- required_features
    (.u32, 100),        -- write_required_features
    (.u8Array 16, 104), -- fsid
    (.u8Array 16, 120), -- volume_name
    (.u8Array 16, 136), -- last_mount_path
    (.u32, 200),        -- compression
    (.u8, 204),         -- num_preallocate_blocks_file
    (.u8, 205)]         -- num_preallocate_blocks_directory
  size := SUPERBLOCK_SIZE
  inBounds := by decide
  disjoint := by decide

/-- `bytefield! { pub struct BlockGroupDescriptor ([u8; 32]) { .. } }`. -/
def BlockGroupDescriptor.layout : Layout where
  fields := [
    (.u32, 0),  -- block_usage_bitmap_block
    (.u32, 4),  -- inode_usage_bitmap_block
    (.u32, 8),  -- inode_table_starting_block
    (.u16, 12), -- num_unallocated_blocks
    (.u16, 14), -- num_unallocated_inodes
    (.u16, 16)] -- num_directories
  size := BGD_SIZE
  inBounds := by decide
  disjoint := by decide

/-- `bytefield! { pub struct Inode (InodeRawArray) { .. } }`. -/
def Inode.layout : Layout where
  fields := [
    (.u16, 0),          -- type_and_perm
    (.u16, 2),          -- user_id
    (.u32, 4),          -- byte_size_lower
    (.u32, 8),          -- last_access_time
    (.u32, 12),         -- creation_time
    (.u32, 16),         -- last_modification_time
    (.u32, 20),         -- deletion_time
    (.u16, 24),         -- group_id
    (.u16, 26),         -- num_hard_links
    (.u32, 28),         -- num_disk_sectors
    (.u32, 32),         -- flags
    (.u8Array 4, 36),   -- os_val_1
    (.u32Array 12, 40), -- direct_block_ptr
    (.u32, 88),         -- singly_indirect_block_ptr
    (.u32, 92),         -- doubly_indirect_block_ptr
    (.u32, 96),         -- triply_indirect_block_ptr
    (.u32, 100),        -- generation
    (.u32, 104),        -- extended_attribute_block
    (.u32, 108),        -- byte_size_upper_or_dir_acl
    (.u32, 112),        -- fragment_block_address
    (.u8Array 12, 116)] -- os_val_2
  size := INODE_SIZE
  inBounds := by decide
  disjoint := by decide

/-- `bytefield! { pub struct DirEntryNoName ([u8; 8]) { .. } }`. -/
def DirEntryNoName.layout : Layout where
  fields := [
    (.u32, 0), -- inode
    (.u16, 4), -- total_size
    (.u8, 6),  -- name_length_lsb
    (.u8, 7)]  -- type_indicator_or_name_length_msb
  size := 8
  inBounds := by decide
  disjoint := by decide

@[simp] theorem Superblock.layout_size : Superblock.layout.size = SUPERBLOCK_SIZE := rfl

@[simp] theorem BlockGroupDescriptor.layout_size : BlockGroupDescriptor.layout.size = BGD_SIZE := rfl

@[simp] theorem Inode.layout_size : Inode.layout.size = INODE_SIZE := rfl

/-- The fields of `Superblock` cover the two ranges the model masks with. -/
theorem Superblock.coalesce_ranges : coalesce Superblock.layout.ranges = SUPERBLOCK_FIELDS := by
  decide

theorem BlockGroupDescriptor.coalesce_ranges : coalesce BlockGroupDescriptor.layout.ranges = BGD_FIELDS := by
  decide

theorem Inode.coalesce_ranges : coalesce Inode.layout.ranges = [(0, INODE_SIZE)] := by
  decide

theorem DirEntryNoName.coalesce_ranges : coalesce DirEntryNoName.layout.ranges = [(0, 8)] := by
  decide

/-- An inode's array converted to an `Inode` and back is the array. -/
theorem Inode.encode_decode {buf : List Nat} (hbytes : ∀ b ∈ buf, b < 256) (hlen : buf.length = INODE_SIZE) :
    Inode.layout.encode (Inode.layout.decode buf) = buf :=
  Layout.encode_decode_of_covers Inode.coalesce_ranges hbytes hlen

/-- A directory entry's header converted to a `DirEntryNoName` and back is the header. -/
theorem DirEntryNoName.encode_decode {buf : List Nat} (hbytes : ∀ b ∈ buf, b < 256) (hlen : buf.length = 8) :
    DirEntryNoName.layout.encode (DirEntryNoName.layout.decode buf) = buf :=
  Layout.encode_decode_of_covers DirEntryNoName.coalesce_ranges hbytes hlen

-- ---------------------------------------------------------------------------
-- The structs of the model are the codecs' round trips
-- ---------------------------------------------------------------------------

/-- The superblock `try_new` keeps is the array it read, converted to a `Superblock` and back. -/
theorem Superblock.bytes_ofArray {a : List Nat} (hbytes : ∀ b ∈ a, b < 256) (hlen : a.length = SUPERBLOCK_SIZE) :
    (Superblock.ofArray a).bytes = Superblock.layout.encode (Superblock.layout.decode a) := by
  rw [Layout.encode_decode_of_coalesce Superblock.coalesce_ranges hbytes hlen, Superblock.layout_size]
  simp only [Superblock.ofArray]

theorem BlockGroupDescriptor.bytes_ofArray {a : List Nat} (hbytes : ∀ b ∈ a, b < 256)
    (hlen : a.length = BGD_SIZE) :
    (BlockGroupDescriptor.ofArray a).bytes =
      BlockGroupDescriptor.layout.encode (BlockGroupDescriptor.layout.decode a) := by
  rw [Layout.encode_decode_of_coalesce BlockGroupDescriptor.coalesce_ranges hbytes hlen, BlockGroupDescriptor.layout_size]
  simp only [BlockGroupDescriptor.ofArray]

theorem Inode.bytes_ofArray {a : List Nat} (hbytes : ∀ b ∈ a, b < 256) (hlen : a.length = INODE_SIZE) :
    (Inode.ofArray a).bytes = Inode.layout.encode (Inode.layout.decode a) := by
  rw [Layout.encode_decode_of_coalesce Inode.coalesce_ranges hbytes hlen, Inode.layout_size]
  simp only [Inode.ofArray]

/-- No byte of the superblock the model keeps lies outside the fields of `Superblock` and is
    other than zero. -/
theorem Superblock.getElem?_ofArray_of_not_covered (a : List Nat) {i : Nat} (hi : i < SUPERBLOCK_SIZE)
    (hcov : Covered Superblock.layout.ranges i = false) : (Superblock.ofArray a).bytes[i]? = some 0 := by
  rw [← covered_coalesce, Superblock.coalesce_ranges] at hcov
  simp only [Superblock.ofArray]
  exact getElem?_mask_of_not_covered hi hcov

-- ---------------------------------------------------------------------------
-- What the write-backs put on the device
-- ---------------------------------------------------------------------------

/-- The bytes a write put on the device read back from it. -/
theorem slice_of_writeAt {device device' bytes : List Nat} {off : Nat}
    (h : writeAt device off bytes = some device') : slice device' off bytes.length = bytes := by
  unfold writeAt at h
  split_ifs at h with hnil hfit <;> cases h
  · simp [hnil, slice]
  · exact slice_overwrite_self hfit

theorem deviceWrite_run_ok {off : Nat} {bytes : List Nat} {e : Error} {s s' : Ext2Fs} {u : Unit}
    (h : (deviceWrite off bytes e).run s = .ok u s') :
    writeAt s.blockDevice off bytes = some s'.blockDevice ∧ s'.superblock = s.superblock := by
  rw [deviceWrite_run] at h
  split at h
  · rename_i device hw
    cases h
    exact ⟨hw, rfl⟩
  · cases h

theorem inodeOffset_moves (addr : Nat) : Moves (· = ·) (inodeOffset addr) :=
  Moves.get_bind fun s => by
    dsimp only
    split
    · exact Moves.throw _ s
    · refine ((descriptor_moves _).bind fun d => Moves.ite (Moves.throw _) ?_) s
      exact (resolveBlockOffset_moves _).bind fun _ => (checkedU32_moves _ _).bind fun _ => Moves.pure _

/-- Writing back an inode as `read_inode` returned it leaves the device as it was: the fields of
    `Inode` cover its 128 bytes, so the conversions keep every byte read. -/
theorem writeInode_of_readInode {addr : Nat} {inode : Inode} {fs fs' : Ext2Fs}
    (h : (readInode addr).run fs = .ok inode fs') : (writeInode addr inode).run fs' = .ok () fs' := by
  obtain ⟨off, fs₁, hoff, hread⟩ := run_bind_eq_ok h
  obtain rfl := (inodeOffset_moves addr).of_run_ok hoff
  obtain ⟨bytes, fs₂, hbytes, hpure⟩ := run_bind_eq_ok hread
  obtain rfl := (deviceRead_moves _ _ _).of_run_ok hbytes
  injection hpure with hinode hfs
  subst hinode hfs
  have hat : readAt fs.blockDevice off INODE_SIZE = some bytes := by
    rw [deviceRead_run] at hbytes
    split at hbytes <;> cases hbytes
    assumption
  have hkeep : (Inode.ofArray bytes).bytes = bytes := by
    simp only [Inode.ofArray]
    exact mask_eq_self (fun i hi => by simp [hi]) (length_of_readAt hat)
  unfold writeInode
  rw [run_bind_of_run_ok hoff, deviceWrite_run, hkeep, writeAt_of_readAt hat]

/-- Setting the counter of free blocks writes inside its field, bytes 12 to 16. -/
theorem Superblock.getElem?_setNumUnallocatedBlocks (sb : Superblock) (n : Nat) {i : Nat}
    (hi : i < 12 ∨ 16 ≤ i) : (sb.setNumUnallocatedBlocks n).bytes[i]? = sb.bytes[i]? :=
  getElem?_overwrite_of_not_mem (by rw [sb.length_eq]; decide) (by rw [length_encodeLE]; exact hi)

theorem decrementGroupCounter_superblock {g : Nat} {d : BlockGroupDescriptor} {s s' : Ext2Fs}
    (h : (decrementGroupCounter g).run s = .ok d s') : s'.superblock = s.superblock := by
  obtain ⟨d₀, s₁, hd, hrest⟩ := run_bind_eq_ok h
  obtain rfl := (descriptor_moves g).of_run_ok hd
  dsimp only at hrest
  split at hrest
  · cases hrest
  · rw [run_modify_bind] at hrest
    cases hrest
    rfl

theorem writeDescriptor_superblock {bs off g : Nat} {d : BlockGroupDescriptor} {s s' : Ext2Fs}
    (h : (writeDescriptor bs off g d).run s = .ok () s') : s'.superblock = s.superblock := by
  obtain ⟨table, s₁, ht, hrest⟩ := run_bind_eq_ok h
  obtain rfl := (deviceRead_moves _ _ _).of_run_ok ht
  split at hrest
  · cases hrest
  · exact (deviceWrite_run_ok hrest).2

/-- The superblock's counter decremented and written back: the device then holds the superblock
    in memory. -/
theorem decrementSuperblockCounter_run_ok {s s' : Ext2Fs} (h : decrementSuperblockCounter.run s = .ok () s') :
    s'.superblock = s.superblock.setNumUnallocatedBlocks (s.superblock.numUnallocatedBlocks - 1) ∧
      slice s'.blockDevice SUPERBLOCK_OFFSET SUPERBLOCK_SIZE = s'.superblock.bytes := by
  unfold decrementSuperblockCounter at h
  rw [run_get_bind] at h
  dsimp only at h
  split at h
  · cases h
  · rw [run_modify_bind] at h
    obtain ⟨hw, hsb⟩ := deviceWrite_run_ok h
    have hslice := slice_of_writeAt hw
    rw [Superblock.length_eq] at hslice
    rw [hsb]
    exact ⟨rfl, hslice⟩

/-- A loop of `allocate_resource` that finds a resource ends after the superblock's write-back:
    the device holds the superblock in memory, which is the one before with its counter set. -/
theorem allocateResourceFrom_superblock_written {bs off perGroup x : Nat}
    {tryReserve : Nat → FsM (Option Nat)} (hres : ∀ g, Moves (· = ·) (tryReserve g)) {s s' : Ext2Fs}
    (groups : List Nat) (h : (allocateResourceFrom bs off perGroup tryReserve groups).run s = .ok (some x) s') :
    (∃ n, s'.superblock = s.superblock.setNumUnallocatedBlocks n) ∧
      slice s'.blockDevice SUPERBLOCK_OFFSET SUPERBLOCK_SIZE = s'.superblock.bytes := by
  induction groups with
  | nil => cases h
  | cons g groups ih =>
    obtain ⟨r, s₁, hr, hrest⟩ := run_bind_eq_ok h
    obtain rfl := (hres g).of_run_ok hr
    cases r with
    | none => exact ih hrest
    | some first =>
      -- the descriptor, its write-back, the superblock, then the two checked operations
      obtain ⟨_, s₁, hd, h₁⟩ := run_bind_eq_ok hrest
      obtain ⟨_, s₂, hw, h₂⟩ := run_bind_eq_ok h₁
      obtain ⟨_, s₃, hsb, h₃⟩ := run_bind_eq_ok h₂
      obtain ⟨_, _, hn, h₄⟩ := run_bind_eq_ok h₃
      obtain ⟨_, _, hn', h₅⟩ := run_bind_eq_ok h₄
      obtain ⟨-, rfl⟩ := checkedU32_run_ok hn
      obtain ⟨-, rfl⟩ := checkedU32_run_ok hn'
      cases h₅
      obtain ⟨hsb', hslice⟩ := decrementSuperblockCounter_run_ok hsb
      rw [writeDescriptor_superblock hw, decrementGroupCounter_superblock hd] at hsb'
      exact ⟨⟨_, hsb'⟩, hslice⟩

/-- An `allocate_block` that returns a block ends with the superblock in memory on the device. -/
theorem allocateBlock_superblock_written {fs fs' : Ext2Fs} {bs x : Nat}
    (hbs : fs.superblock.blockSize? = some bs) (hrun : allocateBlock.run fs = .ok (some x) fs') :
    (∃ n, fs'.superblock = fs.superblock.setNumUnallocatedBlocks n) ∧
      slice fs'.blockDevice SUPERBLOCK_OFFSET SUPERBLOCK_SIZE = fs'.superblock.bytes := by
  have h := allocateBlock_run_some hrun
  unfold allocateResource at h
  rw [run_bind_of_run_ok (blockSize_run hbs), run_get_bind, run_bind_of_run_ok (blockSize_run hbs)] at h
  exact allocateResourceFrom_superblock_written tryReserveBlockInGroup_moves _ h

/-- On every file system `try_new` builds, an `allocate_block` that returns a block leaves zero
    on the device in every byte of the superblock that no field of `Superblock` covers, whatever
    the byte was before: the write-back writes the superblock converted from its array and back. -/
theorem allocateBlock_zeroes_unread_superblock_bytes {device : List Nat} {fs fs' : Ext2Fs} {x : Nat}
    (hnew : tryNew device = .ok fs) (hrun : allocateBlock.run fs = .ok (some x) fs') :
    ∀ i < SUPERBLOCK_SIZE, Covered Superblock.layout.ranges i = false →
      fs'.blockDevice[SUPERBLOCK_OFFSET + i]? = some 0 := by
  intro i hi hcov
  obtain ⟨-, data, bs, -, hsb, hbs⟩ := tryNew_eq_ok_inv hnew
  obtain ⟨⟨n, hsb'⟩, hslice⟩ := allocateBlock_superblock_written hbs hrun
  have hbyte : fs'.blockDevice[SUPERBLOCK_OFFSET + i]? = fs'.superblock.bytes[i]? := by
    rw [← hslice, getElem?_slice, if_pos hi]
  -- the fields cover bytes 0 to 152, so the counter at 12 is not the byte
  have hout : i < 12 ∨ 16 ≤ i := by
    have h := hcov
    rw [← covered_coalesce, Superblock.coalesce_ranges] at h
    simp [Covered, SUPERBLOCK_FIELDS] at h
    omega
  rw [hbyte, hsb', Superblock.getElem?_setNumUnallocatedBlocks _ _ hout, hsb]
  exact Superblock.getElem?_ofArray_of_not_covered data hi hcov

/-- `smallImage` with byte 236 of its superblock, which no field of `Superblock` covers, set. -/
def seededImage : List Nat := smallImage.set (SUPERBLOCK_OFFSET + 236) 0x5A

/-- The file system `try_new` builds on `seededImage`. -/
def seededFs : Ext2Fs :=
  ⟨seededImage, Superblock.ofArray (slice seededImage 1024 1024),
    [BlockGroupDescriptor.ofArray (slice seededImage 2048 32)]⟩

set_option maxRecDepth 100000 in
/-- On `seededImage`, `allocate_block` returns block 6 and leaves byte 236 of the superblock
    zero on the device. -/
theorem seededImage_allocateBlock_clears_byte_236 :
    ∃ fs', tryNew seededImage = .ok seededFs ∧ allocateBlock.run seededFs = .ok (some 6) fs' ∧
      seededImage[SUPERBLOCK_OFFSET + 236]? = some 0x5A ∧ 236 < SUPERBLOCK_SIZE ∧
      Covered Superblock.layout.ranges 236 = false ∧ fs'.blockDevice[SUPERBLOCK_OFFSET + 236]? = some 0 := by
  have hnew : tryNew seededImage = .ok seededFs := rfl
  obtain ⟨fs', hrun⟩ : ∃ fs', allocateBlock.run seededFs = .ok (some 6) fs' := ⟨_, rfl⟩
  exact ⟨fs', hnew, hrun, rfl, by decide, by decide,
    allocateBlock_zeroes_unread_superblock_bytes hnew hrun 236 (by decide) (by decide)⟩

end Muffin.Ext2
