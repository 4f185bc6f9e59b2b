-- SUMMARY: The records of an ext2 directory block as the format lays them out, what `DirEntry::from` and the loop of `list_dir` make of a well-formed block, and `list_dir` on a directory whose direct blocks are well formed: its entries, or the panic of the first unused record.
import Muffin.Ext2.Dir

/-!
# ext2: well-formed directory blocks

ext2 lays a directory block out as records, one after the other up to the end
of the block: an 8-byte header, the name, and padding up to the record's
`rec_len`, a multiple of 4. A record whose inode is zero is unused. ext2 leaves
one behind when it deletes the first entry of a block, and a block with no
entries is a single unused record.

`Record` is the format's view of a record and `blockOf` the bytes of a block
of records. `DirEntry::from` decodes a well-formed record (`Record.from_bytes`),
except that an unused one panics in `InodeAddress::new(..).unwrap()`. So
`list_dir` on a directory whose blocks are well formed returns their entries
when none of their records is unused, and panics otherwise (`listDir_run`).
-/

namespace Muffin.Ext2

open Rust Bytes EStateM

/-- A record of a directory block as ext2 lays it out: the inode (zero for an unused record), the
    type, the name, and the bytes after the name up to the next record. -/
structure Record where
  inode : Nat
  typ : Fin 8
  name : List Nat
  padding : List Nat
  deriving DecidableEq, Repr

namespace Record

/-- `rec_len`. -/
def recLen (r : Record) : Nat := 8 + r.name.length + r.padding.length

/-- The header: the inode, `rec_len`, the low byte of the name length, and the type or, without
    types, the high byte of the name length. -/
def header (haveType : Bool) (r : Record) : List Nat :=
  encodeLE 4 r.inode ++ encodeLE 2 r.recLen ++
    [r.name.length % 256, if haveType then r.typ.val else r.name.length / 256]

/-- The bytes of the record. -/
def bytes (haveType : Bool) (r : Record) : List Nat := r.header haveType ++ (r.name ++ r.padding)

/-- A record as the format allows it: its fields fit their bytes and `rec_len` is a multiple of 4. -/
structure Wf (haveType : Bool) (r : Record) : Prop where
  inode_lt : r.inode < U32_LIMIT
  recLen_lt : r.recLen < 2 ^ 16
  recLen_mod : r.recLen % 4 = 0
  name_lt : haveType → r.name.length < 256

/-- The entry of the record, as `list_dir` should return it. -/
def entry (haveType : Bool) (r : Record) : DirEntry :=
  ⟨r.inode, r.recLen, r.name.length, if haveType then some r.typ else none, r.name⟩

variable {haveType : Bool} {r : Record}

@[simp] theorem entry_inode : (r.entry haveType).inode = r.inode := rfl
@[simp] theorem entry_totalSize : (r.entry haveType).totalSize = r.recLen := rfl
@[simp] theorem entry_nameLength : (r.entry haveType).nameLength = r.name.length := rfl
@[simp] theorem entry_nameBytes : (r.entry haveType).nameBytes = r.name := rfl

@[simp] theorem length_header : (r.header haveType).length = 8 := by
  simp [header]

@[simp] theorem length_bytes : (r.bytes haveType).length = r.recLen := by
  simp only [bytes, List.length_append, length_header, recLen]
  omega

theorem eight_le_recLen (r : Record) : 8 ≤ r.recLen := by
  unfold recLen
  omega

@[simp] theorem bytes_ne_nil : r.bytes haveType ≠ [] := by
  rw [← List.length_pos_iff, length_bytes]
  have := r.eight_le_recLen
  omega

/-- The size `DirEntry::size` computes for the record's name fits in `rec_len`. -/
theorem Wf.size_le (hwf : r.Wf haveType) : (r.name.length + 11) / 4 * 4 ≤ r.recLen := by
  have := hwf.recLen_mod
  unfold recLen at *
  omega

theorem Wf.name_add_lt (hwf : r.Wf haveType) : r.name.length + 11 < 2 ^ 16 := by
  have := hwf.recLen_lt
  have := hwf.recLen_mod
  unfold recLen at *
  omega

end Record

-- ---------------------------------------------------------------------------
-- Decoding one record
-- ---------------------------------------------------------------------------

namespace DirEntry

variable {haveType : Bool} {inode totalSize lsb msb nl : Nat} {tail : List Nat}

/-- `from` on a header and the bytes after it, when they hold the record: the entry, or the panic
    of an unused record. -/
theorem from_header (hinode : inode < U32_LIMIT) (htotal : totalSize < 2 ^ 16)
    (hnl : (if haveType then lsb else lsb ||| msb <<< 8) = nl) (hsize : nl + 11 < 2 ^ 16)
    (hfit : (nl + 11) / 4 * 4 ≤ 8 + tail.length) :
    DirEntry.from haveType (encodeLE 4 inode ++ encodeLE 2 totalSize ++ [lsb, msb] ++ tail) =
      if inode = 0 then .error ⟨UNWRAP_NONE⟩
      else .ok ⟨inode, totalSize, nl, if haveType then some (DirType.fromBitsTruncate msb) else none,
        tail.take nl⟩ := by
  have h0 := @readLE_append_encodeLE [] (encodeLE 2 totalSize ++ ([lsb] ++ msb :: tail)) 0 rfl 4 inode
  rw [show (256 : Nat) ^ 4 = U32_LIMIT by rfl, Nat.mod_eq_of_lt hinode] at h0
  have h4 : readLE (encodeLE 4 inode ++ (encodeLE 2 totalSize ++ ([lsb] ++ msb :: tail))) 4 2 =
      totalSize := by
    rw [readLE_append_encodeLE (length_encodeLE 4 inode), show (256 : Nat) ^ 2 = 2 ^ 16 by rfl,
      Nat.mod_eq_of_lt htotal]
  have h6 : readLE (encodeLE 4 inode ++ encodeLE 2 totalSize ++ (lsb :: msb :: tail)) 6 1 = lsb :=
    readLE_append_cons (by simp) lsb
  have h7 : readLE (encodeLE 4 inode ++ encodeLE 2 totalSize ++ [lsb] ++ (msb :: tail)) 7 1 = msb :=
    readLE_append_cons (by simp) msb
  have hname : slice (encodeLE 4 inode ++ encodeLE 2 totalSize ++ [lsb, msb] ++ tail) 8 nl =
      tail.take nl :=
    slice_append_of_length (by simp) nl
  simp only [List.nil_append, List.singleton_append, List.append_assoc] at h0 h4 h6 h7
  unfold DirEntry.from
  simp only [List.append_assoc, List.cons_append, List.nil_append] at hname ⊢
  rw [h6, h7, hnl, size_of_lt hsize, h0, h4, hname]
  simp only [List.length_append, length_encodeLE, List.length_cons]
  rw [if_neg (by omega)]
  simp only [Except.ok_bind]
  rw [if_neg (by omega)]
  rfl

end DirEntry

namespace Record

variable {haveType : Bool} {r : Record}

/-- `from` decodes a well-formed record to its entry, unless it is unused. -/
theorem from_bytes (hwf : r.Wf haveType) (rest : List Nat) :
    DirEntry.from haveType (r.bytes haveType ++ rest) =
      if r.inode = 0 then .error ⟨UNWRAP_NONE⟩ else .ok (r.entry haveType) := by
  have hnl : (if haveType then r.name.length % 256 else r.name.length % 256 |||
      (if haveType then r.typ.val else r.name.length / 256) <<< 8) = r.name.length := by
    cases haveType with
    | true => exact Nat.mod_eq_of_lt (hwf.name_lt rfl)
    | false =>
      show r.name.length % 256 ||| (r.name.length / 256) <<< 8 = r.name.length
      rw [Nat.or_comm, ← Nat.shiftLeft_add_eq_or_of_lt (Nat.mod_lt _ (by decide)), Nat.shiftLeft_eq]
      omega
  have hmsb : (if haveType then r.typ.val else r.name.length / 256) < 256 := by
    have := hwf.name_add_lt
    split <;> omega
  have hbytes : r.bytes haveType ++ rest = encodeLE 4 r.inode ++ encodeLE 2 r.recLen ++
      [r.name.length % 256, if haveType then r.typ.val else r.name.length / 256] ++
      (r.name ++ r.padding ++ rest) := by
    simp [bytes, header]
  have hfit : (r.name.length + 11) / 4 * 4 ≤ 8 + (r.name ++ r.padding ++ rest).length := by
    have := hwf.size_le
    simp only [List.length_append]
    unfold recLen at this
    omega
  rw [hbytes, DirEntry.from_header hwf.inode_lt hwf.recLen_lt hnl hwf.name_add_lt hfit]
  split
  · rfl
  · cases haveType with
    | true =>
      simp only [if_true, DirType.fromBitsTruncate_of_lt r.typ.isLt, List.append_assoc,
        List.take_left' rfl]
      rfl
    | false =>
      simp only [List.append_assoc, List.take_left' rfl]
      rfl

end Record

-- ---------------------------------------------------------------------------
-- Blocks of records
-- ---------------------------------------------------------------------------

/-- The bytes of a block that holds the records `rs`, one after the other. -/
def blockOf (haveType : Bool) (rs : List Record) : List Nat := (rs.map (Record.bytes haveType)).flatten

/-- A well-formed block: its records are, and the last one is longer than a header. A record of
    8 bytes at the end would start at `block_size - 8`, where the loops stop. -/
structure BlockWf (haveType : Bool) (rs : List Record) : Prop where
  records_wf : ∀ r ∈ rs, r.Wf haveType
  last_recLen : ∀ r ∈ rs.getLast?, 8 < r.recLen

/-- What `list_dir` should make of the records of a well-formed block: their entries, or the
    panic of `unwrap` at the first unused one. -/
def entriesOf (haveType : Bool) : List Record → Except Panic (List DirEntry)
  | [] => pure []
  | r :: rs => if r.inode = 0 then throw ⟨UNWRAP_NONE⟩ else (r.entry haveType :: ·) <$> entriesOf haveType rs

section Blocks

variable {haveType : Bool}

@[simp] theorem blockOf_nil : blockOf haveType [] = [] := rfl

@[simp] theorem blockOf_cons (r : Record) (rs : List Record) :
    blockOf haveType (r :: rs) = r.bytes haveType ++ blockOf haveType rs := rfl

@[simp] theorem blockOf_append (a b : List Record) :
    blockOf haveType (a ++ b) = blockOf haveType a ++ blockOf haveType b := by
  simp [blockOf]

theorem length_blockOf (rs : List Record) : (blockOf haveType rs).length = (rs.map Record.recLen).sum := by
  induction rs with
  | nil => rfl
  | cons r rs ih => simp [ih]

/-- Each record takes at least its header. -/
theorem length_le_length_blockOf (rs : List Record) : 8 * rs.length ≤ (blockOf haveType rs).length := by
  induction rs with
  | nil => simp
  | cons r rs ih =>
    have := r.eight_le_recLen
    simp only [blockOf_cons, List.length_append, Record.length_bytes, List.length_cons]
    omega

theorem BlockWf.tail {r : Record} {rs : List Record} (h : BlockWf haveType (r :: rs)) : BlockWf haveType rs where
  records_wf := fun r' hr' => h.records_wf r' (List.mem_cons_of_mem r hr')
  last_recLen := fun r' hr' => h.last_recLen r' (by
    cases rs with
    | nil => simp at hr'
    | cons s ss => rwa [List.getLast?_cons_cons])

/-- The loop of `list_dir` reaches each record of a well-formed block: the record starts more
    than 8 bytes before the end, as the last one is longer than a header. -/
theorem BlockWf.eight_lt {r : Record} {rs : List Record} (h : BlockWf haveType (r :: rs)) :
    8 < r.recLen + (blockOf haveType rs).length := by
  cases rs with
  | nil => simpa using h.last_recLen r (by simp)
  | cons s ss =>
    have := r.eight_le_recLen
    have := s.eight_le_recLen
    simp only [blockOf_cons, List.length_append, Record.length_bytes]
    omega

theorem entriesOf_append (a b : List Record) :
    entriesOf haveType (a ++ b) =
      (entriesOf haveType a >>= fun es => (es ++ ·) <$> entriesOf haveType b) := by
  induction a with
  | nil => simp [entriesOf]
  | cons r rs ih =>
    simp only [List.cons_append, entriesOf]
    split
    · rfl
    · rw [ih]
      cases entriesOf haveType rs <;> cases entriesOf haveType b <;> rfl

theorem entriesOf_of_forall {rs : List Record} (h : ∀ r ∈ rs, r.inode ≠ 0) :
    entriesOf haveType rs = .ok (rs.map (Record.entry haveType)) := by
  induction rs with
  | nil => rfl
  | cons r rs ih =>
    rw [entriesOf, if_neg (h r List.mem_cons_self), ih fun r' hr' => h r' (List.mem_cons_of_mem r hr')]
    rfl

theorem entriesOf_of_exists {rs : List Record} (h : ∃ r ∈ rs, r.inode = 0) :
    entriesOf haveType rs = .error ⟨UNWRAP_NONE⟩ := by
  induction rs with
  | nil => simp at h
  | cons r rs ih =>
    rw [entriesOf]
    split
    · rfl
    · rename_i hr
      obtain ⟨r', hr', hzero⟩ := h
      rcases List.mem_cons.1 hr' with rfl | hmem
      · exact absurd hzero hr
      · rw [ih ⟨r', hmem, hzero⟩]
        rfl

/-- The loop of `list_dir` over a well-formed block, from any record on: it decodes the records
    one by one up to the first unused one. By induction on the records, the bytes before them
    growing by one record each step. -/
theorem entriesFrom_blockOf (pre : List Nat) {rs : List Record} (hwf : BlockWf haveType rs)
    {fuel : Nat} (hfuel : rs.length < fuel) :
    entriesFrom haveType (pre ++ blockOf haveType rs) fuel pre.length =
      some <$> entriesOf haveType rs := by
  induction rs generalizing pre fuel with
  | nil =>
    obtain ⟨fuel, rfl⟩ : ∃ f, fuel = f + 1 := ⟨fuel - 1, by simp at hfuel; omega⟩
    rw [entriesFrom_succ_of_le (by simp)]
    rfl
  | cons r rs ih =>
    obtain ⟨fuel, rfl⟩ : ∃ f, fuel = f + 1 := ⟨fuel - 1, by simp at hfuel; omega⟩
    have hlt : pre.length < (pre ++ blockOf haveType (r :: rs)).length - 8 := by
      have := hwf.eight_lt
      simp only [blockOf_cons, List.length_append, Record.length_bytes]
      omega
    have hdrop : (pre ++ blockOf haveType (r :: rs)).drop pre.length =
        r.bytes haveType ++ blockOf haveType rs := by
      rw [List.drop_left, blockOf_cons]
    have hfrom := r.from_bytes (hwf.records_wf r List.mem_cons_self) (blockOf haveType rs)
    rw [← hdrop] at hfrom
    by_cases hzero : r.inode = 0
    · rw [if_pos hzero] at hfrom
      rw [entriesFrom_succ_of_from_error hlt hfrom, entriesOf, if_pos hzero]
      rfl
    · rw [if_neg hzero] at hfrom
      have hnext : pre.length + (r.entry haveType).totalSize = (pre ++ r.bytes haveType).length := by
        simp [Record.entry]
      have hdata : pre ++ blockOf haveType (r :: rs) = (pre ++ r.bytes haveType) ++ blockOf haveType rs := by
        simp
      rw [entriesFrom_succ_of_from_ok hlt hfrom, hnext, hdata,
        ih (pre ++ r.bytes haveType) hwf.tail (by simp at hfuel; omega), entriesOf, if_neg hzero]
      cases entriesOf haveType rs <;> rfl

end Blocks

-- ---------------------------------------------------------------------------
-- `list_dir` on well-formed blocks
-- ---------------------------------------------------------------------------

/-- The direct blocks `addrs` of a directory on `fs`, read in blocks of `bs` bytes, hold the
    well-formed blocks of records `records addr`, each below 4 GiB. -/
structure DirBlocks (fs : Ext2Fs) (bs : Nat) (haveType : Bool) (addrs : List Nat)
    (records : Nat → List Record) : Prop where
  below : ∀ addr ∈ addrs, addr * bs < U32_LIMIT
  holds : ∀ addr ∈ addrs, readAt fs.blockDevice (addr * bs) bs = some (blockOf haveType (records addr))
  wf : ∀ addr ∈ addrs, BlockWf haveType (records addr)

theorem DirBlocks.tail {fs : Ext2Fs} {bs : Nat} {haveType : Bool} {addr : Nat} {addrs : List Nat}
    {records : Nat → List Record} (h : DirBlocks fs bs haveType (addr :: addrs) records) :
    DirBlocks fs bs haveType addrs records :=
  ⟨fun a ha => h.below a (List.mem_cons_of_mem addr ha), fun a ha => h.holds a (List.mem_cons_of_mem addr ha),
    fun a ha => h.wf a (List.mem_cons_of_mem addr ha)⟩

/-- A block that holds a record holds at least its 8-byte header, so `block_size - 8` does not
    underflow. -/
theorem DirBlocks.eight_le {fs : Ext2Fs} {bs : Nat} {haveType : Bool} {addrs : List Nat}
    {records : Nat → List Record} (h : DirBlocks fs bs haveType addrs records) {addr : Nat}
    (haddr : addr ∈ addrs) {r : Record} (hr : r ∈ records addr) : 8 ≤ bs := by
  have hlen := length_le_of_readAt (h.holds addr haddr)
  have hblock := @length_le_length_blockOf haveType (records addr)
  have hpos : 0 < (records addr).length := List.length_pos_of_mem hr
  omega

/-- The loop of `list_dir` over the direct blocks, when they are well formed and the blocks are
    at least 8 bytes: the entries of all their records, or the panic of the first unused one. By
    induction on the blocks. -/
theorem listBlocks_run {fs : Ext2Fs} {bs : Nat} {haveType : Bool} {records : Nat → List Record}
    (hbs : fs.superblock.blockSize? = some bs) :
    ∀ {addrs : List Nat}, DirBlocks fs bs haveType addrs records → (addrs ≠ [] → 8 ≤ bs) →
      (listBlocks haveType bs addrs).run fs =
        (liftPanic (some <$> entriesOf haveType (addrs.flatMap records))).run fs
  | [], _, _ => rfl
  | addr :: addrs, hblocks, h8 => by
    have hmem : addr ∈ addr :: addrs := List.mem_cons_self
    have hread := readBlock_run_of_readAt hbs (hblocks.below addr hmem) (hblocks.holds addr hmem)
    have hlen := length_le_of_readAt (hblocks.holds addr hmem)
    have hfuel : (records addr).length < (blockOf haveType (records addr)).length + 1 := by
      have := @length_le_length_blockOf haveType (records addr)
      omega
    have hloop := entriesFrom_blockOf [] (hblocks.wf addr hmem) hfuel
    rw [List.nil_append, List.length_nil] at hloop
    have hsub : ¬ bs < 8 := Nat.not_lt.2 (h8 (List.cons_ne_nil _ _))
    unfold listBlocks
    rw [run_bind_of_run_ok hread, List.flatMap_cons, entriesOf_append]
    simp only [hsub, if_false]
    rw [hloop]
    cases entriesOf haveType (records addr) with
    | error p => rfl
    | ok es =>
      show (listBlocks haveType bs addrs >>= fun rest => pure (rest.map (es ++ ·))).run fs = _
      have ih := listBlocks_run hbs hblocks.tail fun _ => Nat.not_lt.1 hsub
      cases hrest : entriesOf haveType (addrs.flatMap records) with
      | error p =>
        rw [hrest] at ih
        exact run_bind_of_run_error ih
      | ok es' =>
        rw [hrest] at ih
        exact (run_bind_of_run_ok ih).trans rfl

/-- With blocks of fewer than 8 bytes, the loop's `block_size - 8` underflows at the first block
    read. -/
theorem listBlocks_run_short {fs : Ext2Fs} {bs : Nat} {haveType : Bool} {records : Nat → List Record}
    {addr : Nat} {addrs : List Nat} (hbs : fs.superblock.blockSize? = some bs)
    (hblocks : DirBlocks fs bs haveType (addr :: addrs) records) (h : bs < 8) :
    (listBlocks haveType bs (addr :: addrs)).run fs =
      .error (.panic ⟨"attempt to subtract with overflow"⟩) fs := by
  have hmem : addr ∈ addr :: addrs := List.mem_cons_self
  have hread := readBlock_run_of_readAt hbs (hblocks.below addr hmem) (hblocks.holds addr hmem)
  unfold listBlocks
  rw [run_bind_of_run_ok hread]
  simp only [h, if_true]
  rfl

/-- `list_dir` on a directory whose direct blocks are well formed and at least 8 bytes: the
    entries of all their records, or the panic of the first unused one. -/
theorem listDir_run {fs : Ext2Fs} {bs : Nat} {dir : Inode} {records : Nat → List Record}
    (hdir : dir.isDirectory = true) (hbs : fs.superblock.blockSize? = some bs)
    (hblocks : DirBlocks fs bs fs.superblock.dirEntriesHaveType (dir.directPtrs.filterMap id) records)
    (h8 : dir.directPtrs.filterMap id ≠ [] → 8 ≤ bs) :
    (listDir dir).run fs = (liftPanic (some <$> entriesOf fs.superblock.dirEntriesHaveType
      ((dir.directPtrs.filterMap id).flatMap records))).run fs := by
  unfold listDir
  simp only [hdir, Bool.not_true, Bool.false_eq_true, if_false]
  rw [run_bind_of_run_ok (blockSize_run hbs)]
  exact listBlocks_run hbs hblocks h8

/-- `list_dir` on a directory with a direct block, when `block_size()` wrapped below 8. -/
theorem listDir_run_short {fs : Ext2Fs} {bs : Nat} {dir : Inode} {records : Nat → List Record}
    (hdir : dir.isDirectory = true) (hbs : fs.superblock.blockSize? = some bs)
    (hblocks : DirBlocks fs bs fs.superblock.dirEntriesHaveType (dir.directPtrs.filterMap id) records)
    (hne : dir.directPtrs.filterMap id ≠ []) (h : bs < 8) :
    (listDir dir).run fs = .error (.panic ⟨"attempt to subtract with overflow"⟩) fs := by
  obtain ⟨addr, addrs, heq⟩ := List.exists_cons_of_ne_nil hne
  unfold listDir
  simp only [hdir, Bool.not_true, Bool.false_eq_true, if_false]
  rw [run_bind_of_run_ok (blockSize_run hbs)]
  rw [heq] at hblocks
  show (listBlocks fs.superblock.dirEntriesHaveType bs (dir.directPtrs.filterMap id)).run fs = _
  rw [heq]
  exact listBlocks_run_short hbs hblocks h

/-- When no record of the directory's well-formed blocks is unused, `list_dir` returns the entries
    of all of them, in the order of the blocks and of the records in each. -/
theorem listDir_run_of_forall {fs : Ext2Fs} {bs : Nat} {dir : Inode} {records : Nat → List Record}
    (hdir : dir.isDirectory = true) (hbs : fs.superblock.blockSize? = some bs)
    (hblocks : DirBlocks fs bs fs.superblock.dirEntriesHaveType (dir.directPtrs.filterMap id) records)
    (hused : ∀ addr ∈ dir.directPtrs.filterMap id, ∀ r ∈ records addr, r.inode ≠ 0)
    (h8 : dir.directPtrs.filterMap id ≠ [] → 8 ≤ bs) :
    (listDir dir).run fs = .ok (some (((dir.directPtrs.filterMap id).flatMap records).map
      (Record.entry fs.superblock.dirEntriesHaveType))) fs := by
  have hall : ∀ r ∈ (dir.directPtrs.filterMap id).flatMap records, r.inode ≠ 0 := by
    intro r hr
    obtain ⟨addr, haddr, hr⟩ := List.mem_flatMap.1 hr
    exact hused addr haddr r hr
  rw [listDir_run hdir hbs hblocks h8, entriesOf_of_forall hall]
  rfl

theorem listDir_unused_record_panics {fs : Ext2Fs} {bs : Nat} {dir : Inode}
    {records : Nat → List Record} (hdir : dir.isDirectory = true)
    (hbs : fs.superblock.blockSize? = some bs)
    (hblocks : DirBlocks fs bs fs.superblock.dirEntriesHaveType (dir.directPtrs.filterMap id) records)
    (hunused : ∃ addr ∈ dir.directPtrs.filterMap id, ∃ r ∈ records addr, r.inode = 0) :
    (listDir dir).run fs = .error (.panic ⟨UNWRAP_NONE⟩) fs := by
  obtain ⟨addr, haddr, r, hr, hzero⟩ := hunused
  rw [listDir_run hdir hbs hblocks fun _ => hblocks.eight_le haddr hr,
    entriesOf_of_exists ⟨r, List.mem_flatMap.2 ⟨addr, haddr, hr⟩, hzero⟩]
  rfl

/-- The root directory of `smallImage`, inode 2, whose one direct block is block 6. -/
def smallRoot : Inode := Inode.ofArray (slice smallImage 5248 128)

/-- A block with no entries, as ext2 leaves it: one unused record over the whole block. -/
def emptyRecord : Record := ⟨0, ⟨0, by decide⟩, [], List.replicate 1016 0⟩

/-- `smallFs` with the root directory's block holding no entries. -/
def emptyRootFs : Ext2Fs := { smallFs with blockDevice := writeLE smallImage (6 * 1024 + 4) 2 1024 }

set_option maxRecDepth 100000 in
theorem smallRoot_blocks : smallRoot.directPtrs.filterMap id = [6] := rfl

set_option maxRecDepth 100000 in
theorem emptyRoot_listDir_panics :
    smallRoot.isDirectory = true ∧ emptyRootFs.superblock.blockSize? = some 1024 ∧
      DirBlocks emptyRootFs 1024 emptyRootFs.superblock.dirEntriesHaveType
        (smallRoot.directPtrs.filterMap id) (fun _ => [emptyRecord]) ∧
      (listDir smallRoot).run emptyRootFs = .error (.panic ⟨UNWRAP_NONE⟩) emptyRootFs :=
  have hblocks : DirBlocks emptyRootFs 1024 emptyRootFs.superblock.dirEntriesHaveType
      (smallRoot.directPtrs.filterMap id) (fun _ => [emptyRecord]) := by
    rw [smallRoot_blocks]
    refine ⟨fun addr haddr => ?_, fun addr haddr => ?_, fun _ _ => ⟨fun r hr => ?_, fun r hr => ?_⟩⟩
    · rw [List.mem_singleton.1 haddr]
      decide
    · rw [List.mem_singleton.1 haddr]
      rfl
    · rw [List.mem_singleton.1 hr]
      exact ⟨by decide, by decide, by decide, by decide⟩
    · rw [List.mem_singleton.1 (List.mem_of_getLast? hr)]
      decide
  ⟨rfl, rfl, hblocks, listDir_unused_record_panics rfl rfl hblocks
    ⟨6, by rw [smallRoot_blocks]; exact List.mem_singleton_self 6, emptyRecord,
      List.mem_singleton_self _, rfl⟩⟩

end Muffin.Ext2
