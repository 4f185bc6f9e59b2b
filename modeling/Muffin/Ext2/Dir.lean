-- SUMMARY: Directories of `kernel_ext2`: `DirEntry` with `size`, `from` and `serialize`, the loops of `list_dir` and `add_entry_to_dir` over the records of the direct blocks, and `find_entry`, with the fuel that stands for a loop that does not end.
import Muffin.Ext2.File

/-!
# ext2: directories

A directory's direct blocks hold its records one after another. A record is an
8-byte header (the inode, `rec_len`, and the name length in two bytes, or in one
byte followed by the type when the superblock requires typed entries) and then
the name. `list_dir` reads each block and decodes records from offset 0, moving
on by each record's `rec_len` while the offset is below `block_size - 8`.
`add_entry_to_dir` walks the records the same way and splits the first one
whose `rec_len` leaves room for the new entry after its own.

Both loops move on by a `rec_len` read from the device, so a record whose
`rec_len` is zero is decoded again and again. The loops are modelled with fuel,
and `none` stands for a loop that does not end: the fuel they are given is more
than the bytes of the block, and more fuel changes nothing
(`entriesFrom_fuel_add`), while a record of `rec_len` zero gives `none` for every
fuel (`entriesFrom_of_totalSize_zero`).
-/

namespace Muffin.Ext2

open Rust Bytes EStateM

namespace Superblock

/-- `required_features().contains(RequiredFeatures::DIRECTORY_ENTRIES_HAVE_TYPE)`. -/
def dirEntriesHaveType (sb : Superblock) : Bool := readLE sb.bytes 96 4 &&& 2 != 0

end Superblock

/-- A `u16` sum and its overflow panic. -/
def checkedAddU16 (a b : Nat) : Except Panic Nat :=
  if a + b < 2 ^ 16 then pure (a + b) else throw ⟨"attempt to add with overflow"⟩

/-- `DirType::from_bits_truncate`: the three bits of the seven types. -/
def DirType.fromBitsTruncate (bits : Nat) : Fin 8 := ⟨bits &&& 7, Nat.lt_succ_of_le Nat.and_le_right⟩

/-- The panic of `unwrap` on `None`. -/
def UNWRAP_NONE : String := "called `Option::unwrap()` on a `None` value"

/-- A panic of the pure functions of `dir.rs`, in a call on the file system. -/
def liftPanic {α : Type} : Except Panic α → FsM α
  | .ok a => pure a
  | .error p => throw (.panic p)

/-- `DirEntry`. A `DirType` is kept as its bits: `from_bits_truncate` and the seven constants
    make no others. -/
structure DirEntry where
  inode : Nat
  totalSize : Nat
  nameLength : Nat
  typeIndicator : Option (Fin 8)
  nameBytes : List Nat
  deriving DecidableEq, Repr

namespace DirEntry

/-- `DirEntry::size`: the header and the name, aligned up to 4 bytes, in `u16`. -/
def size (nameLength : Nat) : Except Panic Nat := do
  let unaligned ← checkedAddU16 8 nameLength
  let padded ← checkedAddU16 unaligned 3
  -- `& !3` on a `u16`
  pure (padded / 4 * 4)

/-- `DirEntry::from`, on the bytes of the block from the record on. -/
def «from» (haveType : Bool) (value : List Nat) : Except Panic DirEntry := do
  if value.length < 8 then
    throw ⟨"need at least 8 byte, but got " ++ toString value.length⟩
  let lsb := readLE value 6 1
  let msb := readLE value 7 1
  let nameLength := if haveType then lsb else lsb ||| msb <<< 8
  let typeIndicator := if haveType then some (DirType.fromBitsTruncate msb) else none
  let requiredSize ← size nameLength
  if value.length < requiredSize then
    throw ⟨"need at least " ++ toString requiredSize ++ " byte, but have only " ++
      toString value.length⟩
  -- the assertion keeps `value[8..8 + name_length]` in range
  let nameBytes := slice value 8 nameLength
  if readLE value 0 4 = 0 then
    throw ⟨UNWRAP_NONE⟩
  pure ⟨readLE value 0 4, readLE value 4 2, nameLength, typeIndicator, nameBytes⟩

/-- `DirEntry::serialize`: the header of `DirEntryNoName` and the name. -/
def serialize (e : DirEntry) (haveType : Bool) : Except Panic (List Nat) := do
  let msb ← if haveType then
      match e.typeIndicator with
      | some t => pure t.val
      | none => throw ⟨UNWRAP_NONE⟩
    else pure ((e.nameLength >>> 8) % 256)
  pure (encodeLE 4 e.inode ++ encodeLE 2 e.totalSize ++ [e.nameLength % 256, msb] ++ e.nameBytes)

end DirEntry

-- ---------------------------------------------------------------------------
-- `list_dir` and `find_entry`
-- ---------------------------------------------------------------------------

/-- The `while` loop of `list_dir` over the records of the block `data` from `offset`, for at most
    `fuel` records: `none` if they have not reached the end of the block by then. -/
def entriesFrom (haveType : Bool) (data : List Nat) : Nat → Nat → Except Panic (Option (List DirEntry))
  | 0, _ => pure none
  | fuel + 1, offset =>
    -- `block_size - 8`: the buffer holds `block_size` bytes, at least 8 since `listBlocks` made
    -- the same subtraction
    if offset < data.length - 8 then do
      let entry ← DirEntry.from haveType (data.drop offset)
      -- no alignment: there is no space between records
      let rest ← entriesFrom haveType data fuel (offset + entry.totalSize)
      pure (rest.map (entry :: ·))
    else pure (some [])

/-- The `for` loop of `list_dir` over the direct blocks `addrs`, each read into `bs` bytes. -/
def listBlocks (haveType : Bool) (bs : Nat) : List Nat → FsM (Option (List DirEntry))
  | [] => pure (some [])
  | addr :: addrs => do
    -- `read_block` fails with `DeviceRead` already, which `map_err` keeps
    let data ← readBlock addr bs
    -- the loop's `block_size - 8` in `usize`, below 8 only when `block_size()` wrapped to 0
    if bs < 8 then throw (.panic ⟨"attempt to subtract with overflow"⟩)
    match entriesFrom haveType data (data.length + 1) 0 with
    | .error p => throw (.panic p)
    | .ok none => pure none
    | .ok (some entries) => do
      let rest ← listBlocks haveType bs addrs
      pure (rest.map (entries ++ ·))

/-- `Ext2Fs::list_dir`: `none` if it does not return. -/
def listDir (dir : Inode) : FsM (Option (List DirEntry)) := do
  if !dir.isDirectory then
    throw (.error .notDirectory)
  let bs ← blockSize
  listBlocks (← get).superblock.dirEntriesHaveType bs (dir.directPtrs.filterMap id)

/-- `Ext2Fs::find_entry`: the first entry that `p` accepts, under the `some` of a `list_dir` that
    returns. -/
def findEntry (dir : Inode) (p : DirEntry → Bool) : FsM (Option (Option DirEntry)) := do
  let entries ← listDir dir
  pure (entries.map (·.find? p))

-- ---------------------------------------------------------------------------
-- `add_entry_to_dir`
-- ---------------------------------------------------------------------------

/-- `debug_assert_eq!(offset % 4, 0, msg)`. -/
def assertAligned (offset : Nat) (msg : String) : Except Panic Unit :=
  if offset % 4 = 0 then pure ()
  else throw ⟨"assertion `left == right` failed: " ++ msg ++ "\n  left: " ++ toString (offset % 4) ++
    "\n right: 0"⟩

/-- `buf[off..off + bytes.len()].copy_from_slice(bytes)`, which panics past the end of `buf`. -/
def copyInto (buf : List Nat) (off : Nat) (bytes : List Nat) : Except Panic (List Nat) :=
  if buf.length < off + bytes.length then throw ⟨"range end index out of range for slice"⟩
  else pure (overwrite buf off bytes)

/-- What `add_entry_to_dir` writes into the block `data` once the record `entry` at `offset`, of
    `entry_size` bytes, has room for the new entry: the record shrunk to `entry_size`, and after it
    the new entry, which takes the rest of the record. -/
def splitRecord (haveType : Bool) (data : List Nat) (offset : Nat) (entry : DirEntry) (entrySize : Nat)
    (name : List Nat) (inodeAddress : Nat) (typ : Fin 8) : Except Panic (List Nat) := do
  let data ← copyInto data offset (← { entry with totalSize := entrySize }.serialize haveType)
  let newEntryOffset := offset + entrySize
  assertAligned newEntryOffset "new entry offset is not aligned"
  -- `name.len() as u16`; the subtraction cannot overflow, as the record has room
  let newEntry : DirEntry := ⟨inodeAddress, entry.totalSize - entrySize, name.length % 2 ^ 16,
    if haveType then some typ else none, name⟩
  copyInto data newEntryOffset (← newEntry.serialize haveType)

/-- The `while` loop of `add_entry_to_dir` over the records of the block `data` from `offset`, for
    at most `fuel` records: the block with the new entry in the first record that has room for it,
    `some none` past the last record, and `none` if the records have not reached the end of the
    block by then. -/
def slotFrom (haveType : Bool) (data name : List Nat) (inodeAddress : Nat) (typ : Fin 8)
    (requiredSize : Nat) : Nat → Nat → Except Panic (Option (Option (List Nat)))
  | 0, _ => pure none
  | fuel + 1, offset =>
    -- `block_size - 8` does not underflow here: `find_entry` ran `list_dir` over the same blocks
    if offset < data.length - 8 then do
      assertAligned offset "offset is not aligned"
      let entry ← DirEntry.from haveType (data.drop offset)
      let entrySize ← DirEntry.size entry.nameLength
      if (← checkedAddU16 requiredSize entrySize) ≤ entry.totalSize then
        pure (some (some (← splitRecord haveType data offset entry entrySize name inodeAddress typ)))
      else
        slotFrom haveType data name inodeAddress typ requiredSize fuel (offset + entry.totalSize)
    else pure (some none)

/-- The `for` loop of `add_entry_to_dir` over the direct blocks `blocks`, each read into `bs`
    bytes: `some ()` once the block with the new entry is written. -/
def addToBlocks (haveType : Bool) (bs : Nat) (name : List Nat) (inodeAddress : Nat) (typ : Fin 8)
    (requiredSize : Nat) : List Nat → FsM (Option Unit)
  | [] => throw (.panic ⟨"not yet implemented: add_entry_to_dir with indirect pointers"⟩)
  | block :: blocks => do
    let data ← readBlock block bs
    match slotFrom haveType data name inodeAddress typ requiredSize (data.length + 1) 0 with
    | .error p => throw (.panic p)
    | .ok none => pure none
    | .ok (some none) => addToBlocks haveType bs name inodeAddress typ requiredSize blocks
    | .ok (some (some data)) => do
      writeBlock block data
      pure (some ())

/-- `Ext2Fs::add_entry_to_dir`, with the name as its UTF-8 bytes: `e.name() == Some(name)` holds
    exactly when the entry's bytes are the name's. `none` if a loop does not end. -/
def addEntryToDir (dir : Inode) (name : List Nat) (inodeAddress : Nat) (typ : Fin 8) :
    FsM (Option Unit) := do
  match ← findEntry dir (·.nameBytes == name) with
  | none => pure none
  | some (some _) => throw (.error .entryExists)
  | some none =>
    let bs ← blockSize
    let haveType := (← get).superblock.dirEntriesHaveType
    -- `name.len() as u16`
    let requiredSize ← liftPanic (DirEntry.size (name.length % 2 ^ 16))
    addToBlocks haveType bs name inodeAddress typ requiredSize (dir.directPtrs.filterMap id)

-- ---------------------------------------------------------------------------
-- The pure functions
-- ---------------------------------------------------------------------------

theorem checkedAddU16_of_lt {a b : Nat} (h : a + b < 2 ^ 16) : checkedAddU16 a b = .ok (a + b) :=
  if_pos h

theorem checkedAddU16_of_le {a b : Nat} (h : 2 ^ 16 ≤ a + b) :
    checkedAddU16 a b = .error ⟨"attempt to add with overflow"⟩ :=
  if_neg (Nat.not_lt.2 h)

namespace DirEntry

/-- A record's size is its header and name rounded up to 4 bytes, when that fits a `u16`. -/
theorem size_of_lt {n : Nat} (h : n + 11 < 2 ^ 16) : size n = .ok ((n + 11) / 4 * 4) := by
  have h₁ : 8 + n < 2 ^ 16 := by omega
  have h₂ : 8 + n + 3 < 2 ^ 16 := by omega
  rw [size, checkedAddU16_of_lt h₁, Except.ok_bind, checkedAddU16_of_lt h₂, Except.ok_bind,
    show 8 + n + 3 = n + 11 by omega]
  rfl

theorem size_of_le {n : Nat} (h : 2 ^ 16 ≤ n + 11) : size n = .error ⟨"attempt to add with overflow"⟩ := by
  unfold size
  by_cases h₁ : 8 + n < 2 ^ 16
  · rw [checkedAddU16_of_lt h₁, Except.ok_bind, checkedAddU16_of_le (by omega)]
    rfl
  · rw [checkedAddU16_of_le (by omega)]
    rfl

end DirEntry

theorem assertAligned_of_mod {offset : Nat} {msg : String} (h : offset % 4 = 0) :
    assertAligned offset msg = .ok () :=
  if_pos h

theorem copyInto_of_le {buf bytes : List Nat} {off : Nat} (h : off + bytes.length ≤ buf.length) :
    copyInto buf off bytes = .ok (overwrite buf off bytes) :=
  if_neg (Nat.not_lt.2 h)

theorem DirType.fromBitsTruncate_of_lt {b : Nat} (h : b < 8) : DirType.fromBitsTruncate b = ⟨b, h⟩ := by
  apply Fin.ext
  show b &&& (2 ^ 3 - 1) = b
  rw [Nat.and_two_pow_sub_one_eq_mod, Nat.mod_eq_of_lt h]

-- ---------------------------------------------------------------------------
-- The loop of `list_dir`
-- ---------------------------------------------------------------------------

section EntriesFrom

variable {haveType : Bool} {data : List Nat} {fuel offset : Nat}

theorem entriesFrom_succ_of_le (h : data.length - 8 ≤ offset) :
    entriesFrom haveType data (fuel + 1) offset = .ok (some []) := by
  rw [entriesFrom, if_neg (Nat.not_lt.2 h)]
  rfl

theorem entriesFrom_succ_of_from_error {p : Panic} (h : offset < data.length - 8)
    (he : DirEntry.from haveType (data.drop offset) = .error p) :
    entriesFrom haveType data (fuel + 1) offset = .error p := by
  rw [entriesFrom, if_pos h, he]
  rfl

/-- One record: decoded at `offset`, and the loop goes on `rec_len` bytes further. -/
theorem entriesFrom_succ_of_from_ok {e : DirEntry} (h : offset < data.length - 8)
    (he : DirEntry.from haveType (data.drop offset) = .ok e) :
    entriesFrom haveType data (fuel + 1) offset =
      Option.map (e :: ·) <$> entriesFrom haveType data fuel (offset + e.totalSize) := by
  rw [entriesFrom, if_pos h, he]
  simp only [bind_pure_comp]
  rfl

/-- A record whose `rec_len` is zero is decoded again and again: the loop does not end. -/
theorem entriesFrom_of_totalSize_zero {e : DirEntry} (h : offset < data.length - 8)
    (he : DirEntry.from haveType (data.drop offset) = .ok e) (hzero : e.totalSize = 0) :
    ∀ fuel, entriesFrom haveType data fuel offset = .ok none
  | 0 => rfl
  | fuel + 1 => by
    rw [entriesFrom_succ_of_from_ok h he, hzero, Nat.add_zero, entriesFrom_of_totalSize_zero h he hzero fuel]
    rfl

/-- Fuel beyond the bytes left changes nothing: a record that does not loop moves the offset on
    by at least one byte, and the loop stops 8 bytes before the end. -/
theorem entriesFrom_fuel_succ :
    ∀ {fuel offset : Nat}, data.length - offset < fuel →
      entriesFrom haveType data (fuel + 1) offset = entriesFrom haveType data fuel offset
  | 0, _, h => absurd h (Nat.not_lt_zero _)
  | fuel + 1, offset, h => by
    by_cases hlt : offset < data.length - 8
    · cases he : DirEntry.from haveType (data.drop offset) with
      | error p => rw [entriesFrom_succ_of_from_error hlt he, entriesFrom_succ_of_from_error hlt he]
      | ok e =>
        rw [entriesFrom_succ_of_from_ok hlt he, entriesFrom_succ_of_from_ok hlt he]
        by_cases hzero : e.totalSize = 0
        · simp only [hzero, Nat.add_zero, entriesFrom_of_totalSize_zero hlt he hzero]
        · rw [entriesFrom_fuel_succ (by omega)]
    · rw [entriesFrom_succ_of_le (by omega), entriesFrom_succ_of_le (by omega)]

/-- The fuel `list_dir` gives the loop decides it: any more gives the same result, so `none` there
    is a loop that does not end. -/
theorem entriesFrom_fuel_add (k : Nat) :
    entriesFrom haveType data (data.length + 1 + k) 0 = entriesFrom haveType data (data.length + 1) 0 := by
  induction k with
  | zero => rfl
  | succ k ih => rw [← Nat.add_assoc, entriesFrom_fuel_succ (by omega), ih]

end EntriesFrom

theorem findEntry_run_ok {fs fs' : Ext2Fs} {dir : Inode} {p : DirEntry → Bool} {es : Option (List DirEntry)}
    (h : (listDir dir).run fs = .ok es fs') : (findEntry dir p).run fs = .ok (es.map (·.find? p)) fs' := by
  unfold findEntry
  rw [run_bind_of_run_ok h]
  rfl

theorem findEntry_run_error {fs fs' : Ext2Fs} {dir : Inode} {p : DirEntry → Bool} {e : Exit}
    (h : (listDir dir).run fs = .error e fs') : (findEntry dir p).run fs = .error e fs' := by
  unfold findEntry
  exact run_bind_of_run_error h

end Muffin.Ext2
