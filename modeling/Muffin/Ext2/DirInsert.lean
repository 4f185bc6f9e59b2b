-- SUMMARY: `add_entry_to_dir` on a directory whose direct blocks are well formed: the insertion over the records that its loop over the bytes performs, the block it writes, and `list_dir` afterwards, where the new entry's name is cut to the length its header stores, the low byte of the length when entries have types.
import Muffin.Ext2.DirBlock

/-!
# ext2: adding an entry to a directory

`add_entry_to_dir` looks for the first record of the directory's blocks whose
`rec_len` holds its own entry and the new one. It rewrites that record's header
with the record's own size as `rec_len`, and serializes the new entry right after
it, with the rest of the old record as its `rec_len`. Over the records of a
well-formed block this is `insertInto` (`slotFrom_blockOf`): the record is split
in two, and the records before and after it are kept.

`serialize` stores `name.len() as u16` in the header, in two bytes, or in one
byte when the second holds the type, and then all the bytes of the name. With
types, a name of 256 bytes or more is written whole but read back cut to its
length modulo 256 (`listDir_after_addEntryToDir`).
-/

namespace Muffin.Ext2

open Rust Bytes EStateM

/-- What a caller of `list_dir` sees of an entry: its inode, its name and its type. -/
def DirEntry.view (e : DirEntry) : Nat × List Nat × Option (Fin 8) := (e.inode, e.nameBytes, e.typeIndicator)

/-- The name length the new entry's header stores: `name.len() as u16`, of which `serialize` keeps
    the low byte when the second byte holds the type. -/
def storedNameLength (haveType : Bool) (len : Nat) : Nat :=
  if haveType then len % 2 ^ 16 % 256 else len % 2 ^ 16

theorem storedNameLength_le (haveType : Bool) (len : Nat) : storedNameLength haveType len ≤ len := by
  unfold storedNameLength
  split
  · exact (Nat.mod_le _ _).trans (Nat.mod_le _ _)
  · exact Nat.mod_le _ _

namespace Record

/-- `DirEntry::size` of the record's name. -/
def entrySize (r : Record) : Nat := (r.name.length + 11) / 4 * 4

/-- The record shrunk to `size` bytes: its header and name, and the start of its padding. -/
def shrink (r : Record) (size : Nat) : Record :=
  { r with padding := r.padding.take (size - 8 - r.name.length) }

/-- The record `add_entry_to_dir` writes after the first `size` bytes of `r`: the name as long as its
    header says, and the rest of the name and of `r` as its padding. -/
def newAfter (haveType : Bool) (r : Record) (size : Nat) (name : List Nat) (ino : Nat) (typ : Fin 8) :
    Record :=
  ⟨ino, typ, name.take (storedNameLength haveType name.length),
    name.drop (storedNameLength haveType name.length) ++
      r.padding.drop (size - 8 - r.name.length + (8 + name.length))⟩

end Record

/-- Where `add_entry_to_dir` puts an entry of `requiredSize` bytes among the records of a block: the
    first record with room for it is split into itself and the new record, and `none` if no
    record has room. An unused record and a `u16` sum past `u16::MAX` panic on the way. -/
def insertInto (haveType : Bool) (name : List Nat) (ino : Nat) (typ : Fin 8) (requiredSize : Nat) :
    List Record → Except Panic (Option (List Record))
  | [] => pure none
  | r :: rs =>
    if r.inode = 0 then throw ⟨UNWRAP_NONE⟩
    else if 2 ^ 16 ≤ requiredSize + r.entrySize then throw ⟨"attempt to add with overflow"⟩
    else if requiredSize + r.entrySize ≤ r.recLen then
      pure (some (r.shrink r.entrySize :: r.newAfter haveType r.entrySize name ino typ :: rs))
    else Option.map (r :: ·) <$> insertInto haveType name ino typ requiredSize rs

-- ---------------------------------------------------------------------------
-- The two records of a split
-- ---------------------------------------------------------------------------

namespace Record

variable {haveType : Bool} {r : Record} {name : List Nat} {ino : Nat} {typ : Fin 8}

theorem entrySize_mod (r : Record) : r.entrySize % 4 = 0 := by
  unfold entrySize
  omega

theorem le_entrySize (r : Record) : 8 + r.name.length ≤ r.entrySize := by
  unfold entrySize
  omega

theorem Wf.entrySize_le (hwf : r.Wf haveType) : r.entrySize ≤ r.recLen := hwf.size_le

theorem length_padding (r : Record) : r.padding.length = r.recLen - 8 - r.name.length := by
  unfold recLen
  omega

theorem recLen_shrink {size : Nat} (h : 8 + r.name.length ≤ size) (hsize : size ≤ r.recLen) :
    (r.shrink size).recLen = size := by
  have := r.length_padding
  simp only [shrink, recLen, List.length_take] at *
  omega

theorem recLen_newAfter {size : Nat} (hfit : size + (8 + name.length) ≤ r.recLen)
    (h : 8 + r.name.length ≤ size) :
    (r.newAfter haveType size name ino typ).recLen = r.recLen - size := by
  have := r.length_padding
  have := storedNameLength_le haveType name.length
  simp only [newAfter, recLen, List.length_append, List.length_take, List.length_drop] at *
  omega

theorem header_shrink {size : Nat} (h : 8 + r.name.length ≤ size) (hsize : size ≤ r.recLen) :
    (r.shrink size).header haveType = encodeLE 4 r.inode ++ encodeLE 2 size ++
      [r.name.length % 256, if haveType then r.typ.val else r.name.length / 256] := by
  rw [header, recLen_shrink h hsize]
  rfl

theorem header_newAfter {size : Nat} (hfit : size + (8 + name.length) ≤ r.recLen)
    (h : 8 + r.name.length ≤ size) :
    (r.newAfter haveType size name ino typ).header haveType = encodeLE 4 ino ++ encodeLE 2 (r.recLen - size) ++
      [storedNameLength haveType name.length % 256,
        if haveType then typ.val else storedNameLength haveType name.length / 256] := by
  have hk : (name.take (storedNameLength haveType name.length)).length = storedNameLength haveType name.length := by
    simp [storedNameLength_le]
  rw [header, recLen_newAfter hfit h]
  simp only [newAfter, hk]

@[simp] theorem view_entry_shrink {size : Nat} :
    ((r.shrink size).entry haveType).view = (r.entry haveType).view := rfl

@[simp] theorem view_entry_newAfter {size : Nat} :
    ((r.newAfter haveType size name ino typ).entry haveType).view =
      (ino, name.take (storedNameLength haveType name.length), if haveType then some typ else none) := rfl

theorem Wf.shrink (hwf : r.Wf haveType) : (r.shrink r.entrySize).Wf haveType where
  inode_lt := hwf.inode_lt
  recLen_lt := by rw [recLen_shrink r.le_entrySize hwf.entrySize_le]; exact Nat.lt_of_le_of_lt hwf.entrySize_le hwf.recLen_lt
  recLen_mod := by rw [recLen_shrink r.le_entrySize hwf.entrySize_le]; exact r.entrySize_mod
  name_lt := hwf.name_lt

theorem Wf.newAfter (hwf : r.Wf haveType) (hino : ino < U32_LIMIT)
    (hfit : r.entrySize + (8 + name.length) ≤ r.recLen) :
    (r.newAfter haveType r.entrySize name ino typ).Wf haveType where
  inode_lt := hino
  recLen_lt := by rw [recLen_newAfter hfit r.le_entrySize]; have := hwf.recLen_lt; omega
  recLen_mod := by
    rw [recLen_newAfter hfit r.le_entrySize]
    have := hwf.recLen_mod
    have := r.entrySize_mod
    omega
  name_lt := by
    intro htype
    have hk : storedNameLength haveType name.length < 256 := by
      simp only [storedNameLength, htype, if_true]
      exact Nat.mod_lt _ (by decide)
    show (name.take (storedNameLength haveType name.length)).length < 256
    rw [List.length_take, Nat.min_eq_left (storedNameLength_le _ _)]
    exact hk

end Record

-- ---------------------------------------------------------------------------
-- What `splitRecord` writes
-- ---------------------------------------------------------------------------

namespace DirEntry

variable {haveType : Bool} {r : Record}

/-- The header and name of a record's entry with another `rec_len`. -/
theorem serialize_entry (hwf : r.Wf haveType) (t : Nat) :
    ({ r.entry haveType with totalSize := t } : DirEntry).serialize haveType =
      .ok (encodeLE 4 r.inode ++ encodeLE 2 t ++
        [r.name.length % 256, if haveType then r.typ.val else r.name.length / 256] ++ r.name) := by
  cases haveType with
  | true => rfl
  | false =>
    have hlen := hwf.name_add_lt
    have hmsb : (r.name.length >>> 8) % 256 = r.name.length / 256 := by
      rw [Nat.shiftRight_eq_div_pow]
      omega
    simp only [serialize, Record.entry, Bool.false_eq_true, if_false, hmsb]
    rfl

/-- The header and name of the new entry. -/
theorem serialize_new {name : List Nat} {ino total : Nat} {typ : Fin 8} (hlen : name.length < 2 ^ 16) :
    (⟨ino, total, name.length % 2 ^ 16, if haveType then some typ else none, name⟩ : DirEntry).serialize
        haveType =
      .ok (encodeLE 4 ino ++ encodeLE 2 total ++ [storedNameLength haveType name.length % 256,
        if haveType then typ.val else storedNameLength haveType name.length / 256] ++ name) := by
  cases haveType with
  | true =>
    simp [serialize, storedNameLength]
    rfl
  | false =>
    have hmsb : ((name.length % 2 ^ 16) >>> 8) % 256 = name.length % 2 ^ 16 / 256 := by
      rw [Nat.shiftRight_eq_div_pow]
      omega
    simp only [serialize, storedNameLength, Bool.false_eq_true, if_false, hmsb]
    rfl

end DirEntry

section Split

variable {haveType : Bool} {r : Record} {name : List Nat} {ino : Nat} {typ : Fin 8}

/-- `splitRecord` at a well-formed record with room for the new entry: the record shrunk to its
    size, then the new record in the rest of it, and all other bytes kept. -/
theorem splitRecord_eq (pre rest : List Nat) (hwf : r.Wf haveType) (hpre : pre.length % 4 = 0)
    (hlen : name.length < 2 ^ 16) (hfit : r.entrySize + (8 + name.length) ≤ r.recLen) :
    splitRecord haveType (pre ++ r.bytes haveType ++ rest) pre.length (r.entry haveType) r.entrySize
        name ino typ =
      .ok (pre ++ (r.shrink r.entrySize).bytes haveType ++
        (r.newAfter haveType r.entrySize name ino typ).bytes haveType ++ rest) := by
  have hs := r.le_entrySize
  have hpad := r.length_padding
  -- the padding in three: what the shrunk record keeps, what the new header and name take, the rest
  have hsplit := take_append_slice_append_drop r.padding (h := r.entrySize - 8 - r.name.length)
    (t := r.entrySize - 8 - r.name.length + (8 + name.length)) (by omega)
  rw [Nat.add_sub_cancel_left] at hsplit
  generalize hP₁ : r.padding.take (r.entrySize - 8 - r.name.length) = P₁ at hsplit
  generalize hP₀ : slice r.padding (r.entrySize - 8 - r.name.length) (8 + name.length) = P₀ at hsplit
  generalize hP₂ : r.padding.drop (r.entrySize - 8 - r.name.length + (8 + name.length)) = P₂ at hsplit
  have hP₀len : P₀.length = 8 + name.length := by
    rw [← hP₀, length_slice_of_le (by omega)]
  have hP₁len : P₁.length = r.entrySize - 8 - r.name.length := by
    rw [← hP₁, List.length_take]
    omega
  -- the shrunk record's header replaces the old one
  have hold := DirEntry.serialize_entry hwf r.entrySize
  have h₁ : pre ++ r.bytes haveType ++ rest =
      pre ++ (r.header haveType ++ r.name) ++ (P₁ ++ P₀ ++ P₂ ++ rest) := by
    simp only [Record.bytes, ← hsplit, List.append_assoc]
  have hwrite₁ : overwrite (pre ++ (r.header haveType ++ r.name) ++ (P₁ ++ P₀ ++ P₂ ++ rest)) pre.length
      (encodeLE 4 r.inode ++ encodeLE 2 r.entrySize ++
        [r.name.length % 256, if haveType then r.typ.val else r.name.length / 256] ++ r.name) =
      pre ++ ((r.shrink r.entrySize).header haveType ++ r.name) ++ P₁ ++ P₀ ++ (P₂ ++ rest) := by
    rw [overwrite_append_of_length (by simp; omega), Record.header_shrink hs hwf.entrySize_le]
    simp only [List.append_assoc]
  -- the new entry replaces the bytes after it
  have hnew := @DirEntry.serialize_new haveType name ino (r.recLen - r.entrySize) typ hlen
  have hat : (pre ++ ((r.shrink r.entrySize).header haveType ++ r.name) ++ P₁).length =
      pre.length + r.entrySize := by
    simp only [List.length_append, Record.length_header, hP₁len]
    omega
  have hwrite₂ := @overwrite_append_of_length
    (pre ++ ((r.shrink r.entrySize).header haveType ++ r.name) ++ P₁) P₀ (P₂ ++ rest)
    (encodeLE 4 ino ++ encodeLE 2 (r.recLen - r.entrySize) ++ [storedNameLength haveType name.length % 256,
      if haveType then typ.val else storedNameLength haveType name.length / 256] ++ name)
    (by simp [hP₀len]; omega)
  rw [hat] at hwrite₂
  unfold splitRecord
  rw [hold, Except.ok_bind, h₁, copyInto_of_le (by simp; omega), Except.ok_bind, hwrite₁]
  dsimp only [Record.entry]
  rw [assertAligned_of_mod (by have := r.entrySize_mod; omega), Except.ok_bind, hnew, Except.ok_bind,
    copyInto_of_le (by simp [hP₀len, hP₁len]; omega), hwrite₂, Record.bytes, Record.bytes,
    Record.header_newAfter hfit hs]
  simp only [Record.shrink, Record.newAfter, hP₁, hP₂, List.append_assoc]
  rw [← List.append_assoc (name.take _), List.take_append_drop]

end Split

-- ---------------------------------------------------------------------------
-- The loop of `add_entry_to_dir` over a well-formed block
-- ---------------------------------------------------------------------------

section SlotFrom

variable {haveType : Bool} {name : List Nat} {ino : Nat} {typ : Fin 8} {requiredSize : Nat}

theorem slotFrom_succ_of_le {data : List Nat} {fuel offset : Nat} (h : data.length - 8 ≤ offset) :
    slotFrom haveType data name ino typ requiredSize (fuel + 1) offset = .ok (some none) := by
  rw [slotFrom, if_neg (Nat.not_lt.2 h)]
  rfl

/-- The loop of `add_entry_to_dir` over a well-formed block, from any record on, is `insertInto`
    over its records: by induction on the records, the bytes before them growing by one record
    each step and staying aligned. -/
theorem slotFrom_blockOf (pre : List Nat) (hpre : pre.length % 4 = 0) {rs : List Record}
    (hwf : BlockWf haveType rs) (hreq : requiredSize = (name.length + 11) / 4 * 4)
    (hlen : name.length + 11 < 2 ^ 16) {fuel : Nat} (hfuel : rs.length < fuel) :
    slotFrom haveType (pre ++ blockOf haveType rs) name ino typ requiredSize fuel pre.length =
      some <$> (Option.map (fun rs' => pre ++ blockOf haveType rs') <$>
        insertInto haveType name ino typ requiredSize rs) := by
  induction rs generalizing pre fuel with
  | nil =>
    obtain ⟨fuel, rfl⟩ : ∃ f, fuel = f + 1 := ⟨fuel - 1, by simp at hfuel; omega⟩
    rw [slotFrom_succ_of_le (by simp)]
    rfl
  | cons r rs ih =>
    obtain ⟨fuel, rfl⟩ : ∃ f, fuel = f + 1 := ⟨fuel - 1, by simp at hfuel; omega⟩
    have hr := hwf.records_wf r List.mem_cons_self
    have hlt : pre.length < (pre ++ blockOf haveType (r :: rs)).length - 8 := by
      have := hwf.eight_lt
      simp only [blockOf_cons, List.length_append, Record.length_bytes]
      omega
    have hdrop : (pre ++ blockOf haveType (r :: rs)).drop pre.length =
        r.bytes haveType ++ blockOf haveType rs := by
      rw [List.drop_left, blockOf_cons]
    have hfrom := r.from_bytes hr (blockOf haveType rs)
    rw [← hdrop] at hfrom
    rw [slotFrom, if_pos hlt, assertAligned_of_mod hpre, Except.ok_bind]
    by_cases hzero : r.inode = 0
    · rw [if_pos hzero] at hfrom
      rw [hfrom, Except.error_bind, insertInto, if_pos hzero]
      rfl
    rw [if_neg hzero] at hfrom
    rw [hfrom, Except.ok_bind, Record.entry_nameLength, Record.entry_totalSize,
      DirEntry.size_of_lt hr.name_add_lt, Except.ok_bind]
    by_cases hover : 2 ^ 16 ≤ requiredSize + r.entrySize
    · rw [Record.entrySize] at hover
      rw [checkedAddU16_of_le hover, Except.error_bind, insertInto, if_neg hzero, Record.entrySize,
        if_pos hover]
      rfl
    rw [Record.entrySize] at hover
    rw [checkedAddU16_of_lt (Nat.lt_of_not_le hover), Except.ok_bind]
    by_cases hfit : requiredSize + r.entrySize ≤ r.recLen
    · -- the record has room: it is split in two
      have hdata : pre ++ blockOf haveType (r :: rs) = pre ++ r.bytes haveType ++ blockOf haveType rs := by
        simp
      have hsplit := @splitRecord_eq haveType r name ino typ pre (blockOf haveType rs) hr hpre
        (by omega) (by rw [Record.entrySize] at hfit ⊢; omega)
      rw [Record.entrySize] at hfit hsplit
      simp only [hfit, ↓reduceIte]
      rw [hdata, hsplit, Except.ok_bind, insertInto, if_neg hzero, Record.entrySize]
      simp only [hover, hfit, ↓reduceIte, List.append_assoc]
      rfl
    · -- no room: the loop moves on by the record's `rec_len`
      rw [Record.entrySize] at hfit
      simp only [hfit, ↓reduceIte]
      have hdata : pre ++ blockOf haveType (r :: rs) = (pre ++ r.bytes haveType) ++ blockOf haveType rs := by
        simp
      have hnext : pre.length + r.recLen = (pre ++ r.bytes haveType).length := by simp
      have hpre' : (pre ++ r.bytes haveType).length % 4 = 0 := by
        have := hr.recLen_mod
        simp only [List.length_append, Record.length_bytes]
        omega
      rw [hdata, hnext, ih (pre ++ r.bytes haveType) hpre' hwf.tail (by simp at hfuel; omega), insertInto,
        if_neg hzero, Record.entrySize]
      simp only [hover, hfit, ↓reduceIte]
      cases insertInto haveType name ino typ requiredSize rs with
      | error p => rfl
      | ok o => cases o <;> simp
  
end SlotFrom

-- ---------------------------------------------------------------------------
-- The records after an insertion
-- ---------------------------------------------------------------------------

section Insert

variable {haveType : Bool} {name : List Nat} {ino : Nat} {typ : Fin 8} {requiredSize : Nat}

/-- When the insertion finds room, the records are those before the slot, the slot split in two,
    and those after it. By induction on the records. -/
theorem insertInto_eq_some : ∀ {rs rs' : List Record},
    insertInto haveType name ino typ requiredSize rs = .ok (some rs') →
      ∃ a r b, rs = a ++ r :: b ∧
        rs' = a ++ r.shrink r.entrySize :: r.newAfter haveType r.entrySize name ino typ :: b ∧
        requiredSize + r.entrySize ≤ r.recLen
  | [], _, h => by cases h
  | r :: rs, rs', h => by
    unfold insertInto at h
    split_ifs at h with hzero hover hfit
    · cases h
      exact ⟨[], r, rs, rfl, rfl, hfit⟩
    · cases hrest : insertInto haveType name ino typ requiredSize rs with
      | error p => rw [hrest] at h; cases h
      | ok o =>
        rw [hrest] at h
        cases o with
        | none => simp at h
        | some rs'' =>
          have hrs : r :: rs'' = rs' := by simpa using h
          subst hrs
          obtain ⟨a, s, b, rfl, rfl, hfit⟩ := insertInto_eq_some hrest
          exact ⟨r :: a, s, b, rfl, rfl, hfit⟩

/-- The block after the insertion is as long as before: the slot's two records share its bytes. -/
theorem length_blockOf_insert {a b : List Record} {r : Record}
    (hfit : r.entrySize + (8 + name.length) ≤ r.recLen) :
    (blockOf haveType (a ++ r.shrink r.entrySize :: r.newAfter haveType r.entrySize name ino typ :: b)).length =
      (blockOf haveType (a ++ r :: b)).length := by
  have hs := r.le_entrySize
  have hshrink := Record.recLen_shrink hs (le_trans (Nat.le_add_right _ _) hfit)
  have hnew := @Record.recLen_newAfter haveType r name ino typ r.entrySize hfit hs
  simp only [blockOf_append, blockOf_cons, List.length_append, Record.length_bytes, hshrink, hnew]
  omega

/-- The insertion keeps a block well formed: the split records are, and the new one, now perhaps
    the last, is longer than a header as its name is not empty. -/
theorem BlockWf.insert {a b : List Record} {r : Record} (hwf : BlockWf haveType (a ++ r :: b))
    (hino : ino < U32_LIMIT) (hname : 0 < name.length)
    (hreq : requiredSize = (name.length + 11) / 4 * 4) (hfit : requiredSize + r.entrySize ≤ r.recLen) :
    BlockWf haveType (a ++ r.shrink r.entrySize :: r.newAfter haveType r.entrySize name ino typ :: b) where
  records_wf := by
    have hr := hwf.records_wf r (by simp)
    intro x hx
    simp only [List.mem_append, List.mem_cons] at hx
    rcases hx with hx | rfl | rfl | hx
    · exact hwf.records_wf x (by simp [hx])
    · exact hr.shrink
    · exact hr.newAfter hino (by omega)
    · exact hwf.records_wf x (by simp [hx])
  last_recLen := by
    intro x hx
    cases b with
    | nil =>
      -- the new record is the last one
      have hlast : (a ++ [r.shrink r.entrySize, r.newAfter haveType r.entrySize name ino typ]).getLast? =
          some (r.newAfter haveType r.entrySize name ino typ) := by
        rw [List.getLast?_append_of_ne_nil _ (by simp)]
        rfl
      rw [hlast, Option.mem_some_iff] at hx
      subst hx
      rw [Record.recLen_newAfter (by omega) r.le_entrySize]
      omega
    | cons y ys =>
      apply hwf.last_recLen
      rw [List.getLast?_append_of_ne_nil _ (by simp)] at hx ⊢
      simpa [List.getLast?_cons_cons] using hx

end Insert

-- ---------------------------------------------------------------------------
-- The directory's blocks after a write of one of them
-- ---------------------------------------------------------------------------

/-- Writing a well-formed block of records over one of the directory's blocks: the others keep
    theirs. -/
theorem DirBlocks.overwrite {fs : Ext2Fs} {bs : Nat} {haveType : Bool} {addrs : List Nat}
    {records : Nat → List Record} {addr : Nat} {rs' : List Record}
    (hblocks : DirBlocks fs bs haveType addrs records) (haddr : addr ∈ addrs) (hwf : BlockWf haveType rs')
    (hlen : (blockOf haveType rs').length = (blockOf haveType (records addr)).length)
    (hne : blockOf haveType rs' ≠ []) :
    DirBlocks { fs with blockDevice := overwrite fs.blockDevice (addr * bs) (blockOf haveType rs') } bs
      haveType addrs (Function.update records addr rs') := by
  obtain ⟨hold, hfit⟩ := readAt_fits (hblocks.holds addr haddr) (by rwa [← List.length_pos_iff, ← hlen,
    List.length_pos_iff])
  have hfit' : addr * bs + (blockOf haveType rs').length ≤ fs.blockDevice.length := by omega
  refine ⟨hblocks.below, fun a ha => ?_, fun a ha => ?_⟩
  · by_cases hsame : a = addr
    · subst hsame
      rw [Function.update_self, readAt_of_le (by rw [length_overwrite hfit']; exact hfit)]
      have := slice_overwrite_self hfit'
      rw [hlen, hold] at this
      rw [this]
    · rw [Function.update_of_ne hsame, readAt_overwrite_of_disjoint hfit' (by
        have := @block_disjoint a addr bs hsame
        omega)]
      exact hblocks.holds a ha
  · by_cases hsame : a = addr
    · subst hsame
      rw [Function.update_self]
      exact hwf
    · rw [Function.update_of_ne hsame]
      exact hblocks.wf a ha

/-- The records of all blocks, with those of one block replaced: the blocks are distinct, so the
    others contribute theirs. -/
theorem flatMap_update {α : Type} {f : Nat → List α} {addrs : List Nat} {addr : Nat}
    (hnodup : addrs.Nodup) (haddr : addr ∈ addrs) (v : List α) :
    ∃ A B, addrs.flatMap f = A ++ f addr ++ B ∧ addrs.flatMap (Function.update f addr v) = A ++ v ++ B := by
  obtain ⟨s, t, rfl⟩ := List.append_of_mem haddr
  have hs : addr ∉ s := fun h => (List.nodup_middle.1 hnodup |> List.nodup_cons.1).1 (List.mem_append_left t h)
  have ht : addr ∉ t := fun h => (List.nodup_middle.1 hnodup |> List.nodup_cons.1).1 (List.mem_append_right s h)
  have hkeep : ∀ l : List Nat, addr ∉ l → l.flatMap (Function.update f addr v) = l.flatMap f := by
    intro l hl
    apply List.flatMap_congr
    intro x hx
    have hne : x ≠ addr := fun h => hl (h ▸ hx)
    exact Function.update_of_ne hne v f
  refine ⟨s.flatMap f, t.flatMap f, by simp, ?_⟩
  rw [List.flatMap_append, List.flatMap_cons, hkeep s hs, hkeep t ht, Function.update_self]
  simp

-- ---------------------------------------------------------------------------
-- `add_entry_to_dir` on a directory of well-formed blocks
-- ---------------------------------------------------------------------------

/-- A run of the loop over the blocks that returns `Ok`: the first block with room got the new
    entry, written back with the records `insertInto` made of its own. By induction on the blocks. -/
theorem addToBlocks_run_ok {fs fs' : Ext2Fs} {bs : Nat} {haveType : Bool} {records : Nat → List Record}
    {name : List Nat} {ino : Nat} {typ : Fin 8} {requiredSize : Nat}
    (hbs : fs.superblock.blockSize? = some bs) (hreq : requiredSize = (name.length + 11) / 4 * 4)
    (hlen : name.length + 11 < 2 ^ 16) :
    ∀ {addrs : List Nat}, DirBlocks fs bs haveType addrs records →
      (addToBlocks haveType bs name ino typ requiredSize addrs).run fs = .ok (some ()) fs' →
      ∃ addr ∈ addrs, ∃ rs', insertInto haveType name ino typ requiredSize (records addr) = .ok (some rs') ∧
        fs' = { fs with blockDevice := overwrite fs.blockDevice (addr * bs) (blockOf haveType rs') }
  | [], _, h => by cases h
  | addr :: addrs, hblocks, h => by
    have hmem : addr ∈ addr :: addrs := List.mem_cons_self
    have hread := readBlock_run_of_readAt hbs (hblocks.below addr hmem) (hblocks.holds addr hmem)
    have hfuel : (records addr).length < (blockOf haveType (records addr)).length + 1 := by
      have := @length_le_length_blockOf haveType (records addr)
      omega
    have hslot := @slotFrom_blockOf haveType name ino typ requiredSize [] rfl (records addr)
      (hblocks.wf addr hmem) hreq hlen _ hfuel
    simp only [List.nil_append, List.length_nil] at hslot
    unfold addToBlocks at h
    rw [run_bind_of_run_ok hread] at h
    cases hins : insertInto haveType name ino typ requiredSize (records addr) with
    | error p =>
      rw [hins] at hslot
      simp only [hslot] at h
      cases h
    | ok o =>
      cases o with
      | none =>
        -- no room in this block: the loop goes on to the next one
        rw [hins] at hslot
        simp only [hslot] at h
        obtain ⟨a, ha, rs', hrs', rfl⟩ := addToBlocks_run_ok hbs hreq hlen hblocks.tail h
        exact ⟨a, List.mem_cons_of_mem addr ha, rs', hrs', rfl⟩
      | some rs' =>
        rw [hins] at hslot
        have hslot' := hslot.trans (rfl : _ = Except.ok (some (some (blockOf haveType rs'))))
        simp only [hslot'] at h
        refine ⟨addr, hmem, rs', hins, ?_⟩
        obtain ⟨a, r, b, hrs, rfl, hfit⟩ := insertInto_eq_some hins
        have hlenb := @length_blockOf_insert haveType name ino typ a b r
          (by rw [Record.entrySize] at hfit ⊢; omega)
        rw [← hrs] at hlenb
        have hne : blockOf haveType (a ++ r.shrink r.entrySize :: r.newAfter haveType r.entrySize name ino typ :: b) ≠ [] := by
          simp
        have hw := writeBlock_run_of_writeAt hbs (hblocks.below addr hmem)
          (writeAt_of_readAt_length (hblocks.holds addr hmem) hlenb hne)
        rw [run_bind_of_run_ok hw] at h
        cases h
        rfl

/-- A call of `add_entry_to_dir` on a directory of well-formed blocks that returns `Ok`: `list_dir`
    returned, so no record is unused, the size of the new entry fitted a `u16`, and the first block
    with room got the new entry. -/
theorem addEntryToDir_run_ok {fs fs' : Ext2Fs} {bs : Nat} {dir : Inode} {records : Nat → List Record}
    {name : List Nat} {ino : Nat} {typ : Fin 8}
    (hdir : dir.isDirectory = true) (hbs : fs.superblock.blockSize? = some bs)
    (hblocks : DirBlocks fs bs fs.superblock.dirEntriesHaveType (dir.directPtrs.filterMap id) records)
    (hlen : name.length < 2 ^ 16) (hok : (addEntryToDir dir name ino typ).run fs = .ok (some ()) fs') :
    (∀ r ∈ (dir.directPtrs.filterMap id).flatMap records, r.inode ≠ 0) ∧ name.length + 11 < 2 ^ 16 ∧
      ∃ addr ∈ dir.directPtrs.filterMap id, ∃ rs',
        insertInto fs.superblock.dirEntriesHaveType name ino typ ((name.length + 11) / 4 * 4) (records addr) =
          .ok (some rs') ∧
        fs' = { fs with
          blockDevice := overwrite fs.blockDevice (addr * bs) (blockOf fs.superblock.dirEntriesHaveType rs') } := by
  unfold addEntryToDir at hok
  -- `list_dir` runs first: in blocks of fewer than 8 bytes its `block_size - 8` underflows
  by_cases h8 : dir.directPtrs.filterMap id ≠ [] → 8 ≤ bs
  swap
  · push Not at h8
    obtain ⟨hne, hlt⟩ := h8
    rw [run_bind_of_run_error (findEntry_run_error (listDir_run_short hdir hbs hblocks hne hlt))] at hok
    cases hok
  have hlist := listDir_run hdir hbs hblocks h8
  by_cases hused : ∀ r ∈ (dir.directPtrs.filterMap id).flatMap records, r.inode ≠ 0
  swap
  · -- an unused record: `list_dir` panics, and so does the call
    push Not at hused
    rw [entriesOf_of_exists hused] at hlist
    rw [run_bind_of_run_error (findEntry_run_error hlist)] at hok
    cases hok
  refine ⟨hused, ?_⟩
  rw [entriesOf_of_forall hused] at hlist
  rw [run_bind_of_run_ok (findEntry_run_ok hlist)] at hok
  simp only [Option.map_some] at hok
  cases hfind : (((dir.directPtrs.filterMap id).flatMap records).map
      (Record.entry fs.superblock.dirEntriesHaveType)).find? (·.nameBytes == name) with
  | some e =>
    -- an entry has the name: `EntryExists`
    rw [hfind] at hok
    cases hok
  | none =>
    rw [hfind] at hok
    simp only at hok
    rw [run_bind_of_run_ok (blockSize_run hbs), run_get_bind, Nat.mod_eq_of_lt hlen] at hok
    by_cases hsize : name.length + 11 < 2 ^ 16
    · have hreq : (liftPanic (DirEntry.size name.length)).run fs = .ok ((name.length + 11) / 4 * 4) fs := by
        rw [DirEntry.size_of_lt hsize]
        rfl
      rw [run_bind_of_run_ok hreq] at hok
      obtain ⟨addr, haddr, rs', hins, rfl⟩ := addToBlocks_run_ok hbs rfl hsize hblocks hok
      exact ⟨hsize, addr, haddr, rs', hins, rfl⟩
    · -- the size of the new entry overflows a `u16`
      have hreq : (liftPanic (DirEntry.size name.length)).run fs =
          .error (.panic ⟨"attempt to add with overflow"⟩) fs := by
        rw [DirEntry.size_of_le (by omega)]
        rfl
      rw [run_bind_of_run_error hreq] at hok
      cases hok

theorem listDir_after_addEntryToDir {fs fs' : Ext2Fs} {bs : Nat} {dir : Inode}
    {records : Nat → List Record} {name : List Nat} {ino : Nat} {typ : Fin 8}
    (hdir : dir.isDirectory = true) (hbs : fs.superblock.blockSize? = some bs)
    (hblocks : DirBlocks fs bs fs.superblock.dirEntriesHaveType (dir.directPtrs.filterMap id) records)
    (hnodup : (dir.directPtrs.filterMap id).Nodup) (hname : 0 < name.length) (hlen : name.length < 2 ^ 16)
    (hino : 0 < ino) (hino' : ino < U32_LIMIT)
    (hok : (addEntryToDir dir name ino typ).run fs = .ok (some ()) fs') :
    ∃ es es' before after, (listDir dir).run fs = .ok (some es) fs ∧
      (listDir dir).run fs' = .ok (some es') fs' ∧ es.map DirEntry.view = before ++ after ∧
      es'.map DirEntry.view = before ++
        (ino, name.take (storedNameLength fs.superblock.dirEntriesHaveType name.length),
          if fs.superblock.dirEntriesHaveType then some typ else none) :: after := by
  obtain ⟨hused, -, addr, haddr, rs', hins, rfl⟩ := addEntryToDir_run_ok hdir hbs hblocks hlen hok
  obtain ⟨a, r, b, hrs, rfl, hfit⟩ := insertInto_eq_some hins
  have hr0 : r.inode ≠ 0 := hused r (List.mem_flatMap.2 ⟨addr, haddr, by rw [hrs]; simp⟩)
  have hfit' : r.entrySize + (8 + name.length) ≤ r.recLen := by
    rw [Record.entrySize] at hfit ⊢
    omega
  have hwf' := @BlockWf.insert fs.superblock.dirEntriesHaveType name ino typ _ a b r
    (hrs ▸ hblocks.wf addr haddr) hino' hname rfl hfit
  have hblocks' := hblocks.overwrite haddr hwf' (by rw [hrs]; exact length_blockOf_insert hfit') (by simp)
  -- after the write, no record is unused either: the split keeps the slot's inode
  have hused' : ∀ x ∈ dir.directPtrs.filterMap id, ∀ y ∈ Function.update records addr
      (a ++ r.shrink r.entrySize :: r.newAfter fs.superblock.dirEntriesHaveType r.entrySize name ino typ :: b) x,
      y.inode ≠ 0 := by
    intro x hx y hy
    by_cases hxa : x = addr
    · subst hxa
      rw [Function.update_self] at hy
      simp only [List.mem_append, List.mem_cons] at hy
      rcases hy with hy | rfl | rfl | hy
      · exact hused y (List.mem_flatMap.2 ⟨x, hx, by rw [hrs]; simp [hy]⟩)
      · exact hr0
      · exact Nat.pos_iff_ne_zero.1 hino
      · exact hused y (List.mem_flatMap.2 ⟨x, hx, by rw [hrs]; simp [hy]⟩)
    · rw [Function.update_of_ne hxa] at hy
      exact hused y (List.mem_flatMap.2 ⟨x, hx, hy⟩)
  have h8 : dir.directPtrs.filterMap id ≠ [] → 8 ≤ bs := fun _ => hblocks.eight_le haddr (r := r) (by rw [hrs]; simp)
  obtain ⟨A, B, hbefore, hafter⟩ := flatMap_update (f := records) hnodup haddr
    (a ++ r.shrink r.entrySize :: r.newAfter fs.superblock.dirEntriesHaveType r.entrySize name ino typ :: b)
  refine ⟨_, _, (A ++ a ++ [r]).map (DirEntry.view ∘ Record.entry fs.superblock.dirEntriesHaveType),
    (b ++ B).map (DirEntry.view ∘ Record.entry fs.superblock.dirEntriesHaveType),
    listDir_run_of_forall hdir hbs hblocks (fun x hx y hy => hused y (List.mem_flatMap.2 ⟨x, hx, hy⟩)) h8,
    listDir_run_of_forall hdir hbs hblocks' hused' h8, ?_, ?_⟩
  · rw [hbefore, hrs]
    simp
  · rw [hafter]
    simp

/-- A name of 256 bytes. -/
def longName : List Nat := List.replicate 256 97

/-- `.` in the root directory of an image with typed entries. -/
def dotRecord : Record := ⟨2, 2, [46], [0, 0, 0]⟩

/-- `..`, up to the end of the block. -/
def dotDotRecord : Record := ⟨2, 2, [46, 46], List.replicate 1002 0⟩

/-- `smallImage` with typed directory entries, whose root directory's block holds `.` and `..`. -/
def typedImage : List Nat :=
  overwrite (writeLE smallImage (1024 + 96) 4 2) (6 * 1024) (blockOf true [dotRecord, dotDotRecord])

/-- The file system `try_new` builds on `typedImage`. -/
def typedFs : Ext2Fs := ⟨typedImage, Superblock.ofArray (slice typedImage 1024 1024), smallFs.bgdt⟩

set_option maxRecDepth 100000 in
theorem typedRoot_long_name_read_back_empty :
    ∃ fs' es es' before after, (addEntryToDir smallRoot longName 5 1).run typedFs = .ok (some ()) fs' ∧
      (listDir smallRoot).run typedFs = .ok (some es) typedFs ∧
      (listDir smallRoot).run fs' = .ok (some es') fs' ∧ es.map DirEntry.view = before ++ after ∧
      es'.map DirEntry.view = before ++ (5, [], some 1) :: after := by
  have hblocks : DirBlocks typedFs 1024 typedFs.superblock.dirEntriesHaveType
      (smallRoot.directPtrs.filterMap id) (fun _ => [dotRecord, dotDotRecord]) := by
    rw [smallRoot_blocks]
    refine ⟨fun addr haddr => ?_, fun addr haddr => ?_, fun _ _ => ⟨fun r hr => ?_, fun r hr => ?_⟩⟩
    · rw [List.mem_singleton.1 haddr]
      decide
    · rw [List.mem_singleton.1 haddr]
      rfl
    · simp only [List.mem_cons, List.not_mem_nil, or_false] at hr
      rcases hr with rfl | rfl <;> exact ⟨by decide, by decide, by decide, fun _ => by decide⟩
    · rw [Option.mem_def] at hr
      cases hr
      decide
  obtain ⟨fs', hok⟩ : ∃ fs', (addEntryToDir smallRoot longName 5 1).run typedFs = .ok (some ()) fs' :=
    ⟨_, rfl⟩
  obtain ⟨es, es', before, after, h₁, h₂, h₃, h₄⟩ := listDir_after_addEntryToDir rfl rfl hblocks
    (by rw [smallRoot_blocks]; exact List.nodup_singleton 6) (by decide) (by decide) (by decide) (by decide) hok
  exact ⟨fs', es, es', before, after, hok, h₁, h₂, h₃, h₄⟩

end Muffin.Ext2
