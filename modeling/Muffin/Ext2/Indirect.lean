-- SUMMARY: The cache of indirect blocks of `kernel_ext2`: `IndirectCache` in its most-recently-used order, the `resolve_*` functions through it and `write_block`, proved to refine the resolution without a cache while every table in the cache is its block's; ext2's block mapping, which `resolve_block_index` computes; and the stale table that a write of two blocks leaves behind.
import Muffin.Ext2.File

/-!
# The cache of indirect blocks

`resolve_indirect_ptr` keeps the pointer tables of the last four indirect
blocks it read in an `IndirectCache`, the most recently used first, and
answers from a table there before it reads the device. `write_block` drops the
table of the block it writes.

A table is right as long as it is the pointer table of its block as the device
holds it now; `Coherent` says this of every table in the cache. While it
holds, each `resolve_*` through the cache ends as the one without a cache does
and keeps the cache coherent, and so does a `write_block` of at most one block
(`CacheCall.run_refines`). From the empty cache of a new file system, every
run of such calls therefore leaves `resolve_block_index` computing ext2's
mapping of the device as it is then (`blockMap`).

`write_block` writes all the bytes it is given, from the start of its block
on, and drops that one block's table. A write of two blocks changes the next
block behind the cache, and a later resolution still answers from its old
table.
-/

namespace Muffin.Ext2

open Rust Bytes EStateM

-- ---------------------------------------------------------------------------
-- `IndirectCache`
-- ---------------------------------------------------------------------------

/-- `INDIRECT_CACHE_CAPACITY`. -/
def INDIRECT_CACHE_CAPACITY : Nat := 4

/-- `IndirectCache`: block addresses with the pointer tables read from them, the most recently
    used first. -/
structure IndirectCache where
  entries : List (Nat × List (Option Nat))
  deriving DecidableEq, Repr

namespace IndirectCache

/-- `IndirectCache::new`. -/
def new : IndirectCache := ⟨[]⟩

/-- `IndirectCache::lookup`: entry `index` of the table of block `addr`, if the cache has that
    table and the table that entry; the table moves to the front either way. -/
def lookup (cache : IndirectCache) (addr index : Nat) : Option (Option Nat) × IndirectCache :=
  match cache.entries.findIdx? (·.1 == addr) with
  | none => (none, cache)
  | some pos =>
    let entries := (cache.entries.take (pos + 1)).rotateRight 1 ++ cache.entries.drop (pos + 1)
    (entries.head?.bind fun e => e.2[index]?, ⟨entries⟩)

/-- `IndirectCache::insert`: the table goes to the front, and the last one out if the cache is
    full. -/
def insert (cache : IndirectCache) (addr : Nat) (table : List (Option Nat)) : IndirectCache :=
  let entries :=
    if cache.entries.length = INDIRECT_CACHE_CAPACITY then cache.entries.dropLast else cache.entries
  ⟨(addr, table) :: entries⟩

/-- `IndirectCache::invalidate`. -/
def invalidate (cache : IndirectCache) (addr : Nat) : IndirectCache :=
  ⟨cache.entries.filter (·.1 != addr)⟩

/-- `lookup` only reorders the tables. -/
theorem mem_lookup {cache : IndirectCache} {addr index : Nat} {e : Nat × List (Option Nat)}
    (h : e ∈ (cache.lookup addr index).2.entries) : e ∈ cache.entries := by
  unfold lookup at h
  split at h
  · exact h
  · rename_i pos hpos
    obtain ⟨hlt, -, -⟩ := List.findIdx?_eq_some_iff_getElem.1 hpos
    rw [rotateRight_take_succ hlt] at h
    simp only [List.cons_append, List.mem_cons, List.mem_append] at h
    rcases h with rfl | h | h
    · exact List.getElem_mem hlt
    · exact List.mem_of_mem_take h
    · exact List.mem_of_mem_drop h

/-- What `lookup` answers comes from a table of that block in the cache. -/
theorem lookup_eq_some {cache : IndirectCache} {addr index : Nat} {entry : Option Nat}
    (h : (cache.lookup addr index).1 = some entry) :
    ∃ table, (addr, table) ∈ cache.entries ∧ table[index]? = some entry := by
  unfold lookup at h
  split at h
  · cases h
  · rename_i pos hpos
    obtain ⟨hlt, hkey, -⟩ := List.findIdx?_eq_some_iff_getElem.1 hpos
    rw [rotateRight_take_succ hlt] at h
    simp only [List.cons_append, List.head?_cons, Option.bind_some] at h
    refine ⟨cache.entries[pos].2, ?_, h⟩
    have hfst : cache.entries[pos].1 = addr := by simpa using hkey
    rw [← hfst]
    exact List.getElem_mem hlt

theorem mem_insert {cache : IndirectCache} {addr : Nat} {table : List (Option Nat)}
    {e : Nat × List (Option Nat)} (h : e ∈ (cache.insert addr table).entries) :
    e = (addr, table) ∨ e ∈ cache.entries := by
  unfold insert at h
  rcases List.mem_cons.1 h with rfl | h
  · exact .inl rfl
  · split_ifs at h
    · exact .inr (List.dropLast_subset _ h)
    · exact .inr h

theorem mem_invalidate {cache : IndirectCache} {addr : Nat} {e : Nat × List (Option Nat)}
    (h : e ∈ (cache.invalidate addr).entries) : e ∈ cache.entries ∧ e.1 ≠ addr := by
  obtain ⟨hmem, hne⟩ := List.mem_filter.1 h
  exact ⟨hmem, by simpa using hne⟩

end IndirectCache

-- ---------------------------------------------------------------------------
-- The file system with its cache
-- ---------------------------------------------------------------------------

/-- `Ext2Fs` with its `indirect_cache`. -/
structure CachedFs where
  fs : Ext2Fs
  cache : IndirectCache

/-- A call into the crate that goes through the cache. -/
abbrev CachedM := EStateM Exit CachedFs

namespace CachedFs

/-- A call that does not touch the cache. -/
def lift {α : Type} (x : FsM α) : CachedM α := focus CachedFs.fs (fun s fs => { s with fs }) x

theorem lift_run_ok {α : Type} {x : FsM α} {s : CachedFs} {a : α} {fs : Ext2Fs}
    (h : x.run s.fs = .ok a fs) : (lift x).run s = .ok a { s with fs } :=
  run_focus_ok h

theorem lift_run_error {α : Type} {x : FsM α} {s : CachedFs} {e : Exit} {fs : Ext2Fs}
    (h : x.run s.fs = .error e fs) : (lift x).run s = .error e { s with fs } :=
  run_focus_error h

/-- `resolve_indirect_ptr`: a table in the cache answers for its block; otherwise the block is
    read, and its table goes into the cache once the entry is found in it. -/
def resolveIndirectPtr (ptr : Option Nat) (index : Nat) : CachedM (Option Nat) := do
  let some ptr := ptr | pure none
  let (cached, cache) := (← get).cache.lookup ptr index
  modify fun s => { s with cache }
  match cached with
  | some entry => pure entry
  | none =>
    let data ← lift (readBlock ptr (← lift blockSize))
    let table := pointerTable data
    match table[index]? with
    | some entry =>
      modify fun s => { s with cache := s.cache.insert ptr table }
      pure entry
    | none => throw (.error (.invalidBlockIndex index))

/-- `resolve_double_indirect_ptr`. -/
def resolveDoubleIndirectPtr (ptr : Option Nat) (index : Nat) : CachedM (Option Nat) := do
  let perBlock := (← lift blockSize) / 4
  if perBlock = 0 then
    throw (.panic ⟨"attempt to divide by zero"⟩)
  else
    let single ← resolveIndirectPtr ptr (index / perBlock)
    resolveIndirectPtr single (index % perBlock)

/-- `resolve_triple_indirect_ptr`. -/
def resolveTripleIndirectPtr (ptr : Option Nat) (index : Nat) : CachedM (Option Nat) := do
  let perBlock := (← lift blockSize) / 4
  let perDouble ← lift (checkedU32 (perBlock * perBlock) "attempt to multiply with overflow")
  if perDouble = 0 then
    throw (.panic ⟨"attempt to divide by zero"⟩)
  else
    let double ← resolveIndirectPtr ptr (index / perDouble)
    resolveDoubleIndirectPtr double (index % perDouble)

/-- `resolve_block_index`. -/
def resolveBlockIndex (inode : Inode) (index : Nat) : CachedM (Option Nat) := do
  let (direct, indirect, doubleIndirect) ← lift indirectPointerLimits
  if index < direct then
    pure (inode.directPtrs[index]?).join
  else if index < indirect then
    resolveIndirectPtr (nonZero inode.singlyIndirectBlockPtr) (index - direct)
  else if index < doubleIndirect then
    resolveDoubleIndirectPtr (nonZero inode.doublyIndirectBlockPtr) (index - indirect)
  else
    let perBlock := (← lift blockSize) / 4
    if doubleIndirect + perBlock * perBlock * perBlock ≤ index then
      throw (.error (.invalidBlockIndex index))
    else
      resolveTripleIndirectPtr (nonZero inode.triplyIndirectBlockPtr) (index - doubleIndirect)

/-- `Ext2Fs::write_block`: the cache forgets block `addr`, and the bytes are written from the
    start of that block on. -/
def writeBlock (addr : Nat) (bytes : List Nat) : CachedM Unit := do
  modify fun s => { s with cache := s.cache.invalidate addr }
  lift (Muffin.Ext2.writeBlock addr bytes)

end CachedFs


-- ---------------------------------------------------------------------------
-- Resolution without a cache
-- ---------------------------------------------------------------------------

/-- `resolve_indirect_ptr` without a cache, once the block has been read: the entry, or the
    error of an index past the table. -/
theorem resolveIndirectPtr_run_of_readBlock {fs : Ext2Fs} {bs a index : Nat} {data : List Nat}
    (hbs : fs.superblock.blockSize? = some bs) (hread : (readBlock a bs).run fs = .ok data fs) :
    (resolveIndirectPtr (some a) index).run fs =
      match (pointerTable data)[index]? with
      | some entry => .ok entry fs
      | none => .error (.error (.invalidBlockIndex index)) fs := by
  unfold resolveIndirectPtr
  dsimp only
  rw [run_bind_of_run_ok (blockSize_run hbs), run_bind_of_run_ok hread]
  cases (pointerTable data)[index]? <;> rfl

/-- `resolve_indirect_ptr` without a cache, where the block cannot be read. -/
theorem resolveIndirectPtr_run_of_readBlock_error {fs : Ext2Fs} {bs a index : Nat} {e : Exit}
    (hbs : fs.superblock.blockSize? = some bs) (hread : (readBlock a bs).run fs = .error e fs) :
    (resolveIndirectPtr (some a) index).run fs = .error e fs := by
  unfold resolveIndirectPtr
  dsimp only
  rw [run_bind_of_run_ok (blockSize_run hbs), run_bind_of_run_error hread]

/-- `read_block` of a whole block either returns its bytes as the device holds them, or fails
    and changes nothing. -/
theorem readBlock_run_cases {fs : Ext2Fs} {bs : Nat} (hbs : fs.superblock.blockSize? = some bs)
    (a : Nat) :
    (a * bs < U32_LIMIT ∧ ∃ data, readAt fs.blockDevice (a * bs) bs = some data ∧
        (readBlock a bs).run fs = .ok data fs) ∨
      ∃ e, (readBlock a bs).run fs = .error e fs := by
  cases hrun : (readBlock a bs).run fs with
  | error e fs' =>
    obtain rfl := (readBlock_moves a bs).of_run_error hrun
    exact .inr ⟨e, rfl⟩
  | ok data fs' =>
    obtain rfl := (readBlock_moves a bs).of_run_ok hrun
    obtain ⟨off, fs₁, hoff, hdev⟩ := run_bind_eq_ok hrun
    obtain rfl := (resolveBlockOffset_moves a).of_run_ok hoff
    rw [resolveBlockOffset_run hbs] at hoff
    split_ifs at hoff with hlt
    · cases hoff
      rw [deviceRead_run] at hdev
      split at hdev
      next bytes hbytes =>
        cases hdev
        exact .inl ⟨hlt, data, hbytes, rfl⟩
      next => cases hdev

/-- A `write_block` that returned wrote its bytes from the start of its block on. -/
theorem writeBlock_run_eq_ok {fs fs' : Ext2Fs} {bs addr : Nat} {bytes : List Nat} {u : Unit}
    (hbs : fs.superblock.blockSize? = some bs) (h : (writeBlock addr bytes).run fs = .ok u fs') :
    ∃ device, writeAt fs.blockDevice (addr * bs) bytes = some device ∧
      fs' = { fs with blockDevice := device } := by
  unfold writeBlock at h
  obtain ⟨off, fs₁, hoff, hwrite⟩ := run_bind_eq_ok h
  rw [resolveBlockOffset_run hbs] at hoff
  split_ifs at hoff
  · cases hoff
    rw [deviceWrite_run] at hwrite
    split at hwrite
    next device hdevice =>
      cases hwrite
      exact ⟨device, hdevice, rfl⟩
    next => cases hwrite

/-- A `write_block` that failed changed nothing. -/
theorem writeBlock_run_eq_error {fs fs' : Ext2Fs} {bs addr : Nat} {bytes : List Nat} {e : Exit}
    (hbs : fs.superblock.blockSize? = some bs) (h : (writeBlock addr bytes).run fs = .error e fs') :
    fs' = fs := by
  unfold writeBlock at h
  rcases run_bind_eq_error h with hoff | ⟨off, fs₁, hoff, hwrite⟩
  · exact ((resolveBlockOffset_moves addr).of_run_error hoff).symm
  · rw [resolveBlockOffset_run hbs] at hoff
    split_ifs at hoff
    · cases hoff
      rw [deviceWrite_run] at hwrite
      split at hwrite
      · cases hwrite
      · cases hwrite
        rfl

theorem indirectPointerLimits_moves : Moves (· = ·) indirectPointerLimits :=
  blockSize_moves.bind fun _ => (checkedU32_moves _ _).bind fun _ =>
    (checkedU32_moves _ _).bind fun _ => (checkedU32_moves _ _).bind fun _ => Moves.pure _

-- ---------------------------------------------------------------------------
-- Coherence
-- ---------------------------------------------------------------------------

namespace CachedFs

/-- The cache agrees with the device, for blocks of `bs` bytes: every table in it is the pointer
    table of its block as the device holds it now. -/
structure Coherent (bs : Nat) (s : CachedFs) : Prop where
  blockSize : s.fs.superblock.blockSize? = some bs
  tables : ∀ e ∈ s.cache.entries, e.1 * bs < U32_LIMIT ∧
    ∃ data, readAt s.fs.blockDevice (e.1 * bs) bs = some data ∧ pointerTable data = e.2

/-- A file system with its cache, and the same file system without one: the cache agrees with
    the device. -/
def Agrees (bs : Nat) (s : CachedFs) (fs : Ext2Fs) : Prop := s.fs = fs ∧ s.Coherent bs

/-- Fewer tables, or the same ones in another order, stay coherent. -/
theorem Coherent.of_subset {bs : Nat} {s : CachedFs} (h : s.Coherent bs) {cache : IndirectCache}
    (hsub : ∀ e ∈ cache.entries, e ∈ s.cache.entries) : Coherent bs { s with cache } :=
  ⟨h.blockSize, fun e he => h.tables e (hsub e he)⟩

/-- A call that does not touch the cache and reads only refines itself. -/
theorem lift_refines {bs : Nat} {α : Type} {y : FsM α} (hy : Moves (· = ·) y) :
    Refines (Agrees bs) (lift y) y := by
  rintro s _ ⟨rfl, hcoh⟩
  cases hrun : y.run s.fs with
  | ok a fs' =>
    obtain rfl := hy.of_run_ok hrun
    rw [lift_run_ok hrun]
    exact ⟨rfl, rfl, hcoh⟩
  | error e fs' =>
    obtain rfl := hy.of_run_error hrun
    rw [lift_run_error hrun]
    exact ⟨rfl, rfl, hcoh⟩


/-- A table just read from its block is coherent with the device. -/
theorem Coherent.insert {bs a : Nat} {s : CachedFs} (h : s.Coherent bs) {data : List Nat}
    (hlt : a * bs < U32_LIMIT) (hread : readAt s.fs.blockDevice (a * bs) bs = some data) :
    Coherent bs { s with cache := s.cache.insert a (pointerTable data) } := by
  refine ⟨h.blockSize, fun e he => ?_⟩
  rcases IndirectCache.mem_insert he with rfl | he
  · exact ⟨hlt, data, hread, rfl⟩
  · exact h.tables e he

/-- `resolve_indirect_ptr` through a coherent cache ends as it does without one, and keeps the
    cache coherent: a table the cache answers from is the one the read would find, and a table
    it adds has just been read. -/
theorem resolveIndirectPtr_refines {bs : Nat} (ptr : Option Nat) (index : Nat) :
    Refines (Agrees bs) (resolveIndirectPtr ptr index)
      (Muffin.Ext2.resolveIndirectPtr ptr index) := by
  rintro s _ ⟨rfl, hcoh⟩
  cases ptr with
  | none => exact ⟨rfl, rfl, hcoh⟩
  | some a =>
    rcases hlook : s.cache.lookup a index with ⟨cached, cache⟩
    have hcoh₁ : Coherent bs { s with cache } :=
      hcoh.of_subset fun e he => IndirectCache.mem_lookup (by rw [hlook]; exact he)
    unfold resolveIndirectPtr
    dsimp only
    rw [run_get_bind, hlook]
    dsimp only
    rw [run_modify_bind]
    have hbs := hcoh.blockSize
    cases cached with
    | some entry =>
      -- a hit: the table is its block's, where the read without a cache finds the same entry
      obtain ⟨table, hmem, hentry⟩ := IndirectCache.lookup_eq_some (by rw [hlook])
      obtain ⟨hlt, data, hread, rfl⟩ := hcoh.tables _ hmem
      rw [resolveIndirectPtr_run_of_readBlock hbs (readBlock_run_of_readAt hbs hlt hread), hentry]
      exact ⟨rfl, rfl, hcoh₁⟩
    | none =>
      -- a miss: both read the block
      dsimp only
      rw [run_bind_of_run_ok (lift_run_ok (s := { s with cache }) (blockSize_run hbs))]
      rcases readBlock_run_cases hbs a with ⟨hlt, data, hread, hblock⟩ | ⟨e, hblock⟩
      · rw [run_bind_of_run_ok (lift_run_ok (s := { s with cache }) hblock),
          resolveIndirectPtr_run_of_readBlock hbs hblock]
        cases hentry : (pointerTable data)[index]? with
        | some entry => exact ⟨rfl, rfl, hcoh₁.insert hlt hread⟩
        | none => exact ⟨rfl, rfl, hcoh₁⟩
      · rw [run_bind_of_run_error (lift_run_error (s := { s with cache }) hblock),
          resolveIndirectPtr_run_of_readBlock_error hbs hblock]
        exact ⟨rfl, rfl, hcoh₁⟩


theorem resolveDoubleIndirectPtr_refines {bs : Nat} (ptr : Option Nat) (index : Nat) :
    Refines (Agrees bs) (resolveDoubleIndirectPtr ptr index)
      (Muffin.Ext2.resolveDoubleIndirectPtr ptr index) := by
  unfold resolveDoubleIndirectPtr Muffin.Ext2.resolveDoubleIndirectPtr
  refine (lift_refines blockSize_moves).bind fun n => ?_
  dsimp only
  split_ifs
  · exact Refines.throw _
  · exact (resolveIndirectPtr_refines ptr _).bind fun single => resolveIndirectPtr_refines single _

theorem resolveTripleIndirectPtr_refines {bs : Nat} (ptr : Option Nat) (index : Nat) :
    Refines (Agrees bs) (resolveTripleIndirectPtr ptr index)
      (Muffin.Ext2.resolveTripleIndirectPtr ptr index) := by
  unfold resolveTripleIndirectPtr Muffin.Ext2.resolveTripleIndirectPtr
  refine (lift_refines blockSize_moves).bind fun n => ?_
  dsimp only
  refine (lift_refines (checkedU32_moves _ _)).bind fun perDouble => ?_
  split_ifs
  · exact Refines.throw _
  · exact (resolveIndirectPtr_refines ptr _).bind fun double =>
      resolveDoubleIndirectPtr_refines double _

/-- `resolve_block_index` through a coherent cache ends as it does without one. -/
theorem resolveBlockIndex_refines {bs : Nat} (inode : Inode) (index : Nat) :
    Refines (Agrees bs) (resolveBlockIndex inode index)
      (Muffin.Ext2.resolveBlockIndex inode index) := by
  unfold resolveBlockIndex Muffin.Ext2.resolveBlockIndex
  refine (lift_refines indirectPointerLimits_moves).bind fun ⟨direct, indirect, doubleIndirect⟩ => ?_
  dsimp only
  split_ifs
  · exact Refines.pure _
  · exact resolveIndirectPtr_refines _ _
  · exact resolveDoubleIndirectPtr_refines _ _
  · refine (lift_refines blockSize_moves).bind fun n => ?_
    split_ifs
    · exact Refines.throw _
    · exact resolveTripleIndirectPtr_refines _ _


/-- `write_block` of at most one block keeps the cache coherent: it drops the table of the block
    it writes, and the tables of the other blocks are of bytes it does not touch. -/
theorem writeBlock_refines {bs addr : Nat} {bytes : List Nat} (hlen : bytes.length ≤ bs) :
    Refines (Agrees bs) (writeBlock addr bytes) (Muffin.Ext2.writeBlock addr bytes) := by
  rintro s _ ⟨rfl, hcoh⟩
  have hbs := hcoh.blockSize
  have hcoh₁ : Coherent bs { s with cache := s.cache.invalidate addr } :=
    hcoh.of_subset fun e he => (IndirectCache.mem_invalidate he).1
  unfold writeBlock
  rw [run_modify_bind]
  cases hrun : (Muffin.Ext2.writeBlock addr bytes).run s.fs with
  | ok u fs' =>
    rw [lift_run_ok (s := { s with cache := s.cache.invalidate addr }) hrun]
    obtain ⟨device, hwrite, rfl⟩ := writeBlock_run_eq_ok hbs hrun
    refine ⟨rfl, rfl, hbs, fun e he => ?_⟩
    obtain ⟨hmem, hne⟩ := IndirectCache.mem_invalidate he
    obtain ⟨hlt, data, hread, htable⟩ := hcoh.tables e hmem
    -- the block of a table that stays is one the write does not reach
    have hapart : e.1 * bs + bs ≤ addr * bs ∨ addr * bs + bytes.length ≤ e.1 * bs := by
      rcases block_disjoint hne with h | h
      · exact .inl h
      · exact .inr (by omega)
    exact ⟨hlt, data, (readAt_of_writeAt_of_disjoint hwrite hapart).trans hread, htable⟩
  | error e fs' =>
    obtain rfl := writeBlock_run_eq_error hbs hrun
    rw [lift_run_error (s := { s with cache := s.cache.invalidate addr }) hrun]
    exact ⟨rfl, rfl, hcoh₁⟩

end CachedFs


-- ---------------------------------------------------------------------------
-- ext2's block mapping
-- ---------------------------------------------------------------------------

/-- Entry `j` of the indirect block `ptr` as the device `dev` holds it, with blocks of `bs`
    bytes: the `j`-th little-endian `u32` of the block, zero being a hole, and a hole for a
    missing block. `none` when the block is past the device, or past the bytes a `u32` offset
    reaches. -/
def indirectEntry (dev : List Nat) (bs : Nat) : Option Nat → Nat → Option (Option Nat)
  | none, _ => some none
  | some a, j =>
    if a * bs < U32_LIMIT then (readAt dev (a * bs) bs).map fun data => nonZero (readLE data (4 * j) 4)
    else none

/-- How many blocks a file can have: twelve direct ones, and `p`, `p ^ 2` and `p ^ 3` through the
    indirect blocks of `p = bs / 4` pointers each. -/
def tripleLimit (bs : Nat) : Nat := 12 + bs / 4 + (bs / 4) ^ 2 + (bs / 4) ^ 3

/-- ext2's mapping from block `i` of the file with `inode` to a block of the device: a direct
    pointer, or the path through one, two or three levels of indirect blocks that the base-`p`
    digits of the index past the levels before it pick. `none` is an indirect block on the way
    that cannot be read. -/
def blockMap (dev : List Nat) (bs : Nat) (inode : Inode) (i : Nat) : Option (Option Nat) :=
  let p := bs / 4
  if i < 12 then some (inode.directPtrs[i]?).join
  else if i < 12 + p then indirectEntry dev bs (nonZero inode.singlyIndirectBlockPtr) (i - 12)
  else if i < 12 + p + p ^ 2 then
    let j := i - (12 + p)
    (indirectEntry dev bs (nonZero inode.doublyIndirectBlockPtr) (j / p)).bind fun single =>
      indirectEntry dev bs single (j % p)
  else
    let j := i - (12 + p + p ^ 2)
    (indirectEntry dev bs (nonZero inode.triplyIndirectBlockPtr) (j / p ^ 2)).bind fun double =>
      (indirectEntry dev bs double (j / p % p)).bind fun single => indirectEntry dev bs single (j % p)

theorem getElem?_pointerTable {data : List Nat} {j : Nat} (hj : j < data.length / 4) :
    (pointerTable data)[j]? = some (nonZero (readLE data (4 * j) 4)) := by
  simp [pointerTable, hj]

section Mapping

variable {fs : Ext2Fs} {bs : Nat}

/-- `resolve_indirect_ptr` without a cache reads the entry of the indirect block. -/
theorem resolveIndirectPtr_run_of_entry (hbs : fs.superblock.blockSize? = some bs) {ptr : Option Nat}
    {j : Nat} (hj : j < bs / 4) {entry : Option Nat}
    (h : indirectEntry fs.blockDevice bs ptr j = some entry) :
    (resolveIndirectPtr ptr j).run fs = .ok entry fs := by
  cases ptr with
  | none =>
    cases h
    rfl
  | some a =>
    rw [indirectEntry] at h
    split_ifs at h with hlt
    obtain ⟨data, hread, rfl⟩ := Option.map_eq_some_iff.1 h
    rw [resolveIndirectPtr_run_of_readBlock hbs (readBlock_run_of_readAt hbs hlt hread),
      getElem?_pointerTable (by rw [length_of_readAt hread]; exact hj)]

/-- `resolve_double_indirect_ptr` without a cache follows the entries that the two base-`p`
    digits of the index pick. -/
theorem resolveDoubleIndirectPtr_run_of_entries (hbs : fs.superblock.blockSize? = some bs)
    (hp : 0 < bs / 4) {ptr single : Option Nat} {j : Nat} (hj : j < bs / 4 * (bs / 4))
    {entry : Option Nat} (h₁ : indirectEntry fs.blockDevice bs ptr (j / (bs / 4)) = some single)
    (h₂ : indirectEntry fs.blockDevice bs single (j % (bs / 4)) = some entry) :
    (resolveDoubleIndirectPtr ptr j).run fs = .ok entry fs := by
  have hdiv : j / (bs / 4) < bs / 4 := Nat.div_lt_of_lt_mul hj
  unfold resolveDoubleIndirectPtr
  rw [run_bind_of_run_ok (blockSize_run hbs)]
  dsimp only
  rw [if_neg (Nat.pos_iff_ne_zero.1 hp), run_bind_of_run_ok (resolveIndirectPtr_run_of_entry hbs hdiv h₁)]
  exact resolveIndirectPtr_run_of_entry hbs (Nat.mod_lt _ hp) h₂

/-- `resolve_triple_indirect_ptr` without a cache follows the entries that the three base-`p`
    digits of the index pick. -/
theorem resolveTripleIndirectPtr_run_of_entries (hbs : fs.superblock.blockSize? = some bs)
    (hp : 0 < bs / 4) (hsq : bs / 4 * (bs / 4) < U32_LIMIT) {ptr double single : Option Nat}
    {j : Nat} (hj : j < bs / 4 * (bs / 4) * (bs / 4)) {entry : Option Nat}
    (h₁ : indirectEntry fs.blockDevice bs ptr (j / (bs / 4 * (bs / 4))) = some double)
    (h₂ : indirectEntry fs.blockDevice bs double (j / (bs / 4) % (bs / 4)) = some single)
    (h₃ : indirectEntry fs.blockDevice bs single (j % (bs / 4)) = some entry) :
    (resolveTripleIndirectPtr ptr j).run fs = .ok entry fs := by
  have hsq₀ : 0 < bs / 4 * (bs / 4) := Nat.mul_pos hp hp
  have hdiv : j / (bs / 4 * (bs / 4)) < bs / 4 := Nat.div_lt_of_lt_mul hj
  unfold resolveTripleIndirectPtr
  rw [run_bind_of_run_ok (blockSize_run hbs)]
  dsimp only
  rw [run_bind_of_run_ok (checkedU32_run_of_lt hsq), if_neg (Nat.pos_iff_ne_zero.1 hsq₀),
    run_bind_of_run_ok (resolveIndirectPtr_run_of_entry hbs hdiv h₁)]
  -- the double indirect block gets the two lower digits
  refine @resolveDoubleIndirectPtr_run_of_entries fs bs hbs hp double single _ (Nat.mod_lt _ hsq₀)
    entry ?_ ?_
  · rwa [Nat.mod_mul_right_div_self]
  · rwa [Nat.mod_mod_of_dvd _ (Nat.dvd_mul_right _ _)]

theorem indirectPointerLimits_run (hbs : fs.superblock.blockSize? = some bs)
    (hlim : 12 + bs / 4 + bs / 4 * (bs / 4) < U32_LIMIT) :
    indirectPointerLimits.run fs = .ok (12, 12 + bs / 4, 12 + bs / 4 + bs / 4 * (bs / 4)) fs := by
  unfold indirectPointerLimits
  rw [run_bind_of_run_ok (blockSize_run hbs)]
  dsimp only
  rw [run_bind_of_run_ok (checkedU32_run_of_lt (by omega)),
    run_bind_of_run_ok (checkedU32_run_of_lt (by omega)), run_bind_of_run_ok (checkedU32_run_of_lt hlim)]
  rfl

/-- `resolve_block_index` without a cache computes ext2's mapping, for a block size whose limits
    fit in a `u32` and a block that a file can have. -/
theorem resolveBlockIndex_run_of_blockMap (hbs : fs.superblock.blockSize? = some bs)
    (hlim : 12 + bs / 4 + bs / 4 * (bs / 4) < U32_LIMIT) (inode : Inode) {i : Nat}
    (hi : i < tripleLimit bs) {entry : Option Nat}
    (h : blockMap fs.blockDevice bs inode i = some entry) :
    (resolveBlockIndex inode i).run fs = .ok entry fs := by
  have hsq : (bs / 4) ^ 2 = bs / 4 * (bs / 4) := Nat.pow_two _
  have hcube : (bs / 4) ^ 3 = bs / 4 * (bs / 4) * (bs / 4) := by
    rw [Nat.pow_succ, hsq]
  unfold tripleLimit at hi
  unfold blockMap at h
  dsimp only at h
  rw [hsq] at h hi
  rw [hcube] at hi
  -- past the direct pointers there are indirect blocks only if a block holds a pointer
  have hp : 12 ≤ i → 0 < bs / 4 := fun h12 => Nat.pos_of_ne_zero fun h0 => by
    rw [h0] at hi
    omega
  unfold resolveBlockIndex
  rw [run_bind_of_run_ok (indirectPointerLimits_run hbs hlim)]
  dsimp only
  split_ifs at h ⊢ with hdirect hsingle hdouble
  · cases h
    rfl
  · exact resolveIndirectPtr_run_of_entry hbs (by omega) h
  · -- one level of indirection more: the two digits of the index past the single range
    obtain ⟨single, h₁, h₂⟩ := Option.bind_eq_some_iff.1 h
    exact resolveDoubleIndirectPtr_run_of_entries hbs (hp (by omega)) (by omega) h₁ h₂
  · obtain ⟨double, h₁, h⟩ := Option.bind_eq_some_iff.1 h
    obtain ⟨single, h₂, h₃⟩ := Option.bind_eq_some_iff.1 h
    rw [run_bind_of_run_ok (blockSize_run hbs), if_neg (by omega)]
    exact resolveTripleIndirectPtr_run_of_entries hbs (hp (by omega)) (by omega) (by omega) h₁ h₂ h₃

/-- `resolve_block_index` without a cache refuses a block that no file can have. -/
theorem resolveBlockIndex_run_of_le (hbs : fs.superblock.blockSize? = some bs)
    (hlim : 12 + bs / 4 + bs / 4 * (bs / 4) < U32_LIMIT) (inode : Inode) {i : Nat}
    (hi : tripleLimit bs ≤ i) :
    (resolveBlockIndex inode i).run fs = .error (.error (.invalidBlockIndex i)) fs := by
  have hcube : (bs / 4) ^ 3 = bs / 4 * (bs / 4) * (bs / 4) := by
    rw [Nat.pow_succ, Nat.pow_two]
  unfold tripleLimit at hi
  rw [Nat.pow_two, hcube] at hi
  unfold resolveBlockIndex
  rw [run_bind_of_run_ok (indirectPointerLimits_run hbs hlim)]
  dsimp only
  rw [if_neg (by omega), if_neg (by omega), if_neg (by omega),
    run_bind_of_run_ok (blockSize_run hbs), if_pos (by omega)]
  rfl

end Mapping


/-- `1024 << k` fits in a `u32` for `k ≤ 21`. -/
theorem Superblock.blockSize?_eq {sb : Superblock} (hk : sb.log2BlockSize ≤ 21) :
    sb.blockSize? = some (1024 * 2 ^ sb.log2BlockSize) := by
  have hle : 1024 * 2 ^ sb.log2BlockSize ≤ 1024 * 2 ^ 21 :=
    Nat.mul_le_mul_left _ (Nat.pow_le_pow_right (by decide) hk)
  unfold Superblock.blockSize?
  rw [if_pos (by omega), Nat.shiftLeft_eq, Nat.mod_eq_of_lt (by unfold U32_LIMIT; omega)]

/-- The limits of `indirect_pointer_limits` fit in a `u32` for block sizes up to 128 KiB. -/
theorem limits_lt {k : Nat} (hk : k ≤ 7) :
    12 + 1024 * 2 ^ k / 4 + 1024 * 2 ^ k / 4 * (1024 * 2 ^ k / 4) < U32_LIMIT := by
  have hp : 1024 * 2 ^ k / 4 ≤ 32768 := by
    have : 2 ^ k ≤ 2 ^ 7 := Nat.pow_le_pow_right (by decide) hk
    omega
  have hsq := Nat.mul_le_mul hp hp
  unfold U32_LIMIT
  omega

-- ---------------------------------------------------------------------------
-- Runs of calls
-- ---------------------------------------------------------------------------

/-- The calls on an `Ext2Fs` that use its cache: the four `resolve_*` and `write_block`. -/
inductive CacheCall
  | resolveIndirectPtr (ptr : Option Nat) (index : Nat)
  | resolveDoubleIndirectPtr (ptr : Option Nat) (index : Nat)
  | resolveTripleIndirectPtr (ptr : Option Nat) (index : Nat)
  | resolveBlockIndex (inode : Inode) (index : Nat)
  | writeBlock (addr : Nat) (bytes : List Nat)

namespace CacheCall

/-- The call through the cache, for what it does to the file system and the cache. -/
def run : CacheCall → CachedM Unit
  | .resolveIndirectPtr ptr index => CachedFs.resolveIndirectPtr ptr index >>= fun _ => pure ()
  | .resolveDoubleIndirectPtr ptr index =>
    CachedFs.resolveDoubleIndirectPtr ptr index >>= fun _ => pure ()
  | .resolveTripleIndirectPtr ptr index =>
    CachedFs.resolveTripleIndirectPtr ptr index >>= fun _ => pure ()
  | .resolveBlockIndex inode index => CachedFs.resolveBlockIndex inode index >>= fun _ => pure ()
  | .writeBlock addr bytes => CachedFs.writeBlock addr bytes

/-- The same call on the file system without a cache. -/
def runUncached : CacheCall → FsM Unit
  | .resolveIndirectPtr ptr index => Muffin.Ext2.resolveIndirectPtr ptr index >>= fun _ => pure ()
  | .resolveDoubleIndirectPtr ptr index =>
    Muffin.Ext2.resolveDoubleIndirectPtr ptr index >>= fun _ => pure ()
  | .resolveTripleIndirectPtr ptr index =>
    Muffin.Ext2.resolveTripleIndirectPtr ptr index >>= fun _ => pure ()
  | .resolveBlockIndex inode index =>
    Muffin.Ext2.resolveBlockIndex inode index >>= fun _ => pure ()
  | .writeBlock addr bytes => Muffin.Ext2.writeBlock addr bytes

/-- `write_block` is given at most one block of `bs` bytes, as every caller in the crate does. -/
def OneBlock (bs : Nat) : CacheCall → Prop
  | .writeBlock _ bytes => bytes.length ≤ bs
  | _ => True

/-- Each call through a coherent cache ends as it does without one. -/
theorem run_refines {bs : Nat} {c : CacheCall} (h : c.OneBlock bs) :
    Refines (CachedFs.Agrees bs) c.run c.runUncached := by
  cases c with
  | resolveIndirectPtr ptr index =>
    exact (CachedFs.resolveIndirectPtr_refines ptr index).bind fun _ => Refines.pure _
  | resolveDoubleIndirectPtr ptr index =>
    exact (CachedFs.resolveDoubleIndirectPtr_refines ptr index).bind fun _ => Refines.pure _
  | resolveTripleIndirectPtr ptr index =>
    exact (CachedFs.resolveTripleIndirectPtr_refines ptr index).bind fun _ => Refines.pure _
  | resolveBlockIndex inode index =>
    exact (CachedFs.resolveBlockIndex_refines inode index).bind fun _ => Refines.pure _
  | writeBlock addr bytes => exact CachedFs.writeBlock_refines h

/-- A call keeps the cache coherent, whether it returns or fails. -/
theorem coherent_run {bs : Nat} {c : CacheCall} (h : c.OneBlock bs) {s : CachedFs}
    (hs : s.Coherent bs) : (finalState c.run s).Coherent bs :=
  ((run_refines h).finalState ⟨rfl, hs⟩).2

end CacheCall

/-- The calls in turn, each from the state the one before ended in: a caller goes on after an
    `Err`, and the state a panic leaves is one no call starts from. -/
def runCalls (calls : List CacheCall) (s : CachedFs) : CachedFs :=
  calls.foldl (fun s c => finalState c.run s) s

/-- Every run of calls that write at most one block at a time keeps the cache coherent. -/
theorem coherent_runCalls {bs : Nat} :
    ∀ {calls : List CacheCall}, (∀ c ∈ calls, c.OneBlock bs) →
      ∀ {s : CachedFs}, s.Coherent bs → (runCalls calls s).Coherent bs
  | [], _, _, hs => hs
  | c :: _, h, _, hs =>
    coherent_runCalls (fun c' hc' => h c' (List.mem_cons_of_mem c hc'))
      (CacheCall.coherent_run (h c (List.mem_cons_self ..)) hs)

/-- `resolve_block_index` through the cache, after any run of `resolve_*` calls and of
    `write_block` calls of at most one block on a new file system with blocks of `1024 << k`
    bytes, `k ≤ 7`: ext2's mapping of the device as it is then, and `InvalidBlockIndex` past the
    blocks a file can have. -/
theorem resolveBlockIndex_after_calls {fs : Ext2Fs} {k : Nat} (hk : fs.superblock.log2BlockSize = k)
    (hk7 : k ≤ 7) {calls : List CacheCall} (hcalls : ∀ c ∈ calls, c.OneBlock (1024 * 2 ^ k))
    (inode : Inode) (i : Nat) :
    (∀ entry, i < tripleLimit (1024 * 2 ^ k) →
      blockMap (runCalls calls ⟨fs, .new⟩).fs.blockDevice (1024 * 2 ^ k) inode i = some entry →
        ∃ s, (CachedFs.resolveBlockIndex inode i).run (runCalls calls ⟨fs, .new⟩) = .ok entry s) ∧
      (tripleLimit (1024 * 2 ^ k) ≤ i →
        ∃ s, (CachedFs.resolveBlockIndex inode i).run (runCalls calls ⟨fs, .new⟩) =
          .error (.error (.invalidBlockIndex i)) s) := by
  have hbs : fs.superblock.blockSize? = some (1024 * 2 ^ k) := by
    rw [Superblock.blockSize?_eq (by omega), hk]
  -- a new file system has an empty cache, which every run keeps coherent
  have hcoh : (runCalls calls ⟨fs, .new⟩).Coherent (1024 * 2 ^ k) :=
    coherent_runCalls hcalls ⟨hbs, fun _ he => absurd he List.not_mem_nil⟩
  have hlim := limits_lt hk7
  constructor
  · intro entry hi hmap
    obtain ⟨s, hrun, -⟩ := (CachedFs.resolveBlockIndex_refines inode i).run_ok ⟨rfl, hcoh⟩
      (resolveBlockIndex_run_of_blockMap hcoh.blockSize hlim inode hi hmap)
    exact ⟨s, hrun⟩
  · intro hi
    obtain ⟨s, hrun, -⟩ := (CachedFs.resolveBlockIndex_refines inode i).run_error ⟨rfl, hcoh⟩
      (resolveBlockIndex_run_of_le hcoh.blockSize hlim inode hi)
    exact ⟨s, hrun⟩


/-- A device of three 1 KiB blocks of zeros, with a superblock of 1 KiB blocks. -/
def tinyFs : Ext2Fs := ⟨List.replicate 3072 0, Superblock.ofArray (List.replicate 1024 0), []⟩

/-- A file whose singly indirect block is block 2 of `tinyFs`. -/
def tinyInode : Inode := Inode.ofArray (writeLE (List.replicate 128 0) 88 4 2)

/-- Block 12 of the file is resolved, and its singly indirect block gets a new first entry by a
    `write_block` of that one block. -/
def oneBlockCalls : List CacheCall :=
  [.resolveBlockIndex tinyInode 12, .writeBlock 2 (encodeLE 4 7 ++ List.replicate 1020 0)]

set_option maxRecDepth 100000 in
theorem tinyFs_resolve_after_one_block_write :
    tinyFs.superblock.log2BlockSize = 0 ∧ 0 ≤ 7 ∧
      (∀ c ∈ oneBlockCalls, c.OneBlock (1024 * 2 ^ 0)) ∧
      ((∀ entry, 12 < tripleLimit (1024 * 2 ^ 0) →
        blockMap (runCalls oneBlockCalls ⟨tinyFs, .new⟩).fs.blockDevice (1024 * 2 ^ 0) tinyInode 12 =
          some entry →
          ∃ s, (CachedFs.resolveBlockIndex tinyInode 12).run (runCalls oneBlockCalls ⟨tinyFs, .new⟩) =
            .ok entry s) ∧
        (tripleLimit (1024 * 2 ^ 0) ≤ 12 →
          ∃ s, (CachedFs.resolveBlockIndex tinyInode 12).run (runCalls oneBlockCalls ⟨tinyFs, .new⟩) =
            .error (.error (.invalidBlockIndex 12)) s)) := by
  have hk : tinyFs.superblock.log2BlockSize = 0 := by rfl
  have hcalls : ∀ c ∈ oneBlockCalls, c.OneBlock (1024 * 2 ^ 0) := by
    intro c hc
    simp only [oneBlockCalls, List.mem_cons, List.not_mem_nil, or_false] at hc
    rcases hc with rfl | rfl
    · trivial
    · show (encodeLE 4 7 ++ List.replicate 1020 0).length ≤ 1024 * 2 ^ 0
      simp [encodeLE]
  exact ⟨hk, by decide, hcalls, resolveBlockIndex_after_calls hk (by decide) hcalls tinyInode 12⟩

/-- A run of two calls: `resolve_block_index` resolves block 12 of the file, which caches the
    file's singly indirect block, and then `write_block` writes two blocks from block 1 on, the
    second of which is that indirect block with a new first entry. -/
def twoBlockCalls : List CacheCall :=
  [.resolveBlockIndex tinyInode 12,
    .writeBlock 1 (List.replicate 1024 0 ++ encodeLE 4 7 ++ List.replicate 1020 0)]

set_option maxRecDepth 100000 in
/-- After a `write_block` of two blocks, the device maps block 12 of the file to block 7, and
    `resolve_block_index` answers from the table the cache kept of the block before the write: a
    hole. -/
theorem stale_table_after_two_block_write :
    blockMap (runCalls twoBlockCalls ⟨tinyFs, .new⟩).fs.blockDevice 1024 tinyInode 12 =
        some (some 7) ∧
      value? (CachedFs.resolveBlockIndex tinyInode 12) (runCalls twoBlockCalls ⟨tinyFs, .new⟩) =
        some none := by
  constructor
  · rfl
  · rfl

end Muffin.Ext2
