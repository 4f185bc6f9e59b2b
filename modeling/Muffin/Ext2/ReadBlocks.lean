-- SUMMARY: `read_blocks_from_inode` against the plain reading of a file's blocks one by one: its runs of holes and of consecutive device blocks, each read at once, give the bytes and the count of the blocks read on their own wherever the blocks lie below 4 GiB, and a run that starts at 4 GiB panics.
import Muffin.Ext2.Indirect

/-!
# ext2: reading the blocks of a file in runs

`read_blocks_from_inode` resolves the pointers of a range of blocks and then
walks them in runs: a run of holes is filled with zeros, and a run of device
blocks that follow each other is read with one read at the offset of its first
block. The plain reading it stands for takes each block on its own: zeros for a
hole, the device's bytes of the block otherwise (`blocksBytes`).

The two agree whenever every block the range resolves to starts below 4 GiB
(`readBlocksFromInode_eq_plain`). A run read at once reads its blocks one after
the other (`blocksBytes_consecutive`), and it fails past the end of the device
exactly when one of its blocks does. They part at 4 GiB: `resolve_block_offset`
multiplies in `u32`, so a run whose first block starts at 4 GiB panics, where
the block's bytes are on the device (`farInode_readBlocks_panics`).
-/

namespace Muffin.Ext2

open Rust Bytes EStateM

-- ---------------------------------------------------------------------------
-- The plain reading
-- ---------------------------------------------------------------------------

/-- The bytes of one block of a file whose pointer is `p`: zeros for a hole, the device's bytes
    of the block otherwise, and none past the end of the device. -/
def blockBytes (device : List Nat) (bs : Nat) : Option Nat → Option (List Nat)
  | none => some (List.replicate bs 0)
  | some a => readAt device (a * bs) bs

/-- The bytes of the blocks `pointers`, each read on its own, one after the other. -/
def blocksBytes (device : List Nat) (bs : Nat) : List (Option Nat) → Option (List Nat)
  | [] => some []
  | p :: ps => do
    let bytes ← blockBytes device bs p
    let rest ← blocksBytes device bs ps
    pure (bytes ++ rest)

/-- The plain reading of the blocks `start` to `stop` of a file: the pointers that
    `read_blocks_from_inode` resolves, then every block's bytes on its own, and the count of all
    of them. -/
def readBlocksPlain (inode : Inode) (start stop : Nat) : FsM (List Nat × Nat) := do
  let bs ← blockSize
  let pointers ← (List.range' start (stop - start + 1)).mapM (resolveBlockIndex inode)
  let some bytes := blocksBytes (← get).blockDevice bs pointers | throw (.error .deviceRead)
  pure (bytes, pointers.length * bs)

-- ---------------------------------------------------------------------------
-- Runs of blocks
-- ---------------------------------------------------------------------------

/-- A read of `a + b` bytes is the read of the first `a` and then of the next `b`. -/
theorem readAt_add (device : List Nat) (off a b : Nat) :
    readAt device off (a + b) =
      (readAt device off a).bind fun x => (readAt device (off + a) b).map (x ++ ·) := by
  unfold readAt
  by_cases ha : a = 0
  · subst ha
    simp
  · by_cases hb : b = 0
    · subst hb
      simp
    · rw [if_neg (by omega), if_neg ha, if_neg hb]
      by_cases hfit : off + (a + b) ≤ device.length
      · rw [if_pos hfit, if_pos (by omega), if_pos (by omega), Option.bind_some, Option.map_some,
          slice_append_slice]
      · rw [if_neg hfit]
        by_cases hfirst : off + a ≤ device.length
        · rw [if_pos hfirst, Option.bind_some, if_neg (by omega), Option.map_none]
        · rw [if_neg hfirst, Option.bind_none]

theorem blocksBytes_append (device : List Nat) (bs : Nat) (xs ys : List (Option Nat)) :
    blocksBytes device bs (xs ++ ys) =
      (blocksBytes device bs xs).bind fun a => (blocksBytes device bs ys).map (a ++ ·) := by
  induction xs with
  | nil => simp [blocksBytes]
  | cons p xs ih =>
    simp only [List.cons_append, blocksBytes, ih]
    cases blockBytes device bs p <;> cases blocksBytes device bs xs <;> cases blocksBytes device bs ys <;>
      simp

/-- A run of holes reads as zeros. -/
theorem blocksBytes_replicate_none (device : List Nat) (bs n : Nat) :
    blocksBytes device bs (List.replicate n none) = some (List.replicate (n * bs) 0) := by
  induction n with
  | zero => simp [blocksBytes]
  | succ n ih =>
    rw [List.replicate_succ, blocksBytes, ih, Nat.succ_mul, Nat.add_comm (n * bs),
      ← List.replicate_append_replicate]
    rfl

/-- A run of blocks that follow each other reads as one read from the first. -/
theorem blocksBytes_consecutive (device : List Nat) (bs : Nat) :
    ∀ n first, blocksBytes device bs ((List.range' first n).map some) = readAt device (first * bs) (n * bs)
  | 0, first => by simp [blocksBytes, readAt]
  | n + 1, first => by
    rw [List.range'_succ, List.map_cons, blocksBytes, blocksBytes_consecutive device bs n (first + 1),
      show (n + 1) * bs = bs + n * bs by rw [Nat.succ_mul, Nat.add_comm], readAt_add, Nat.succ_mul]
    simp only [blockBytes]
    cases readAt device (first * bs) bs <;> cases readAt device (first * bs + bs) (n * bs) <;> rfl

/-- How far the blocks after `prev` follow each other. -/
theorem consecutiveCount_spec (prev : Nat) :
    ∀ ps : List (Option Nat), consecutiveCount prev ps ≤ ps.length ∧
      ps.take (consecutiveCount prev ps) = (List.range' (prev + 1) (consecutiveCount prev ps)).map some
  | [] => ⟨Nat.le_refl _, rfl⟩
  | none :: _ => ⟨Nat.zero_le _, rfl⟩
  | some next :: ps => by
    rw [consecutiveCount]
    split_ifs with h
    · obtain ⟨hle, htake⟩ := consecutiveCount_spec next ps
      obtain ⟨-, rfl⟩ := h
      refine ⟨by rw [List.length_cons]; omega, ?_⟩
      rw [List.take_succ_cons, htake, List.range'_succ, List.map_cons]
    · exact ⟨Nat.zero_le _, rfl⟩

/-- The run from a pointer that is set: the blocks that follow each other from it. -/
theorem drop_eq_of_runEnd_some {pointers : List (Option Nat)} {start first : Nat}
    (h : pointers[start]? = some (some first)) :
    start < runEnd pointers start ∧ runEnd pointers start ≤ pointers.length ∧
      pointers.drop start =
        (List.range' first (runEnd pointers start - start)).map some ++ pointers.drop (runEnd pointers start) := by
  obtain ⟨hstart, hget⟩ := List.getElem?_eq_some_iff.1 h
  obtain ⟨k, hk⟩ : ∃ k, consecutiveCount first (pointers.drop (start + 1)) = k := ⟨_, rfl⟩
  obtain ⟨hle, htake⟩ := consecutiveCount_spec first (pointers.drop (start + 1))
  rw [hk, List.length_drop] at hle
  rw [hk] at htake
  have hend : runEnd pointers start = start + 1 + k := by
    rw [← hk, runEnd, h]
  rw [hend]
  refine ⟨by omega, by omega, ?_⟩
  -- the first block, the blocks that follow it, and what comes after them
  rw [List.drop_eq_getElem_cons hstart, hget, show start + 1 + k - start = k + 1 by omega, List.range'_succ,
    List.map_cons, List.cons_append, ← htake,
    show pointers.drop (start + 1 + k) = (pointers.drop (start + 1)).drop k by rw [List.drop_drop],
    List.take_append_drop]

/-- The run from a hole: the holes up to the next pointer that is set. -/
theorem drop_eq_of_runEnd_none {pointers : List (Option Nat)} {start : Nat}
    (h : pointers[start]? = some none) :
    start < runEnd pointers start ∧ runEnd pointers start ≤ pointers.length ∧
      pointers.drop start = List.replicate (runEnd pointers start - start) none ++ pointers.drop (runEnd pointers start) := by
  obtain ⟨hstart, hget⟩ := List.getElem?_eq_some_iff.1 h
  obtain ⟨n, hn⟩ : ∃ n, ((pointers.drop (start + 1)).takeWhile Option.isNone).length = n := ⟨_, rfl⟩
  have hend : runEnd pointers start = start + 1 + n := by
    rw [← hn, runEnd, h]
  have hprefix := List.takeWhile_prefix (p := Option.isNone) (l := pointers.drop (start + 1))
  have hle : n ≤ pointers.length - (start + 1) := by
    rw [← hn, ← List.length_drop]
    exact hprefix.length_le
  -- the holes read off by `takeWhile` are all `none`
  have hholes : (pointers.drop (start + 1)).takeWhile Option.isNone = List.replicate n none := by
    rw [← hn]
    exact List.eq_replicate_iff.2 ⟨rfl, fun x hx => Option.isNone_iff_eq_none.1 (List.all_eq_true.1 List.all_takeWhile x hx)⟩
  have htake : (pointers.drop (start + 1)).take n = List.replicate n none := by
    rw [← hholes, ← hn]
    exact (List.prefix_iff_eq_take.1 hprefix).symm
  rw [hend]
  refine ⟨by omega, by omega, ?_⟩
  rw [List.drop_eq_getElem_cons hstart, hget, show start + 1 + n - start = n + 1 by omega, List.replicate_succ,
    List.cons_append, ← htake,
    show pointers.drop (start + 1 + n) = (pointers.drop (start + 1)).drop n by rw [List.drop_drop],
    List.take_append_drop]

-- ---------------------------------------------------------------------------
-- Resolving pointers reads only
-- ---------------------------------------------------------------------------

theorem resolveIndirectPtr_moves (ptr : Option Nat) (index : Nat) :
    Moves (· = ·) (resolveIndirectPtr ptr index) := by
  cases ptr with
  | none => exact Moves.pure _
  | some a =>
    exact blockSize_moves.bind fun bs => (readBlock_moves a bs).bind fun _ => by
      split
      · exact Moves.pure _
      · exact Moves.throw _

theorem resolveDoubleIndirectPtr_moves (ptr : Option Nat) (index : Nat) :
    Moves (· = ·) (resolveDoubleIndirectPtr ptr index) :=
  blockSize_moves.bind fun _ => Moves.ite (Moves.throw _)
    ((resolveIndirectPtr_moves _ _).bind fun _ => resolveIndirectPtr_moves _ _)

theorem resolveTripleIndirectPtr_moves (ptr : Option Nat) (index : Nat) :
    Moves (· = ·) (resolveTripleIndirectPtr ptr index) :=
  blockSize_moves.bind fun _ => (checkedU32_moves _ _).bind fun _ => Moves.ite (Moves.throw _)
    ((resolveIndirectPtr_moves _ _).bind fun _ => resolveDoubleIndirectPtr_moves _ _)

theorem resolveBlockIndex_moves (inode : Inode) (index : Nat) :
    Moves (· = ·) (resolveBlockIndex inode index) :=
  indirectPointerLimits_moves.bind fun ⟨_, _, _⟩ =>
    Moves.ite (Moves.pure _) (Moves.ite (resolveIndirectPtr_moves _ _)
      (Moves.ite (resolveDoubleIndirectPtr_moves _ _)
        (blockSize_moves.bind fun _ => Moves.ite (Moves.throw _) (resolveTripleIndirectPtr_moves _ _))))

-- ---------------------------------------------------------------------------
-- The loop of `read_blocks_from_inode`
-- ---------------------------------------------------------------------------

/-- The bytes the loop reads and the count it adds up, from `start` on, are those of the blocks
    read one by one, as long as every block it meets starts below 4 GiB. -/
theorem readRunsFrom_run {fs : Ext2Fs} {bs : Nat} (hbs : fs.superblock.blockSize? = some bs)
    (pointers : List (Option Nat)) (fuel : Nat) :
    ∀ {start : Nat}, pointers.length - start ≤ fuel →
      (∀ p, some p ∈ pointers.drop start → p * bs < U32_LIMIT) →
      (readRunsFrom bs pointers fuel start).run fs =
        match blocksBytes fs.blockDevice bs (pointers.drop start) with
        | some bytes => .ok (bytes, (pointers.length - start) * bs) fs
        | none => .error (.error .deviceRead) fs := by
  induction fuel with
  | zero =>
    intro start hfuel _
    rw [readRunsFrom, List.drop_eq_nil_of_le (by omega), show pointers.length - start = 0 by omega,
      Nat.zero_mul]
    rfl
  | succ fuel ih =>
    intro start hfuel hbelow
    by_cases hend : pointers.length ≤ start
    · rw [readRunsFrom, if_pos hend, List.drop_eq_nil_of_le hend, show pointers.length - start = 0 by omega,
        Nat.zero_mul]
      rfl
    rw [readRunsFrom, if_neg hend]
    obtain ⟨q, hq⟩ : ∃ q, pointers[start]? = some q := ⟨_, List.getElem?_eq_getElem (by omega)⟩
    -- one run, from `start` to `runEnd pointers start`, then the loop from there
    have hcount : ∀ {stop}, start < stop → stop ≤ pointers.length →
        (stop - start) * bs + (pointers.length - stop) * bs = (pointers.length - start) * bs := by
      intro stop hlt hle
      rw [← Nat.add_mul]
      congr 1
      omega
    cases q with
    | some first =>
      obtain ⟨hlt, hle, hdrop⟩ := drop_eq_of_runEnd_some hq
      have hfirst : first * bs < U32_LIMIT := hbelow first (by
        rw [hdrop, show runEnd pointers start - start = (runEnd pointers start - start - 1) + 1 by omega,
          List.range'_succ]
        simp)
      have hih := @ih (runEnd pointers start) (by omega)
        (fun p hp => hbelow p (by rw [hdrop]; exact List.mem_append_right _ hp))
      simp only [hq]
      rw [run_bind_of_run_ok ((resolveBlockOffset_run hbs first).trans (if_pos hfirst)), run_bind,
        deviceRead_run, hdrop, blocksBytes_append, blocksBytes_consecutive]
      cases readAt fs.blockDevice (first * bs) ((runEnd pointers start - start) * bs) with
      | none => rfl
      | some bytes =>
        dsimp only
        rw [run_bind, hih]
        cases blocksBytes fs.blockDevice bs (pointers.drop (runEnd pointers start)) with
        | none => rfl
        | some rest =>
          dsimp only
          rw [hcount hlt hle]
          rfl
    | none =>
      obtain ⟨hlt, hle, hdrop⟩ := drop_eq_of_runEnd_none hq
      have hih := @ih (runEnd pointers start) (by omega)
        (fun p hp => hbelow p (by rw [hdrop]; exact List.mem_append_right _ hp))
      simp only [hq, pure_bind]
      rw [run_bind, hih, hdrop, blocksBytes_append, blocksBytes_replicate_none, Option.bind_some]
      cases blocksBytes fs.blockDevice bs (pointers.drop (runEnd pointers start)) with
      | none => rfl
      | some rest =>
        dsimp only
        rw [hcount hlt hle]
        rfl

/-- `read_blocks_from_inode` reads what the plain reading of the blocks one by one reads, and
    counts as much, whenever every block of the range starts below 4 GiB: on success, on an error
    of the pointers and past the end of the device alike. -/
theorem readBlocksFromInode_eq_plain {fs : Ext2Fs} {bs : Nat} (hbs : fs.superblock.blockSize? = some bs)
    (inode : Inode) (start stop : Nat)
    (hbelow : ∀ j ∈ List.range' start (stop - start + 1), ∀ p,
      (resolveBlockIndex inode j).run fs = .ok (some p) fs → p * bs < U32_LIMIT) :
    (readBlocksFromInode inode start stop).run fs = (readBlocksPlain inode start stop).run fs := by
  unfold readBlocksFromInode readBlocksPlain
  rw [run_bind_of_run_ok (blockSize_run hbs), run_bind_of_run_ok (blockSize_run hbs), run_bind, run_bind]
  cases hmap : ((List.range' start (stop - start + 1)).mapM (resolveBlockIndex inode)).run fs with
  | error e s => rfl
  | ok pointers s =>
    obtain rfl := (Moves.mapM (resolveBlockIndex_moves inode) _).of_run_ok hmap
    -- every pointer is one that `resolve_block_index` gives for a block of the range
    have hptrs : ∀ p, some p ∈ pointers.drop 0 → p * bs < U32_LIMIT := by
      intro p hp
      obtain ⟨j, hj, hrun⟩ := mem_of_run_mapM_ok (resolveBlockIndex_moves inode) hmap _ hp
      exact hbelow j hj p hrun
    dsimp only
    rw [readRunsFrom_run hbs pointers pointers.length (by omega) hptrs, run_get_bind, List.drop_zero,
      Nat.sub_zero]
    cases blocksBytes fs.blockDevice bs pointers <;> rfl

/-- An inode whose first two blocks are blocks 7 and 8 of `smallImage`, and whose third is a
    hole. -/
def runInode : Inode := Inode.ofArray (writeLE (writeLE (List.replicate 128 0) 40 4 7) 44 4 8)

set_option maxRecDepth 100000 in
/-- The first three blocks of `runInode`, a run of two blocks and a hole, read as the plain
    reading reads them. -/
theorem runInode_readBlocks_eq_plain :
    smallFs.superblock.blockSize? = some 1024 ∧
      (∀ j ∈ List.range' 0 (2 - 0 + 1), ∀ p,
        (resolveBlockIndex runInode j).run smallFs = .ok (some p) smallFs → p * 1024 < U32_LIMIT) ∧
      (readBlocksFromInode runInode 0 2).run smallFs = (readBlocksPlain runInode 0 2).run smallFs := by
  have hbs : smallFs.superblock.blockSize? = some 1024 := rfl
  have hbelow : ∀ j ∈ List.range' 0 (2 - 0 + 1), ∀ p,
      (resolveBlockIndex runInode j).run smallFs = .ok (some p) smallFs → p * 1024 < U32_LIMIT := by
    intro j hj p hp
    have hj' : j = 0 ∨ j = 1 ∨ j = 2 := by
      simp only [List.mem_range'_1] at hj
      omega
    -- the range resolves to blocks 7 and 8 and a hole
    have h₀ : (resolveBlockIndex runInode 0).run smallFs = .ok (some 7) smallFs := rfl
    have h₁ : (resolveBlockIndex runInode 1).run smallFs = .ok (some 8) smallFs := rfl
    have h₂ : (resolveBlockIndex runInode 2).run smallFs = .ok none smallFs := rfl
    rcases hj' with rfl | rfl | rfl
    · rw [h₀] at hp
      cases hp
      decide
    · rw [h₁] at hp
      cases hp
      decide
    · rw [h₂] at hp
      cases hp
  exact ⟨hbs, hbelow, readBlocksFromInode_eq_plain hbs runInode 0 2 hbelow⟩

/-- A device of 4 GiB and 1 KiB of zeros, with a superblock of block size 1024. -/
def hugeFs : Ext2Fs := ⟨List.replicate (U32_LIMIT + 1024) 0, Superblock.ofArray (List.replicate 1024 0), []⟩

/-- An inode whose first block is the block at 4 GiB. -/
def farInode : Inode := Inode.ofArray (writeLE (List.replicate 128 0) 40 4 4194304)

set_option maxRecDepth 100000 in
/-- The block at 4 GiB is on the device and the plain reading reads it, while
    `read_blocks_from_inode` panics in `resolve_block_offset`. -/
theorem farInode_readBlocks_panics :
    (readBlocksFromInode farInode 0 0).run hugeFs =
        .error (.panic ⟨"attempt to multiply with overflow"⟩) hugeFs ∧
      (readBlocksPlain farInode 0 0).run hugeFs = .ok (List.replicate 1024 0, 1024) hugeFs := by
  have hbs : hugeFs.superblock.blockSize? = some 1024 := rfl
  -- the device is too large to compute with: the pointer comes from the inode alone
  have hres : (resolveBlockIndex farInode 0).run hugeFs = .ok (some 4194304) hugeFs :=
    resolveBlockIndex_run_of_blockMap hbs (by decide) farInode (by decide) rfl
  have hmap : ((List.range' 0 (0 - 0 + 1)).mapM (resolveBlockIndex farInode)).run hugeFs =
      .ok [some 4194304] hugeFs := by
    rw [show List.range' 0 (0 - 0 + 1) = [0] from rfl, List.mapM_cons, run_bind_of_run_ok hres]
    rfl
  constructor
  · have hoff := resolveBlockOffset_run hbs 4194304
    rw [if_neg (by decide)] at hoff
    unfold readBlocksFromInode
    rw [run_bind_of_run_ok (blockSize_run hbs), run_bind_of_run_ok hmap, List.length_singleton, readRunsFrom,
      if_neg (by decide)]
    simp only [List.getElem?_cons_zero]
    exact run_bind_of_run_error hoff
  · have hdev : hugeFs.blockDevice = List.replicate (U32_LIMIT + 1024) 0 := rfl
    have hread : readAt hugeFs.blockDevice (4194304 * 1024) 1024 = some (List.replicate 1024 0) := by
      rw [readAt_of_le (by rw [hdev, List.length_replicate]; decide), hdev, slice, List.drop_replicate,
        List.take_replicate]
      rfl
    unfold readBlocksPlain
    rw [run_bind_of_run_ok (blockSize_run hbs), run_bind_of_run_ok hmap, run_get_bind, blocksBytes, blockBytes,
      hread]
    rfl

end Muffin.Ext2
