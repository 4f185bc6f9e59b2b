-- SUMMARY: Block devices of `kernel_device`: the `BlockDevice` trait's provided `read_at` and `write_at` over any device's sectors, with the read-modify-write of partial sectors, and `MemoryBlockDevice`, on which both move exactly the bytes of their range.
import Muffin.Lib.Bytes
import Muffin.Lib.EStateM
import Muffin.Lib.Rust

/-!
# Block devices

`BlockDevice` has two required methods, `read_sector` and `write_sector`, which
move one sector, and two provided ones, `read_at` and `write_at`, which move any
range of bytes. A range that is one whole sector goes to the sector method
directly. Otherwise `read_at` reads every sector the range touches and copies
the range out of them, and `write_at` writes the first sector (read, changed and
written back, unless the range starts at its start), the sectors in between
whole, and the last sector (whole, or read, changed and written back).

The provided methods are modelled once, for every device, as the trait has them;
the required ones are a class. A `MemoryBlockDevice` keeps its sectors in one
buffer. On one that `try_new` accepts, `read_at` returns the bytes of its range
and `write_at` overwrites exactly its range, on every path
(`MemoryBlockDevice.readAt_eq`, `MemoryBlockDevice.writeAt_run`).
-/

namespace Muffin.Device

open Rust Bytes EStateM

/-- How a call on a device ends early: the device's `Err`, or a panic. -/
inductive Exit (ε : Type) where
  | error (e : ε)
  | panic (p : Panic)

/-- `BlockDevice`, with its required methods: `read_sector` returns the bytes it fills a buffer
    of one sector with, and `write_sector` is given such a buffer. Both return the count the
    trait returns. -/
class BlockDevice (D : Type) (ε : outParam Type) where
  sectorSize : D → Nat
  readSector : D → Nat → Except (Exit ε) (List Nat × Nat)
  writeSector : Nat → List Nat → EStateM (Exit ε) D Nat

section Provided

variable {D ε : Type} [BlockDevice D ε]

/-- A read of the device inside a call that may write it. -/
def liftRead {α : Type} : Except (Exit ε) α → EStateM (Exit ε) D α
  | .ok a => pure a
  | .error e => throw e

/-- The loop of `read_at` over `data.chunks_exact_mut(sector_size).enumerate()`: `count`
    sectors from `first`, one after the other. -/
def readSectors (d : D) (first : Nat) : Nat → Except (Exit ε) (List Nat)
  | 0 => pure []
  | count + 1 => do
    let (sector, _) ← BlockDevice.readSector d first
    let rest ← readSectors d (first + 1) count
    pure (sector ++ rest)

/-- `read_at` past its fast path, for a non-empty buffer and a sector size `s`: every sector
    the range touches, and the range copied out of them. -/
def readAtSectors (d : D) (s offset len : Nat) : Except (Exit ε) (List Nat × Nat) := do
  let startSector := offset / s
  let endSector := (offset + len - 1) / s
  let data ← readSectors d startSector (endSector - startSector + 1)
  pure (slice data (offset % s) len, len)

/-- `BlockDevice::read_at` into a buffer of `len` bytes: the bytes it copies there, and the
    count it returns. -/
def readAt (d : D) (offset len : Nat) : Except (Exit ε) (List Nat × Nat) :=
  if len = 0 then pure ([], 0)
  else
    let s := BlockDevice.sectorSize d
    if offset % s = 0 ∧ len = s then BlockDevice.readSector d (offset / s)
    else if s = 0 then throw (.panic ⟨"attempt to divide by zero"⟩)
    else if U64_LIMIT ≤ offset + len then throw (.panic ⟨"attempt to add with overflow"⟩)
    else readAtSectors d s offset len

/-- `chunks_exact(n)`: the chunks of `n` bytes, without the remainder. -/
def chunksExact (n : Nat) (data : List Nat) : List (List Nat) :=
  (List.range (data.length / n)).map fun i => slice data (i * n) n

/-- The loop of `write_at` over `chunks_exact(sector_size).enumerate()`: chunk `index` to
    sector `first + index`. -/
def writeChunks (first : Nat) : List (List Nat) → EStateM (Exit ε) D Unit
  | [] => pure ()
  | chunk :: chunks => do
    let _ ← BlockDevice.writeSector first chunk
    writeChunks (first + 1) chunks

/-- A partial sector: read into a buffer, `bytes` copied into it at `off`, written back. The
    three partial writes of `write_at` (a range inside one sector, the head and the tail). -/
def rewriteSector (index off : Nat) (bytes : List Nat) : EStateM (Exit ε) D Unit := do
  let (sector, _) ← liftRead (BlockDevice.readSector (← get) index)
  let _ ← BlockDevice.writeSector index (overwrite sector off bytes)

/-- The first sector of a range over several: written whole when the range starts at its
    start, and read, changed and written back otherwise. -/
def writeHead (s startSector startOffset : Nat) (buf : List Nat) : EStateM (Exit ε) D Unit :=
  if startOffset = 0 then do
    let _ ← BlockDevice.writeSector startSector (buf.take s)
  else rewriteSector startSector startOffset (buf.take (s - startOffset))

/-- The last sector of a range over several, given the bytes of the range in it: written whole
    when the range ends at its end, and read, changed and written back otherwise. -/
def writeTail (s endSector endOffset : Nat) (tail : List Nat) : EStateM (Exit ε) D Unit :=
  if endOffset = s then do
    let _ ← BlockDevice.writeSector endSector tail
  else rewriteSector endSector 0 tail

/-- `write_at` past its fast path, for a non-empty buffer and a sector size `s`. The slices
    of `buf` are in range: a range over several sectors that starts at a sector's start has
    more than `s` bytes, and `head_len ≤ tail_start`. -/
def writeAtSectors (s offset : Nat) (buf : List Nat) : EStateM (Exit ε) D Nat := do
  let startSector := offset / s
  let startOffset := offset % s
  let endSector := (offset + buf.length - 1) / s
  let endOffset := offset + buf.length - endSector * s
  if startSector = endSector then
    rewriteSector startSector startOffset buf
    pure buf.length
  else
    let headLen := s - startOffset
    writeHead s startSector startOffset buf
    let tailStart := buf.length - endOffset
    writeChunks (startSector + 1) (chunksExact s (slice buf headLen (tailStart - headLen)))
    writeTail s endSector endOffset (buf.drop tailStart)
    pure buf.length

/-- `BlockDevice::write_at`. -/
def writeAt (offset : Nat) (buf : List Nat) : EStateM (Exit ε) D Nat := do
  if buf.isEmpty then pure 0
  else
    let s := BlockDevice.sectorSize (← get)
    if offset % s = 0 ∧ buf.length = s then BlockDevice.writeSector (offset / s) buf
    else if s = 0 then throw (.panic ⟨"attempt to divide by zero"⟩)
    else if U64_LIMIT ≤ offset + buf.length then throw (.panic ⟨"attempt to add with overflow"⟩)
    else writeAtSectors s offset buf

/-! ### What a call can do to the device

Every change to the device goes through `write_sector`: a relation that every `write_sector`
moves along is one that every provided method moves along, ok or not. -/

section Moves

variable {R : D → D → Prop} [Std.Refl R] [IsTrans D R]
  (hwrite : ∀ index buf, Moves R (BlockDevice.writeSector (D := D) index buf))

omit [BlockDevice D ε] [IsTrans D R] in
theorem liftRead_moves {α : Type} (x : Except (Exit ε) α) : Moves R (liftRead (D := D) x) := by
  cases x with
  | ok a => exact Moves.pure a
  | error e => exact Moves.throw e

include hwrite

theorem writeChunks_moves : ∀ (first : Nat) (chunks : List (List Nat)),
    Moves R (writeChunks (D := D) first chunks)
  | _, [] => Moves.pure ()
  | first, _ :: chunks => (hwrite _ _).bind fun _ => writeChunks_moves (first + 1) chunks

theorem rewriteSector_moves (index off : Nat) (bytes : List Nat) :
    Moves R (rewriteSector (D := D) index off bytes) :=
  Moves.get_bind fun d =>
    ((liftRead_moves _).bind fun ⟨_, _⟩ => (hwrite _ _).bind fun _ => Moves.pure ()) d

theorem writeAtSectors_moves (s offset : Nat) (buf : List Nat) :
    Moves R (writeAtSectors (D := D) s offset buf) := by
  have hhead : ∀ a b, Moves R (writeHead (D := D) s a b buf) := fun a b =>
    Moves.ite ((hwrite _ _).bind fun _ => Moves.pure ()) (rewriteSector_moves hwrite _ _ _)
  have htail : ∀ a b tail, Moves R (writeTail (D := D) s a b tail) := fun a b tail =>
    Moves.ite ((hwrite _ _).bind fun _ => Moves.pure ()) (rewriteSector_moves hwrite _ _ _)
  exact Moves.ite ((rewriteSector_moves hwrite _ _ _).bind fun _ => Moves.pure _)
    ((hhead _ _).bind fun _ => (writeChunks_moves hwrite _ _).bind fun _ =>
      (htail _ _ _).bind fun _ => Moves.pure _)

theorem writeAt_moves (offset : Nat) (buf : List Nat) : Moves R (writeAt (D := D) offset buf) :=
  Moves.ite (Moves.pure 0) (Moves.get_bind fun d =>
    (Moves.ite (hwrite _ _) (Moves.ite (Moves.throw _) (Moves.ite (Moves.throw _)
      (writeAtSectors_moves hwrite _ _ _)))) d)

end Moves

end Provided

/-- `MemoryBlockDevice`: the sector size and the bytes of the device. -/
structure MemoryBlockDevice where
  sectorSize : Nat
  data : List Nat

namespace MemoryBlockDevice

/-- `MemoryBlockDevice::try_new`: `None` for data that is not a whole number of sectors. -/
def tryNew (sectorSize : Nat) (data : List Nat) : Except Panic (Option MemoryBlockDevice) :=
  if sectorSize = 0 then .error ⟨"attempt to calculate the remainder with a divisor of zero"⟩
  else if data.length % sectorSize ≠ 0 then .ok none
  else .ok (some ⟨sectorSize, data⟩)

/-- `read_sector`: the bytes of sector `index`; a sector past the end panics in the slice. -/
def readSector (d : MemoryBlockDevice) (index : Nat) : Except (Exit Unit) (List Nat × Nat) :=
  if index * d.sectorSize + d.sectorSize ≤ d.data.length then
    .ok (slice d.data (index * d.sectorSize) d.sectorSize, d.sectorSize)
  else .error (.panic ⟨"range end index out of range for slice"⟩)

/-- `write_sector`. -/
def writeSector (index : Nat) (buf : List Nat) : EStateM (Exit Unit) MemoryBlockDevice Nat := do
  let d ← get
  if buf.length ≠ d.sectorSize then throw (.panic ⟨"assertion `left == right` failed"⟩)
  else if index * d.sectorSize + d.sectorSize ≤ d.data.length then
    set { d with data := overwrite d.data (index * d.sectorSize) buf }
    pure buf.length
  else throw (.panic ⟨"range end index out of range for slice"⟩)

instance : BlockDevice MemoryBlockDevice Unit where
  sectorSize d := d.sectorSize
  readSector := readSector
  writeSector := writeSector

/-- A device `try_new` accepts: a positive sector size that divides the length of the data. -/
structure Wf (d : MemoryBlockDevice) : Prop where
  sectorSize_pos : 0 < d.sectorSize
  dvd_length : d.sectorSize ∣ d.data.length
  /-- The data is a Rust slice, of at most `isize::MAX` bytes. -/
  length_le : d.data.length ≤ ISIZE_MAX

/-! ## One sector -/

section Sectors

variable {s : Nat} {data : List Nat}

theorem readSector_eq {index : Nat} (h : index * s + s ≤ data.length) :
    BlockDevice.readSector (⟨s, data⟩ : MemoryBlockDevice) index =
      .ok (slice data (index * s) s, s) := by
  show readSector ⟨s, data⟩ index = _
  rw [readSector, if_pos h]

theorem writeSector_run {index : Nat} {buf : List Nat} (hbuf : buf.length = s)
    (h : index * s + s ≤ data.length) :
    (BlockDevice.writeSector index buf).run (⟨s, data⟩ : MemoryBlockDevice) =
      .ok s ⟨s, overwrite data (index * s) buf⟩ := by
  show (writeSector index buf).run ⟨s, data⟩ = _
  rw [writeSector, run_get_bind]
  dsimp only
  rw [if_neg (not_not.2 hbuf), if_pos h, hbuf]
  rfl

/-- A partial sector read, changed and written back: only the bytes changed change. -/
theorem rewriteSector_run {index off : Nat} {bytes : List Nat} (h : index * s + s ≤ data.length)
    (hoff : off + bytes.length ≤ s) :
    (rewriteSector index off bytes).run (⟨s, data⟩ : MemoryBlockDevice) =
      .ok () ⟨s, overwrite data (index * s + off) bytes⟩ := by
  have hsector : (overwrite (slice data (index * s) s) off bytes).length = s := by
    rw [length_overwrite (by rw [length_slice_of_le h]; exact hoff), length_slice_of_le h]
  have hread : (liftRead (BlockDevice.readSector (⟨s, data⟩ : MemoryBlockDevice) index) :
      EStateM (Exit Unit) MemoryBlockDevice (List Nat × Nat)).run ⟨s, data⟩ =
        .ok (slice data (index * s) s, s) ⟨s, data⟩ := by
    rw [readSector_eq h]
    rfl
  unfold rewriteSector
  rw [run_get_bind, run_bind_of_run_ok hread]
  dsimp only
  rw [run_bind_of_run_ok (writeSector_run hsector h), overwrite_slice_overwrite h hoff]
  rfl

end Sectors

/-! ## Where a range lies -/

/-- A non-empty range of a device of whole sectors: its first sector `o / s` and its last
    sector `(o + n - 1) / s`, which lies inside the device, and the sectors in between. -/
theorem sector_span {s o n len : Nat} (hs : 0 < s) (hdvd : s ∣ len) (hn : 0 < n)
    (hfit : o + n ≤ len) :
    o / s * s + o % s = o ∧ o % s < s ∧ (o + n - 1) / s * s ≤ o + n - 1 ∧
      o + n - 1 < (o + n - 1) / s * s + s ∧ (o + n - 1) / s * s + s ≤ len ∧
      (o / s < (o + n - 1) / s → o / s * s + s ≤ (o + n - 1) / s * s) := by
  have hlast : (o + n - 1) / s * s + s ≤ len := by
    obtain ⟨k, rfl⟩ := hdvd
    have hk : (o + n - 1) / s < k := (Nat.div_lt_iff_lt_mul hs).2 (by rw [Nat.mul_comm]; omega)
    calc (o + n - 1) / s * s + s = ((o + n - 1) / s + 1) * s := (Nat.succ_mul _ _).symm
      _ ≤ k * s := Nat.mul_le_mul_right s hk
      _ = s * k := Nat.mul_comm k s
  refine ⟨Nat.div_add_mod' o s, Nat.mod_lt o hs, Nat.div_mul_le_self _ s, Nat.lt_div_mul_add hs,
    hlast, fun hlt => ?_⟩
  rw [← Nat.succ_mul]
  exact Nat.mul_le_mul_right s hlt

/-! ## Whole sectors in a row -/

theorem length_of_mem_chunksExact {n : Nat} {bytes c : List Nat} (hn : 0 < n)
    (hc : c ∈ chunksExact n bytes) : c.length = n := by
  obtain ⟨i, hi, rfl⟩ := List.mem_map.1 hc
  have hi' : (i + 1) * n ≤ bytes.length := (Nat.le_div_iff_mul_le hn).1 (List.mem_range.1 hi)
  exact length_slice_of_le (by rw [Nat.succ_mul] at hi'; exact hi')

theorem flatten_chunksExact {n : Nat} {bytes : List Nat} (hdvd : n ∣ bytes.length) :
    (chunksExact n bytes).flatten = bytes := by
  -- the first `k` chunks are the first `k * n` bytes
  have hprefix : ∀ k, ((List.range k).map fun i => slice bytes (i * n) n).flatten =
      bytes.take (k * n) := by
    intro k
    induction k with
    | zero => simp
    | succ k ih =>
      rw [List.range_succ, List.map_append, List.flatten_append, ih, Nat.succ_mul, List.take_add]
      simp [slice]
  rw [chunksExact, hprefix, Nat.div_mul_cancel hdvd, List.take_length]

theorem length_chunksExact (n : Nat) (bytes : List Nat) :
    (chunksExact n bytes).length = bytes.length / n := by
  simp [chunksExact]

theorem length_flatten_of_forall {n : Nat} :
    ∀ {chunks : List (List Nat)}, (∀ c ∈ chunks, c.length = n) →
      chunks.flatten.length = chunks.length * n
  | [], _ => by simp
  | c :: cs, h => by
    rw [List.flatten_cons, List.length_append, h c List.mem_cons_self,
      length_flatten_of_forall fun c' hc' => h c' (List.mem_cons_of_mem c hc'), List.length_cons,
      Nat.succ_mul, Nat.add_comm]

section Rows

variable {s : Nat} {data : List Nat}

/-- Chunks of one sector each, written to the sectors from `first` on, are one write at the
    start of sector `first`. -/
theorem writeChunks_run (hs : 0 < s) :
    ∀ {first : Nat} {chunks : List (List Nat)} {data : List Nat}, (∀ c ∈ chunks, c.length = s) →
      first * s + chunks.length * s ≤ data.length →
      (writeChunks first chunks).run (⟨s, data⟩ : MemoryBlockDevice) =
        .ok () ⟨s, overwrite data (first * s) chunks.flatten⟩
  | _, [], _, _, _ => by
    rw [List.flatten_nil, overwrite_nil]
    rfl
  | first, c :: cs, data, hlen, hfit => by
    have hc : c.length = s := hlen c List.mem_cons_self
    have hcs : cs.length * s + s = (c :: cs).length * s := by
      rw [List.length_cons, Nat.succ_mul]
    have hfirst : (first + 1) * s = first * s + c.length := by rw [Nat.succ_mul, hc]
    have hrest := @writeChunks_run hs (first + 1) cs (overwrite data (first * s) c)
      (fun c' hc' => hlen c' (List.mem_cons_of_mem c hc'))
      (by rw [length_overwrite (by omega), hfirst, hc]; omega)
    unfold writeChunks
    rw [run_bind_of_run_ok (writeSector_run hc (by omega)), hrest, hfirst, List.flatten_cons,
      ← overwrite_append (by rw [hc, length_flatten_of_forall fun c' hc' =>
        hlen c' (List.mem_cons_of_mem c hc')]; omega)]

/-- The middle of a range: whole sectors, written one after the other from sector `first`. -/
theorem writeChunks_chunksExact_run {first : Nat} {bytes : List Nat} (hs : 0 < s)
    (hdvd : s ∣ bytes.length) (hfit : first * s + bytes.length ≤ data.length) :
    (writeChunks first (chunksExact s bytes)).run (⟨s, data⟩ : MemoryBlockDevice) =
      .ok () ⟨s, overwrite data (first * s) bytes⟩ := by
  have hcount : (chunksExact s bytes).length * s = bytes.length := by
    rw [length_chunksExact, Nat.div_mul_cancel hdvd]
  rw [writeChunks_run hs (fun c hc => length_of_mem_chunksExact hs hc) (by rw [hcount]; exact hfit),
    flatten_chunksExact hdvd]

/-- The first sector of a range over several: its bytes from `startOffset` on are overwritten,
    whole or read, changed and written back. -/
theorem writeHead_run {startSector startOffset : Nat} {buf : List Nat}
    (h : startSector * s + s ≤ data.length) (hoff : startOffset < s)
    (hbuf : s - startOffset ≤ buf.length) :
    (writeHead s startSector startOffset buf).run (⟨s, data⟩ : MemoryBlockDevice) =
      .ok () ⟨s, overwrite data (startSector * s + startOffset) (buf.take (s - startOffset))⟩ := by
  have hlen : (buf.take (s - startOffset)).length = s - startOffset := List.length_take_of_le hbuf
  unfold writeHead
  split_ifs with hzero
  · subst hzero
    rw [run_bind_of_run_ok (writeSector_run (by rw [List.length_take_of_le (by omega)]) h)]
    rfl
  · exact rewriteSector_run h (by omega)

/-- The last sector of a range over several: its first `endOffset` bytes are overwritten,
    whole or read, changed and written back. -/
theorem writeTail_run {endSector endOffset : Nat} {tail : List Nat}
    (h : endSector * s + s ≤ data.length) (hend : endOffset ≤ s) (htail : tail.length = endOffset) :
    (writeTail s endSector endOffset tail).run (⟨s, data⟩ : MemoryBlockDevice) =
      .ok () ⟨s, overwrite data (endSector * s) tail⟩ := by
  unfold writeTail
  split_ifs with hwhole
  · rw [run_bind_of_run_ok (writeSector_run (htail.trans hwhole) h)]
    rfl
  · exact rewriteSector_run h (by omega)

/-- `write_at` past its fast path overwrites exactly its range: a range inside one sector, or
    the head, the whole sectors in between and the tail. -/
theorem writeAtSectors_run {o : Nat} {buf : List Nat} (hs : 0 < s) (hdvd : s ∣ data.length)
    (hn : 0 < buf.length) (hfit : o + buf.length ≤ data.length) :
    (writeAtSectors s o buf).run (⟨s, data⟩ : MemoryBlockDevice) =
      .ok buf.length ⟨s, overwrite data o buf⟩ := by
  obtain ⟨hdiv, hmod, hlo, hhi, hlast, hgap⟩ := sector_span hs hdvd hn hfit
  unfold writeAtSectors
  dsimp only
  split_ifs with hsame
  · -- the range lies in one sector
    have hsec : o / s * s = (o + buf.length - 1) / s * s := by rw [hsame]
    rw [run_bind_of_run_ok (@rewriteSector_run s data (o / s) (o % s) buf (by omega) (by omega)),
      hdiv]
    rfl
  · -- a head, whole sectors, and a tail
    have hgap' := hgap (lt_of_le_of_ne (Nat.div_le_div_right (by omega)) hsame)
    -- the middle is the sectors strictly between the first and the last
    have hdvd_mid : s ∣ buf.length - (o + buf.length - (o + buf.length - 1) / s * s) - (s - o % s) := by
      have hmid : buf.length - (o + buf.length - (o + buf.length - 1) / s * s) - (s - o % s) =
          (o + buf.length - 1) / s * s - (o / s * s + s) := by omega
      rw [hmid]
      exact Nat.dvd_sub (Nat.dvd_mul_left s _) (Nat.dvd_add (Nat.dvd_mul_left s _) (Nat.dvd_refl s))
    have hhead := @writeHead_run s data (o / s) (o % s) buf (by omega) hmod (by omega)
    rw [hdiv] at hhead
    rw [run_bind_of_run_ok hhead]
    generalize hk : (o + buf.length - 1) / s = k at *
    generalize ht : buf.length - (o + buf.length - k * s) = t at *
    have ha : (buf.take (s - o % s)).length = s - o % s := List.length_take_of_le (by omega)
    have hb : (slice buf (s - o % s) (t - (s - o % s))).length = t - (s - o % s) :=
      length_slice_of_le (by omega)
    have hc : (buf.drop t).length = o + buf.length - k * s := by rw [List.length_drop]; omega
    have hmid := @writeChunks_chunksExact_run s (overwrite data o (buf.take (s - o % s))) (o / s + 1)
      (slice buf (s - o % s) (t - (s - o % s))) hs (by rw [hb]; exact hdvd_mid)
      (by rw [length_overwrite (by omega), hb, Nat.succ_mul]; omega)
    rw [run_bind_of_run_ok hmid]
    have hlen₁ : (overwrite data o (buf.take (s - o % s))).length = data.length :=
      length_overwrite (by omega)
    have hlen₂ : (overwrite (overwrite data o (buf.take (s - o % s))) ((o / s + 1) * s)
        (slice buf (s - o % s) (t - (s - o % s)))).length = data.length := by
      rw [length_overwrite (by rw [hlen₁, hb, Nat.succ_mul]; omega), hlen₁]
    have htail := @writeTail_run s _ k (o + buf.length - k * s) (buf.drop t)
      (by rw [hlen₂]; exact hlast) (by omega) hc
    rw [run_bind_of_run_ok htail, Nat.succ_mul, show o / s * s + s = o + (buf.take (s - o % s)).length by omega,
      show k * s = o + (buf.take (s - o % s)).length + (slice buf (s - o % s) (t - (s - o % s))).length by omega,
      overwrite_append_append (by omega), take_append_slice_append_drop buf (by omega)]
    rfl

/-- Sectors read one after the other from `first` are the bytes from the start of `first`. -/
theorem readSectors_eq :
    ∀ {first count : Nat}, first * s + count * s ≤ data.length →
      readSectors (⟨s, data⟩ : MemoryBlockDevice) first count = .ok (slice data (first * s) (count * s))
  | _, 0, _ => by
    rw [Nat.zero_mul]
    rfl
  | first, count + 1, hfit => by
    rw [Nat.succ_mul] at hfit
    have hrest := @readSectors_eq (first + 1) count (by rw [Nat.succ_mul]; omega)
    rw [readSectors, readSector_eq (by omega)]
    simp only [bind, Except.bind, hrest, pure, Except.pure]
    rw [Nat.succ_mul first, slice_append_slice, Nat.succ_mul count, Nat.add_comm (count * s)]

/-- `read_at` past its fast path reads the sectors its range touches and copies the range out. -/
theorem readAtSectors_eq {o n : Nat} (hs : 0 < s) (hdvd : s ∣ data.length) (hn : 0 < n)
    (hfit : o + n ≤ data.length) :
    readAtSectors (⟨s, data⟩ : MemoryBlockDevice) s o n = .ok (slice data o n, n) := by
  obtain ⟨hdiv, hmod, hlo, hhi, hlast, -⟩ := sector_span hs hdvd hn hfit
  have hle : o / s * s ≤ (o + n - 1) / s * s :=
    Nat.mul_le_mul_right s (Nat.div_le_div_right (by omega))
  have hcount : ((o + n - 1) / s - o / s + 1) * s = (o + n - 1) / s * s + s - o / s * s := by
    rw [Nat.succ_mul, Nat.sub_mul]
    omega
  unfold readAtSectors
  dsimp only
  rw [readSectors_eq (by rw [hcount]; omega)]
  simp only [bind, Except.bind, pure, Except.pure]
  rw [hcount, slice_slice (by omega), hdiv]

end Rows

@[simp] theorem blockDevice_sectorSize (d : MemoryBlockDevice) :
    BlockDevice.sectorSize d = d.sectorSize := rfl

/-! ## `read_at` and `write_at` -/

theorem tryNew_wf {s : Nat} {data : List Nat} {d : MemoryBlockDevice}
    (h : tryNew s data = .ok (some d)) (hlen : data.length ≤ ISIZE_MAX) : d.Wf := by
  unfold tryNew at h
  split_ifs at h with hs hmod
  · simp at h
  · simp only [Except.ok.injEq, Option.some.injEq] at h
    subst h
    exact ⟨Nat.pos_of_ne_zero hs, Nat.dvd_of_mod_eq_zero (not_not.1 hmod), hlen⟩

/-- `read_at` on a device `try_new` accepts returns the bytes of its range, on every path. -/
theorem readAt_eq {d : MemoryBlockDevice} (hwf : d.Wf) {o n : Nat} (hfit : o + n ≤ d.data.length) :
    readAt d o n = .ok (slice d.data o n, n) := by
  obtain ⟨s, data⟩ := d
  obtain ⟨hs, hdvd, hlen⟩ := hwf
  dsimp only at hs hdvd hlen hfit ⊢
  unfold readAt
  simp only [blockDevice_sectorSize]
  split_ifs with hzero hfast hs0 hover
  · subst hzero
    rfl
  · obtain ⟨hmod, rfl⟩ := hfast
    have ho : o / n * n = o := Nat.div_mul_cancel (Nat.dvd_of_mod_eq_zero hmod)
    rw [readSector_eq (by rw [ho]; exact hfit), ho]
  · omega
  · unfold ISIZE_MAX U64_LIMIT at *
    omega
  · exact readAtSectors_eq hs hdvd (Nat.pos_of_ne_zero hzero) hfit

/-- `write_at` on a device `try_new` accepts overwrites exactly its range and returns its
    length, on every path. -/
theorem writeAt_run {d : MemoryBlockDevice} (hwf : d.Wf) {o : Nat} {buf : List Nat}
    (hfit : o + buf.length ≤ d.data.length) :
    (writeAt o buf).run d = .ok buf.length ⟨d.sectorSize, overwrite d.data o buf⟩ := by
  obtain ⟨s, data⟩ := d
  obtain ⟨hs, hdvd, hlen⟩ := hwf
  dsimp only at hs hdvd hlen hfit ⊢
  unfold writeAt
  by_cases hempty : buf = []
  · subst hempty
    rw [overwrite_nil]
    rfl
  · rw [if_neg (by simpa using hempty), run_get_bind]
    simp only [blockDevice_sectorSize]
    split_ifs with hfast hs0 hover
    · obtain ⟨hmod, hbuf⟩ := hfast
      have ho : o / s * s = o := Nat.div_mul_cancel (Nat.dvd_of_mod_eq_zero hmod)
      rw [writeSector_run hbuf (by rw [ho]; omega), ho, hbuf]
    · omega
    · unfold ISIZE_MAX U64_LIMIT at *
      omega
    · exact writeAtSectors_run hs hdvd (List.length_pos_iff.2 hempty) hfit

/-- The fast paths: a whole aligned sector goes to `write_sector` and `read_sector`, and the
    general paths would do the same to it. -/
theorem fast_paths_agree {d : MemoryBlockDevice} (hwf : d.Wf) {o : Nat} {buf : List Nat}
    (hfit : o + buf.length ≤ d.data.length) (hmod : o % d.sectorSize = 0)
    (hbuf : buf.length = d.sectorSize) :
    (writeAtSectors d.sectorSize o buf).run d = (BlockDevice.writeSector (o / d.sectorSize) buf).run d ∧
      readAtSectors d d.sectorSize o buf.length = BlockDevice.readSector d (o / d.sectorSize) := by
  obtain ⟨s, data⟩ := d
  obtain ⟨hs, hdvd, -⟩ := hwf
  dsimp only at hs hdvd hfit hmod hbuf ⊢
  have ho : o / s * s = o := Nat.div_mul_cancel (Nat.dvd_of_mod_eq_zero hmod)
  refine ⟨?_, ?_⟩
  · rw [writeAtSectors_run hs hdvd (by omega) hfit, writeSector_run hbuf (by omega), ho, hbuf]
  · rw [readAtSectors_eq hs hdvd (by omega) hfit, readSector_eq (by omega), ho, hbuf]

/-- `write_at` and `read_at` on a device `try_new` accepts, for a range inside the device: the
    write overwrites exactly the range and returns its length, the read returns the bytes of
    the range and its length, and on a whole aligned sector the general paths agree with the
    fast ones. -/
theorem readAt_writeAt {d : MemoryBlockDevice} (hwf : d.Wf) {o : Nat} {buf : List Nat}
    (hfit : o + buf.length ≤ d.data.length) :
    (writeAt o buf).run d = .ok buf.length ⟨d.sectorSize, overwrite d.data o buf⟩ ∧
      readAt d o buf.length = .ok (slice d.data o buf.length, buf.length) ∧
      (o % d.sectorSize = 0 → buf.length = d.sectorSize →
        (writeAtSectors d.sectorSize o buf).run d =
            (BlockDevice.writeSector (o / d.sectorSize) buf).run d ∧
          readAtSectors d d.sectorSize o buf.length = BlockDevice.readSector d (o / d.sectorSize)) :=
  ⟨writeAt_run hwf hfit, readAt_eq hwf hfit, fast_paths_agree hwf hfit⟩

theorem readAt_writeAt_unaligned :
    (writeAt 1 [1, 2, 3, 4, 5, 6, 7, 8]).run (⟨4, List.replicate 16 0xFF⟩ : MemoryBlockDevice) =
        .ok 8 ⟨4, [0xFF, 1, 2, 3, 4, 5, 6, 7, 8, 0xFF, 0xFF, 0xFF, 0xFF, 0xFF, 0xFF, 0xFF]⟩ ∧
      readAt (⟨4, List.replicate 16 0xFF⟩ : MemoryBlockDevice) 1 8 = .ok (List.replicate 8 0xFF, 8) :=
  have h := @readAt_writeAt ⟨4, List.replicate 16 0xFF⟩ ⟨by decide, by decide, by decide⟩ 1
    [1, 2, 3, 4, 5, 6, 7, 8] (by decide)
  ⟨h.1, h.2.1⟩

/-! ## The device keeps its shape -/

/-- A call keeps the sector size and the length of the data. -/
def SameShape (d d' : MemoryBlockDevice) : Prop :=
  d'.sectorSize = d.sectorSize ∧ d'.data.length = d.data.length

instance : Std.Refl SameShape := ⟨fun _ => ⟨rfl, rfl⟩⟩

instance : IsTrans MemoryBlockDevice SameShape :=
  ⟨fun _ _ _ h₁ h₂ => ⟨h₂.1.trans h₁.1, h₂.2.trans h₁.2⟩⟩

theorem Wf.of_sameShape {d d' : MemoryBlockDevice} (h : SameShape d d') (hwf : d.Wf) : d'.Wf := by
  obtain ⟨hs, hlen⟩ := h
  exact ⟨hs ▸ hwf.sectorSize_pos, hs ▸ hlen ▸ hwf.dvd_length, hlen ▸ hwf.length_le⟩

theorem writeSector_moves (index : Nat) (buf : List Nat) :
    Moves SameShape (BlockDevice.writeSector (D := MemoryBlockDevice) index buf) := by
  intro d
  show SameShape d (finalState (writeSector index buf) d)
  unfold writeSector
  rw [finalState_get_bind]
  split_ifs with hbuf hfit
  · exact refl_of SameShape d
  · rw [finalState_set_bind]
    exact ⟨rfl, length_overwrite (by omega)⟩
  · exact refl_of SameShape d

/-- Every `write_at`, whatever its range and whether it returns or panics, leaves a device
    that `try_new` accepts: writes keep the sector size and the length. -/
theorem Wf.writeAt {d : MemoryBlockDevice} (hwf : d.Wf) (o : Nat) (buf : List Nat) :
    (finalState (writeAt (D := MemoryBlockDevice) o buf) d).Wf :=
  hwf.of_sameShape (writeAt_moves writeSector_moves o buf d)

end MemoryBlockDevice

end Muffin.Device
