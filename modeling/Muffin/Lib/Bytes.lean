-- SUMMARY: Byte sequences and the little-endian integers stored in them: slices, overwriting a range, decoding and encoding a field of `w` bytes at an offset, the frame lemmas that say what a write leaves alone, and zerocopy's checked cast of bytes to a type.
import Mathlib

/-!
# Little-endian fields

A byte is a natural number below 256 and a byte buffer a list of them.
`slice buf off len` is `buf[off..off + len]`, `overwrite buf off bytes` is
`buf[off..off + bytes.len()].copy_from_slice(bytes)`, and an unsigned integer
of `w` bytes stored least significant byte first is `decodeLE` of its bytes:
`readLE` is `uN::from_le_bytes(buf[off..off + w])` and `writeLE` stores
`n.to_le_bytes()` there.

The lemmas are those a model of a binary format needs: a read of the range
just written gives back the value, and a write changes no byte outside its
range.

`tryRefFromBytes` is zerocopy's `TryFromBytes::try_ref_from_bytes`: a reference
to a `T` is only made from exactly `size_of::<T>()` bytes whose address is a
multiple of `align_of::<T>()` and whose bit pattern is a valid `T`.
-/

namespace Bytes

/-- `buf[off..off + len]`. -/
def slice (buf : List Nat) (off len : Nat) : List Nat := (buf.drop off).take len

/-- `buf[off..off + bytes.len()].copy_from_slice(bytes)`. -/
def overwrite (buf : List Nat) (off : Nat) (bytes : List Nat) : List Nat :=
  buf.take off ++ bytes ++ buf.drop (off + bytes.length)

/-- The value of bytes read least significant first. -/
def decodeLE : List Nat → Nat
  | [] => 0
  | b :: bs => b + 256 * decodeLE bs

/-- The `w` bytes of the low `8 * w` bits of `n`, least significant first. -/
def encodeLE : Nat → Nat → List Nat
  | 0, _ => []
  | w + 1, n => n % 256 :: encodeLE w (n / 256)

/-- `uN::from_le_bytes(buf[off..off + w])`. -/
def readLE (buf : List Nat) (off w : Nat) : Nat := decodeLE (slice buf off w)

/-- `buf[off..off + w].copy_from_slice(&n.to_le_bytes())`. -/
def writeLE (buf : List Nat) (off w n : Nat) : List Nat := overwrite buf off (encodeLE w n)

@[simp] theorem decodeLE_nil : decodeLE [] = 0 := rfl

@[simp] theorem decodeLE_cons (b : Nat) (bs : List Nat) :
    decodeLE (b :: bs) = b + 256 * decodeLE bs := rfl

@[simp] theorem encodeLE_zero (n : Nat) : encodeLE 0 n = [] := rfl

@[simp] theorem encodeLE_succ (w n : Nat) :
    encodeLE (w + 1) n = n % 256 :: encodeLE w (n / 256) := rfl

@[simp] theorem length_encodeLE (w n : Nat) : (encodeLE w n).length = w := by
  induction w generalizing n with
  | zero => rfl
  | succ w ih => simp [ih]

/-- Writing and reading back keeps the low `8 * w` bits. -/
@[simp] theorem decodeLE_encodeLE (w n : Nat) : decodeLE (encodeLE w n) = n % 256 ^ w := by
  induction w generalizing n with
  | zero => simp [Nat.mod_one]
  | succ w ih =>
    rw [encodeLE_succ, decodeLE_cons, ih, Nat.pow_succ, Nat.mul_comm (256 ^ w) 256, Nat.mod_mul]

theorem length_slice_of_le {buf : List Nat} {off len : Nat} (h : off + len ≤ buf.length) :
    (slice buf off len).length = len := by
  simp only [slice, List.length_take, List.length_drop]
  omega

/-- A slice of a slice that stays inside it is a slice of the buffer. -/
theorem slice_slice {buf : List Nat} {off len off' len' : Nat} (h : off' + len' ≤ len) :
    slice (slice buf off len) off' len' = slice buf (off + off') len' := by
  simp only [slice, List.drop_take, List.take_take, List.drop_drop]
  rw [Nat.min_eq_left (by omega)]

@[simp] theorem slice_append_middle (a b c : List Nat) : slice (a ++ b ++ c) a.length b.length = b := by
  simp [slice]

/-- The bytes after a prefix. -/
theorem slice_append_of_length {a b : List Nat} {off : Nat} (h : a.length = off) (len : Nat) :
    slice (a ++ b) off len = b.take len := by
  rw [slice, ← h, List.drop_left]

/-- Overwriting a part of a buffer with as many bytes. -/
theorem overwrite_append_of_length {a b c bytes : List Nat} (h : bytes.length = b.length) :
    overwrite (a ++ b ++ c) a.length bytes = a ++ bytes ++ c := by
  have ht : (a ++ b ++ c).take a.length = a := by rw [List.append_assoc, List.take_left]
  have hd : (a ++ b ++ c).drop (a.length + b.length) = c := by rw [← List.length_append, List.drop_left]
  rw [overwrite, h, ht, hd]

/-- A field read where it was encoded. -/
theorem readLE_append_encodeLE {a b : List Nat} {off : Nat} (h : a.length = off) (w n : Nat) :
    readLE (a ++ (encodeLE w n ++ b)) off w = n % 256 ^ w := by
  rw [readLE, slice_append_of_length h, List.take_left' (length_encodeLE w n), decodeLE_encodeLE]

/-- A byte read where it stands. -/
theorem readLE_append_cons {a b : List Nat} {off : Nat} (h : a.length = off) (x : Nat) :
    readLE (a ++ x :: b) off 1 = x := by
  rw [readLE, slice_append_of_length h]
  simp

theorem getElem?_slice (buf : List Nat) (off len i : Nat) :
    (slice buf off len)[i]? = if i < len then buf[off + i]? else none := by
  unfold slice
  split <;> rename_i hi
  · rw [List.getElem?_take_of_lt hi, List.getElem?_drop]
  · rw [List.getElem?_eq_none]
    simp only [List.length_take]
    omega

theorem length_overwrite {buf : List Nat} {off : Nat} {bytes : List Nat}
    (h : off + bytes.length ≤ buf.length) : (overwrite buf off bytes).length = buf.length := by
  simp only [overwrite, List.length_append, List.length_take, List.length_drop]
  omega

/-- A byte of an overwritten buffer: from `bytes` inside the range, from `buf` outside it. -/
theorem getElem?_overwrite {buf : List Nat} {off : Nat} {bytes : List Nat} (h : off ≤ buf.length)
    (i : Nat) : (overwrite buf off bytes)[i]? =
      if i < off then buf[i]? else if i < off + bytes.length then bytes[i - off]? else buf[i]? := by
  have htake : (buf.take off).length = off := by simp only [List.length_take]; omega
  unfold overwrite
  split_ifs with h₁ h₂
  · rw [List.append_assoc, List.getElem?_append_left (by omega), List.getElem?_take_of_lt h₁]
  · rw [List.getElem?_append_left (by simp only [List.length_append]; omega),
      List.getElem?_append_right (by omega), htake]
  · rw [List.getElem?_append_right (by simp only [List.length_append]; omega),
      List.getElem?_drop]
    simp only [List.length_append, htake]
    congr 1
    omega

/-- The range just overwritten reads back as the bytes written. -/
theorem slice_overwrite_self {buf : List Nat} {off : Nat} {bytes : List Nat}
    (h : off + bytes.length ≤ buf.length) : slice (overwrite buf off bytes) off bytes.length = bytes := by
  apply List.ext_getElem?
  intro i
  rw [getElem?_slice, getElem?_overwrite (by omega)]
  by_cases hi : i < bytes.length
  · rw [if_pos hi, if_neg (by omega), if_pos (by omega), Nat.add_sub_cancel_left]
  · rw [if_neg hi]
    exact (List.getElem?_eq_none (by omega)).symm

/-- The same, for a range whose length is given as `n`. -/
theorem slice_overwrite_of_length {buf : List Nat} {off n : Nat} {bytes : List Nat}
    (hn : bytes.length = n) (h : off + n ≤ buf.length) : slice (overwrite buf off bytes) off n = bytes := by
  subst hn
  exact slice_overwrite_self h

/-- A range that does not meet the overwritten one reads as before. -/
theorem slice_overwrite_of_disjoint {buf : List Nat} {off : Nat} {bytes : List Nat} {off' len : Nat}
    (h : off ≤ buf.length) (hd : off' + len ≤ off ∨ off + bytes.length ≤ off') :
    slice (overwrite buf off bytes) off' len = slice buf off' len := by
  apply List.ext_getElem?
  intro i
  rw [getElem?_slice, getElem?_slice, getElem?_overwrite h]
  split_ifs <;> first | rfl | omega

/-- A field just written reads back as its value modulo `256 ^ w`. -/
@[simp] theorem readLE_writeLE_self {buf : List Nat} {off w n : Nat} (h : off + w ≤ buf.length) :
    readLE (writeLE buf off w n) off w = n % 256 ^ w := by
  have h' : off + (encodeLE w n).length ≤ buf.length := by rw [length_encodeLE]; exact h
  unfold readLE writeLE
  have hs := slice_overwrite_self h'
  rw [length_encodeLE] at hs
  rw [hs, decodeLE_encodeLE]

theorem readLE_writeLE_of_disjoint {buf : List Nat} {off w n off' w' : Nat} (h : off ≤ buf.length)
    (hd : off' + w' ≤ off ∨ off + w ≤ off') : readLE (writeLE buf off w n) off' w' = readLE buf off' w' := by
  unfold readLE writeLE
  rw [slice_overwrite_of_disjoint h (by rw [length_encodeLE]; exact hd)]

theorem length_writeLE {buf : List Nat} {off w n : Nat} (h : off + w ≤ buf.length) :
    (writeLE buf off w n).length = buf.length :=
  length_overwrite (by rw [length_encodeLE]; exact h)

/-- A byte outside the overwritten range reads as before. -/
theorem getElem?_overwrite_of_not_mem {buf : List Nat} {off : Nat} {bytes : List Nat}
    (h : off ≤ buf.length) {i : Nat} (hi : i < off ∨ off + bytes.length ≤ i) :
    (overwrite buf off bytes)[i]? = buf[i]? := by
  rw [getElem?_overwrite h]
  split_ifs <;> first | rfl | omega

/-- Writing back the bytes just read changes nothing. -/
theorem overwrite_slice_self {buf : List Nat} {off len : Nat} (h : off + len ≤ buf.length) :
    overwrite buf off (slice buf off len) = buf := by
  apply List.ext_getElem?
  intro i
  rw [getElem?_overwrite (by omega), length_slice_of_le h, getElem?_slice]
  split_ifs <;> first | rfl | omega | (congr 1; omega)

/-- Reading a range, changing part of it and writing it back changes that part only. -/
theorem overwrite_slice_overwrite {buf : List Nat} {off len i : Nat} {bytes : List Nat}
    (h : off + len ≤ buf.length) (hi : i + bytes.length ≤ len) :
    overwrite buf off (overwrite (slice buf off len) i bytes) = overwrite buf (off + i) bytes := by
  have hlen : (slice buf off len).length = len := length_slice_of_le h
  have hinner : (overwrite (slice buf off len) i bytes).length = len := by
    rw [length_overwrite (by rw [hlen]; exact hi), hlen]
  apply List.ext_getElem?
  intro j
  rw [getElem?_overwrite (show off ≤ buf.length by omega),
    getElem?_overwrite (show off + i ≤ buf.length by omega), hinner,
    getElem?_overwrite (show i ≤ (slice buf off len).length by omega), getElem?_slice]
  split_ifs <;> first | rfl | omega | (congr 1; omega)

theorem slice_append_slice (buf : List Nat) (off a b : Nat) :
    slice buf off a ++ slice buf (off + a) b = slice buf off (a + b) := by
  simp only [slice, List.take_add, List.drop_drop]

/-- A buffer cut at `h` and `t` into its head, the slice between and its tail. -/
theorem take_append_slice_append_drop (buf : List Nat) {h t : Nat} (hht : h ≤ t) :
    buf.take h ++ slice buf h (t - h) ++ buf.drop t = buf := by
  rw [slice, ← List.take_add, Nat.add_sub_cancel' hht, List.take_append_drop]

/-- A range inside the overwritten one reads from the bytes written. -/
theorem slice_overwrite_of_le {buf : List Nat} {off : Nat} {bytes : List Nat} {i len : Nat}
    (h : off + bytes.length ≤ buf.length) (hi : i + len ≤ bytes.length) :
    slice (overwrite buf off bytes) (off + i) len = slice bytes i len := by
  apply List.ext_getElem?
  intro j
  rw [getElem?_slice, getElem?_slice, getElem?_overwrite (by omega)]
  split_ifs <;> first | rfl | omega | (congr 1; omega)

/-- Overwriting with `a ++ b` overwrites with `a`, then with `b` right after it. -/
theorem overwrite_append {buf : List Nat} {off : Nat} {a b : List Nat}
    (h : off + a.length + b.length ≤ buf.length) :
    overwrite buf off (a ++ b) = overwrite (overwrite buf off a) (off + a.length) b := by
  have ha : (overwrite buf off a).length = buf.length := length_overwrite (by omega)
  apply List.ext_getElem?
  intro i
  rw [getElem?_overwrite (by omega), getElem?_overwrite (by omega), getElem?_overwrite (by omega),
    List.length_append]
  split_ifs <;> first
    | rfl
    | omega
    | rw [List.getElem?_append_left (by omega)]
    | (rw [List.getElem?_append_right (by omega)]; congr 1; omega)

/-- Three writes one right after the other are one write of the three. -/
theorem overwrite_append_append {buf : List Nat} {off : Nat} {a b c : List Nat}
    (h : off + a.length + b.length + c.length ≤ buf.length) :
    overwrite (overwrite (overwrite buf off a) (off + a.length) b) (off + a.length + b.length) c =
      overwrite buf off (a ++ b ++ c) := by
  have hab : (a ++ b).length = a.length + b.length := List.length_append
  rw [@overwrite_append buf off (a ++ b) c (by omega), hab, @overwrite_append buf off a b (by omega),
    Nat.add_assoc]

/-- Overwrites of two ranges that do not meet commute. -/
theorem overwrite_comm {buf : List Nat} {off off' : Nat} {a b : List Nat}
    (ha : off + a.length ≤ buf.length) (hb : off' + b.length ≤ buf.length)
    (hd : off + a.length ≤ off' ∨ off' + b.length ≤ off) :
    overwrite (overwrite buf off a) off' b = overwrite (overwrite buf off' b) off a := by
  apply List.ext_getElem?
  intro i
  rw [getElem?_overwrite (by rw [length_overwrite ha]; omega), getElem?_overwrite (by omega),
    getElem?_overwrite (by rw [length_overwrite hb]; omega), getElem?_overwrite (by omega)]
  split_ifs <;> first | rfl | omega

/-- Setting one byte overwrites a range of one. -/
theorem set_eq_overwrite {buf : List Nat} {i x : Nat} (h : i < buf.length) :
    buf.set i x = overwrite buf i [x] := by
  apply List.ext_getElem?
  intro j
  rw [List.getElem?_set, getElem?_overwrite (by omega)]
  simp only [List.length_singleton]
  split_ifs <;> first | rfl | omega | simp_all

@[simp] theorem overwrite_nil (buf : List Nat) (off : Nat) : overwrite buf off [] = buf := by
  simp only [overwrite, List.append_nil, List.length_nil, Nat.add_zero, List.take_append_drop]

/-- Two ranges written one after the other, in two places: a write of `a₁` at `w` and `b₁` at
    `s`, followed by `a₂` right after `a₁` and `b₂` right after `b₁`, is one write of `a₁ ++ a₂`
    and one of `b₁ ++ b₂`, when the first place ends before the second begins. -/
theorem overwrite_overwrite_append {buf : List Nat} {w s : Nat} {a₁ a₂ b₁ b₂ : List Nat}
    (hw : w + a₁.length + a₂.length ≤ s) (hs : s + b₁.length + b₂.length ≤ buf.length) :
    overwrite (overwrite (overwrite (overwrite buf w a₁) s b₁) (w + a₁.length) a₂) (s + b₁.length) b₂ =
      overwrite (overwrite buf w (a₁ ++ a₂)) s (b₁ ++ b₂) := by
  have h₁ : (overwrite buf w a₁).length = buf.length := length_overwrite (by omega)
  have h₂ : (overwrite (overwrite buf w a₁) (w + a₁.length) a₂).length = buf.length := by
    rw [length_overwrite (by rw [h₁]; omega), h₁]
  rw [@overwrite_append buf w a₁ a₂ (by omega), @overwrite_append _ s b₁ b₂ (by rw [h₂]; omega),
    @overwrite_comm (overwrite buf w a₁) s (w + a₁.length) b₁ a₂ (by rw [h₁]; omega)
      (by rw [h₁]; omega) (.inr (by omega))]

/-- The first place alone grows: a write of `a₂` right after `a₁` joins it. -/
theorem overwrite_overwrite_append_left {buf : List Nat} {w s : Nat} {a₁ a₂ b : List Nat}
    (hw : w + a₁.length + a₂.length ≤ s) (hs : s + b.length ≤ buf.length) :
    overwrite (overwrite (overwrite buf w a₁) s b) (w + a₁.length) a₂ =
      overwrite (overwrite buf w (a₁ ++ a₂)) s b := by
  have h := @overwrite_overwrite_append buf w s a₁ a₂ b [] hw (by simp only [List.length_nil]; omega)
  rwa [overwrite_nil, List.append_nil] at h

/-- Field `k` of the `w`-byte encodings of a list of values is the encoding of value `k`. -/
theorem slice_flatten_encodeLE (w : Nat) :
    ∀ {vs : List Nat} {k : Nat} (hk : k < vs.length),
      slice (vs.map (encodeLE w)).flatten (w * k) w = encodeLE w vs[k]
  | [], _, hk => absurd hk (Nat.not_lt_zero _)
  | v :: vs, 0, _ => by
    simp only [List.map_cons, List.flatten_cons, Nat.mul_zero, List.getElem_cons_zero]
    unfold slice
    rw [List.drop_zero, List.take_append_of_le_length (by simp), List.take_of_length_le (by simp)]
  | v :: vs, k + 1, hk => by
    simp only [List.map_cons, List.flatten_cons, List.getElem_cons_succ]
    unfold slice
    rw [show w * (k + 1) = (encodeLE w v).length + w * k by rw [length_encodeLE, Nat.mul_succ]; omega,
      List.drop_length_add_append]
    exact slice_flatten_encodeLE w (Nat.lt_of_succ_lt_succ hk)

/-- The array a struct of `size` bytes whose fields cover the byte ranges `fields` converts back
    to: each field at its offset, and zeros between the fields. -/
def mask (size : Nat) (fields : List (Nat × Nat)) (buf : List Nat) : List Nat :=
  (List.range size).map fun i => if fields.any (fun r => r.1 ≤ i && i < r.2) then buf.getD i 0 else 0

@[simp] theorem length_mask (size : Nat) (fields : List (Nat × Nat)) (buf : List Nat) :
    (mask size fields buf).length = size := by
  simp [mask]

-- ---------------------------------------------------------------------------
-- Casting bytes to a type
-- ---------------------------------------------------------------------------

/-- zerocopy's `TryCastError`, by the check that failed. -/
inductive CastError where
  | size
  | alignment
  | validity
  deriving DecidableEq, Repr

/-- `T::try_ref_from_bytes(bytes)` for a `T` of `size` bytes and alignment `align`, for bytes
    whose first one is at address `addr`. `decode` reads a `T` from its bytes, or refuses an
    invalid bit pattern. -/
def tryRefFromBytes {α : Type} (size align : Nat) (decode : List Nat → Option α) (addr : Nat)
    (bytes : List Nat) : Except CastError α :=
  if bytes.length ≠ size then .error .size
  else if addr % align ≠ 0 then .error .alignment
  else match decode bytes with
    | some a => .ok a
    | none => .error .validity

/-- The cast fails at an address that is not a multiple of the alignment, whatever the bytes. -/
theorem tryRefFromBytes_misaligned {α : Type} {size align : Nat} {decode : List Nat → Option α}
    {addr : Nat} {bytes : List Nat} (h : addr % align ≠ 0) :
    ∃ e, tryRefFromBytes size align decode addr bytes = .error e := by
  unfold tryRefFromBytes
  by_cases hs : bytes.length ≠ size
  · exact ⟨.size, if_pos hs⟩
  · exact ⟨.alignment, by rw [if_neg hs, if_pos h]⟩

/-- Only the address's residue modulo the alignment matters. -/
theorem tryRefFromBytes_congr_addr {α : Type} {size align : Nat} {decode : List Nat → Option α}
    {addr addr' : Nat} (h : addr % align = addr' % align) (bytes : List Nat) :
    tryRefFromBytes size align decode addr bytes = tryRefFromBytes size align decode addr' bytes := by
  unfold tryRefFromBytes
  rw [h]

end Bytes
