-- SUMMARY: Records of little-endian words at fixed offsets in a byte array: reading every field, writing every field into zeros, and the two round trips, exact on the values and, on the bytes, exact only where the fields cover the array.
import Muffin.Lib.Bytes

/-!
# Fixed layouts of little-endian words

A fixed layout lists slots: each is `count` little-endian words of `width` bytes
from a byte `offset` of an array of `size` bytes. `decodeFields` reads every
slot from an array; `encodeFields` writes every slot, in order, into an array
of zeros.

Writing then reading gives the values back, for values that fit their slots,
when the slots lie in the array and share no byte (`decodeFields_encodeFields`).
Reading then writing gives back the bytes the slots cover and zeros everywhere
else (`encodeFields_decodeFields`), overlapping slots or not: it is the identity
on byte arrays only when the slots cover the whole array, and it loses every
byte they do not cover (`mask_ne_self`).
-/

namespace Bytes

/-- A field of a fixed layout: `count` little-endian words of `width` bytes each, from byte
    `offset` on. -/
structure Slot where
  offset : Nat
  width : Nat
  count : Nat
  deriving DecidableEq, Repr

namespace Slot

/-- The number of bytes the slot takes. -/
def size (s : Slot) : Nat := s.width * s.count

/-- The slot's bytes as the half-open range `mask` takes. -/
def range (s : Slot) : Nat × Nat := (s.offset, s.offset + s.size)

/-- The slot's words, read from `buf`. -/
def read (s : Slot) (buf : List Nat) : List Nat :=
  (List.range s.count).map fun k => readLE buf (s.offset + k * s.width) s.width

/-- `words` written into `buf`, one after the other from the slot's offset. -/
def write (s : Slot) (buf : List Nat) (words : List Nat) : List Nat :=
  overwrite buf s.offset (words.map (encodeLE s.width)).flatten

/-- The words a slot holds: `count` of them, each below `256 ^ width`. -/
def Fits (s : Slot) (words : List Nat) : Prop :=
  words.length = s.count ∧ ∀ w ∈ words, w < 256 ^ s.width

/-- Two slots that share no byte. -/
def Disjoint (s t : Slot) : Prop := s.offset + s.size ≤ t.offset ∨ t.offset + t.size ≤ s.offset

instance (s t : Slot) : Decidable (s.Disjoint t) := inferInstanceAs (Decidable (_ ∨ _))

end Slot

/-- Every slot read from `buf`. -/
def decodeFields (slots : List Slot) (buf : List Nat) : List (List Nat) := slots.map (·.read buf)

/-- Every slot written, in order, into `size` zero bytes. -/
def encodeFields (slots : List Slot) (size : Nat) (values : List (List Nat)) : List Nat :=
  (slots.zip values).foldl (fun buf sv => sv.1.write buf sv.2) (List.replicate size 0)

-- ---------------------------------------------------------------------------
-- Words and their bytes
-- ---------------------------------------------------------------------------

/-- Bytes read as a word and written back are the bytes. -/
theorem encodeLE_decodeLE : ∀ {bytes : List Nat}, (∀ b ∈ bytes, b < 256) →
    encodeLE bytes.length (decodeLE bytes) = bytes
  | [], _ => rfl
  | b :: bs, h => by
    have hb := h b List.mem_cons_self
    rw [List.length_cons, encodeLE_succ, decodeLE_cons,
      show (b + 256 * decodeLE bs) % 256 = b by omega,
      show (b + 256 * decodeLE bs) / 256 = decodeLE bs by omega,
      encodeLE_decodeLE fun x hx => h x (List.mem_cons_of_mem b hx)]

theorem length_flatten_encodeLE (w : Nat) :
    ∀ words : List Nat, ((words.map (encodeLE w)).flatten).length = w * words.length
  | [] => rfl
  | v :: vs => by
    rw [List.map_cons, List.flatten_cons, List.length_append, length_encodeLE,
      length_flatten_encodeLE w vs, List.length_cons, Nat.mul_succ, Nat.add_comm]

namespace Slot

variable {s t : Slot} {buf : List Nat} {words : List Nat}

@[simp] theorem length_read (s : Slot) (buf : List Nat) : (s.read buf).length = s.count := by
  simp [read]

theorem length_flatten (hlen : words.length = s.count) :
    ((words.map (encodeLE s.width)).flatten).length = s.size := by
  rw [length_flatten_encodeLE, hlen, size]

theorem length_write (hin : s.offset + s.size ≤ buf.length) (hlen : words.length = s.count) :
    (s.write buf words).length = buf.length :=
  length_overwrite (by rw [length_flatten hlen]; exact hin)

/-- Word `k` of a slot lies inside the slot. -/
theorem word_le_size {k : Nat} (hk : k < s.count) : k * s.width + s.width ≤ s.size := by
  have := Nat.mul_le_mul_right s.width (Nat.succ_le_of_lt hk)
  rw [Nat.succ_mul] at this
  rw [size, Nat.mul_comm s.width]
  exact this

/-- A slot just written reads back as the words written. -/
theorem read_write (hin : s.offset + s.size ≤ buf.length) (hfit : s.Fits words) :
    s.read (s.write buf words) = words := by
  have hflat := length_flatten hfit.1
  apply List.ext_getElem (by rw [length_read, hfit.1])
  intro k hk hk'
  rw [length_read] at hk
  have hword := word_le_size hk
  simp only [Slot.read, List.getElem_map, List.getElem_range]
  rw [readLE, write, slice_overwrite_of_le (by rw [hflat]; exact hin) (by rw [hflat]; exact hword), Nat.mul_comm,
    slice_flatten_encodeLE s.width hk', decodeLE_encodeLE, Nat.mod_eq_of_lt (hfit.2 _ (List.getElem_mem hk'))]

/-- A write of another slot that shares no byte leaves a slot's words as they were. -/
theorem read_write_of_disjoint (hd : s.Disjoint t) (hin : t.offset ≤ buf.length)
    (hlen : words.length = t.count) :
    s.read (t.write buf words) = s.read buf := by
  refine List.map_congr_left fun k hk => ?_
  have hword := word_le_size (List.mem_range.1 hk)
  unfold readLE write
  rw [slice_overwrite_of_disjoint hin (by rw [length_flatten hlen]; unfold Disjoint at hd; omega)]

/-- The words of a slot of a byte array, written back as bytes, are its bytes. -/
theorem flatten_read (hbytes : ∀ b ∈ buf, b < 256) :
    ∀ {s : Slot}, s.offset + s.size ≤ buf.length →
      ((s.read buf).map (encodeLE s.width)).flatten = slice buf s.offset s.size
  | ⟨off, w, 0⟩, _ => by simp [read, size, slice]
  | ⟨off, w, n + 1⟩, hin => by
    -- the first `n` words, then the last one
    have hprev := @flatten_read hbytes ⟨off, w, n⟩
      (by simp only [size] at hin ⊢; rw [Nat.mul_succ] at hin; omega)
    simp only [read, size] at hprev hin ⊢
    have hlast : off + n * w + w ≤ buf.length := by rw [Nat.mul_succ] at hin; rw [Nat.mul_comm]; omega
    have hslice : slice buf (off + n * w) w = slice buf (off + w * n) w := by rw [Nat.mul_comm]
    rw [List.range_succ, List.map_append, List.map_append, List.flatten_append, hprev, List.map_singleton,
      List.map_singleton, List.flatten_singleton, readLE]
    -- the last word's bytes come back as they were read
    have hword : encodeLE w (decodeLE (slice buf (off + n * w) w)) = slice buf (off + n * w) w := by
      have h : encodeLE (slice buf (off + n * w) w).length (decodeLE (slice buf (off + n * w) w)) =
          slice buf (off + n * w) w :=
        encodeLE_decodeLE fun b hb => hbytes b (List.mem_of_mem_drop (List.mem_of_mem_take hb))
      rwa [length_slice_of_le hlast] at h
    rw [hword, hslice, slice_append_slice, Nat.mul_succ]

/-- A slot of `buf` read and written into `acc` puts the bytes of `buf` in the slot's range. -/
theorem getElem?_write_read {acc : List Nat} (hbytes : ∀ b ∈ buf, b < 256)
    (hin : s.offset + s.size ≤ buf.length) (hacc : acc.length = buf.length) (i : Nat) :
    (s.write acc (s.read buf))[i]? =
      if s.offset ≤ i ∧ i < s.offset + s.size then buf[i]? else acc[i]? := by
  unfold write
  rw [flatten_read hbytes hin, getElem?_overwrite (by omega), length_slice_of_le hin, getElem?_slice]
  split_ifs <;> first | rfl | omega | (congr 1; omega)

end Slot

-- ---------------------------------------------------------------------------
-- Both round trips
-- ---------------------------------------------------------------------------

section RoundTrips

variable {slots : List Slot} {values : List (List Nat)} {buf : List Nat} {size : Nat}

/-- Writes of slots that share no byte with `s` leave its words as they were. -/
theorem read_foldl_write_of_disjoint {s : Slot} (hfits : List.Forall₂ Slot.Fits slots values)
    (hd : ∀ t ∈ slots, s.Disjoint t) :
    ∀ {buf : List Nat}, (∀ t ∈ slots, t.offset + t.size ≤ buf.length) →
      s.read ((slots.zip values).foldl (fun buf sv => sv.1.write buf sv.2) buf) = s.read buf := by
  induction hfits with
  | nil => intro buf _; rfl
  | @cons t v ts vs hv _ ih =>
    intro buf hin
    have ht := hin t List.mem_cons_self
    rw [List.zip_cons_cons, List.foldl_cons]
    rw [ih (fun u hu => hd u (List.mem_cons_of_mem t hu))
        (fun u hu => by rw [Slot.length_write ht hv.1]; exact hin u (List.mem_cons_of_mem t hu)),
      Slot.read_write_of_disjoint (hd t List.mem_cons_self) (by omega) hv.1]

/-- Written in order into `buf`, slots that share no byte read back as the values written. -/
theorem decodeFields_foldl_write (hfits : List.Forall₂ Slot.Fits slots values)
    (hdisj : slots.Pairwise Slot.Disjoint) :
    ∀ {buf : List Nat}, (∀ s ∈ slots, s.offset + s.size ≤ buf.length) →
      decodeFields slots ((slots.zip values).foldl (fun buf sv => sv.1.write buf sv.2) buf) = values := by
  induction hfits with
  | nil => intro buf _; rfl
  | @cons s v ss vs hv hrest ih =>
    intro buf hin
    obtain ⟨hds, hdisj'⟩ := List.pairwise_cons.1 hdisj
    have hs := hin s List.mem_cons_self
    have hin' : ∀ t ∈ ss, t.offset + t.size ≤ (s.write buf v).length := fun t ht => by
      rw [Slot.length_write hs hv.1]
      exact hin t (List.mem_cons_of_mem s ht)
    rw [List.zip_cons_cons, List.foldl_cons, decodeFields, List.map_cons]
    -- the first slot is not touched by the writes after it, and the rest is the induction
    rw [read_foldl_write_of_disjoint hrest hds hin', Slot.read_write hs hv]
    exact congrArg (v :: ·) (ih hdisj' hin')

/-- A record whose values fit their slots, which lie in the array and share no byte, is read
    back from the array it is written to. -/
theorem decodeFields_encodeFields (hfits : List.Forall₂ Slot.Fits slots values)
    (hdisj : slots.Pairwise Slot.Disjoint) (hin : ∀ s ∈ slots, s.offset + s.size ≤ size) :
    decodeFields slots (encodeFields slots size values) = values :=
  decodeFields_foldl_write hfits hdisj fun s hs => by
    rw [List.length_replicate]
    exact hin s hs

/-- Slots of `buf` read and written into `acc`: the bytes of `buf` where a slot covers them,
    those of `acc` elsewhere. -/
theorem getElem?_foldl_write_read (hbytes : ∀ b ∈ buf, b < 256) :
    ∀ {slots : List Slot}, (∀ s ∈ slots, s.offset + s.size ≤ buf.length) →
      ∀ {acc : List Nat}, acc.length = buf.length → ∀ i,
        ((slots.map fun s => (s, s.read buf)).foldl (fun buf sv => sv.1.write buf sv.2) acc)[i]? =
          if slots.any (fun s => s.offset ≤ i && i < s.offset + s.size) then buf[i]? else acc[i]?
  | [], _, _, _, i => rfl
  | s :: slots, hin, acc, hacc, i => by
    have hs := hin s List.mem_cons_self
    have hacc' : (s.write acc (s.read buf)).length = buf.length := by
      rw [Slot.length_write (by omega) (Slot.length_read s buf), hacc]
    rw [List.map_cons, List.foldl_cons,
      getElem?_foldl_write_read hbytes (fun t ht => hin t (List.mem_cons_of_mem s ht)) hacc' i,
      Slot.getElem?_write_read hbytes hs hacc i, List.any_cons]
    by_cases hcov : s.offset ≤ i ∧ i < s.offset + s.size
    · simp [hcov]
    · have hcov' : (decide (s.offset ≤ i) && decide (i < s.offset + s.size)) = false := by
        simpa using hcov
      rw [if_neg hcov, hcov', Bool.false_or]

/-- A record read from a byte array and written back: the bytes its slots cover, and zeros
    everywhere else. -/
theorem encodeFields_decodeFields (hbytes : ∀ b ∈ buf, b < 256) (hlen : buf.length = size)
    (hin : ∀ s ∈ slots, s.offset + s.size ≤ size) :
    encodeFields slots size (decodeFields slots buf) = mask size (slots.map Slot.range) buf := by
  have hzip : slots.zip (decodeFields slots buf) = slots.map fun s => (s, s.read buf) :=
    List.map_prod_left_eq_zip.symm
  apply List.ext_getElem?
  intro i
  rw [encodeFields, hzip, getElem?_foldl_write_read hbytes (fun s hs => hlen ▸ hin s hs)
    (by rw [List.length_replicate, hlen]) i, mask, List.getElem?_map]
  by_cases hi : i < size
  · have hbuf : buf[i]? = some (buf.getD i 0) := by
      rw [List.getD_eq_getElem?_getD, List.getElem?_eq_getElem (by omega)]
      rfl
    rw [List.getElem?_range hi, Option.map_some, List.getElem?_replicate_of_lt hi]
    -- a slot covers the byte exactly when its range does
    have hcov : ((slots.any fun s => decide (s.offset ≤ i) && decide (i < s.offset + s.size)) = true) ↔
        (((slots.map Slot.range).any fun r => decide (r.1 ≤ i) && decide (i < r.2)) = true) := by
      rw [List.any_map]
      exact Iff.rfl
    by_cases hc : (slots.any fun s => decide (s.offset ≤ i) && decide (i < s.offset + s.size)) = true
    · rw [if_pos hc, if_pos (hcov.1 hc), hbuf]
    · rw [if_neg hc, if_neg (fun h => hc (hcov.2 h))]
  · have hrange : (List.range size)[i]? = none := List.getElem?_eq_none (by simp; omega)
    have hzero : (List.replicate size 0)[i]? = none := List.getElem?_eq_none (by simp; omega)
    have hbuf : buf[i]? = none := List.getElem?_eq_none (by omega)
    rw [hrange, Option.map_none, hzero, hbuf]
    split_ifs <;> rfl

end RoundTrips

-- ---------------------------------------------------------------------------
-- Which bytes the round trip keeps
-- ---------------------------------------------------------------------------

/-- Whether one of `fields` covers byte `i`. -/
def Covered (fields : List (Nat × Nat)) (i : Nat) : Bool := fields.any fun r => r.1 ≤ i && i < r.2

@[simp] theorem covered_nil (i : Nat) : Covered [] i = false := rfl

@[simp] theorem covered_cons (r : Nat × Nat) (fields : List (Nat × Nat)) (i : Nat) :
    Covered (r :: fields) i = (r.1 ≤ i && i < r.2 || Covered fields i) := rfl

theorem getElem?_mask {size : Nat} {fields : List (Nat × Nat)} {buf : List Nat} {i : Nat} (hi : i < size) :
    (mask size fields buf)[i]? = some (if Covered fields i then buf.getD i 0 else 0) := by
  rw [mask, List.getElem?_map, List.getElem?_range hi, Option.map_some]
  rfl

/-- Ranges that cover the same bytes of the array mask it alike. -/
theorem mask_congr {size : Nat} {fields fields' : List (Nat × Nat)}
    (h : ∀ i < size, Covered fields i = Covered fields' i) (buf : List Nat) :
    mask size fields buf = mask size fields' buf := by
  apply List.ext_getElem?
  intro i
  by_cases hi : i < size
  · rw [getElem?_mask hi, getElem?_mask hi, h i hi]
  · rw [List.getElem?_eq_none (by simp; omega), List.getElem?_eq_none (by simp; omega)]

/-- Ranges that cover every byte of the array keep it whole. -/
theorem mask_eq_self {size : Nat} {fields : List (Nat × Nat)} {buf : List Nat}
    (hcov : ∀ i < size, Covered fields i) (hlen : buf.length = size) : mask size fields buf = buf := by
  apply List.ext_getElem?
  intro i
  by_cases hi : i < size
  · rw [getElem?_mask hi, if_pos (hcov i hi), List.getD_eq_getElem?_getD,
      List.getElem?_eq_getElem (by omega)]
    rfl
  · rw [List.getElem?_eq_none (by simp; omega), List.getElem?_eq_none (by omega)]

/-- A byte that no range covers is zero. -/
theorem getElem?_mask_of_not_covered {size : Nat} {fields : List (Nat × Nat)} {buf : List Nat}
    {i : Nat} (hi : i < size) (hcov : Covered fields i = false) : (mask size fields buf)[i]? = some 0 := by
  rw [getElem?_mask hi, hcov, if_neg Bool.false_ne_true]

/-- A byte that no range covers and that is not zero is lost. -/
theorem mask_ne_self {size : Nat} {fields : List (Nat × Nat)} {buf : List Nat} {i : Nat}
    (hi : i < size) (hcov : Covered fields i = false) (hbyte : buf[i]? ≠ some 0) :
    mask size fields buf ≠ buf := by
  intro heq
  have h : (mask size fields buf)[i]? = some 0 := getElem?_mask_of_not_covered hi hcov
  rw [heq] at h
  exact hbyte h

/-- Ranges with each one that ends where the next begins merged into it. -/
def coalesce : List (Nat × Nat) → List (Nat × Nat)
  | [] => []
  | r :: rs =>
    match coalesce rs with
    | r' :: rest => if r.1 ≤ r.2 ∧ r.2 = r'.1 ∧ r'.1 ≤ r'.2 then (r.1, r'.2) :: rest else r :: r' :: rest
    | [] => [r]

/-- Merging adjacent ranges covers the same bytes. -/
theorem covered_coalesce (fields : List (Nat × Nat)) (i : Nat) :
    Covered (coalesce fields) i = Covered fields i := by
  induction fields with
  | nil => rfl
  | cons r rs ih =>
    rw [covered_cons, ← ih, coalesce]
    cases hco : coalesce rs with
    | nil => rfl
    | cons r' rest =>
      dsimp only
      split_ifs with hmerge
      · -- `[r.1, r'.2)` is `[r.1, r.2)` and `[r'.1, r'.2)` side by side
        obtain ⟨h₁, h₂, h₃⟩ := hmerge
        rw [covered_cons, covered_cons, ← Bool.or_assoc]
        congr 1
        rw [Bool.eq_iff_iff]
        simp only [Bool.or_eq_true, Bool.and_eq_true, decide_eq_true_eq]
        omega
      · rfl

theorem mask_coalesce (size : Nat) (fields : List (Nat × Nat)) (buf : List Nat) :
    mask size (coalesce fields) buf = mask size fields buf :=
  mask_congr (fun i _ => covered_coalesce fields i) buf

end Bytes
