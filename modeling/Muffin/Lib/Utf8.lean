-- SUMMARY: The bytes of a Rust `str`: `as_bytes` as the UTF-8 encoding of its characters, `is_char_boundary` on those bytes and `str::from_utf8`; the boundaries are exactly the ends of whole-character prefixes, the greatest one below a bound ends the longest prefix that fits, and the bytes of whole characters decode back to them.
import Muffin.Lib.Str

/-!
# The bytes of a string

`Muffin.Lib.Str` models a `str` by its characters and counts its bytes with
`Char.utf8Size`. Code that copies a string's bytes needs the bytes themselves:
`asBytes` is `str::as_bytes`, the UTF-8 encoding of the characters (the encoding
of core, `String.utf8EncodeChar`). `isCharBoundary` is `str::is_char_boundary`
as `core` computes it, from the byte at the index: every byte but the
continuation bytes `0x80..=0xBF` starts a character.

The boundaries of a string are the byte lengths of its prefixes
(`isCharBoundary_iff`); the greatest one up to `m` ends `fitting m s`, the longest
prefix of whole characters that fits in `m` bytes; and the bytes of whole
characters are valid UTF-8, which `str::from_utf8` decodes back to them
(`fromUtf8_asBytes`).
-/

namespace Str

/-- `str::as_bytes`: the UTF-8 encoding of the characters. -/
def asBytes (s : List Char) : List UInt8 := s.flatMap String.utf8EncodeChar

/-- `u8::is_utf8_char_boundary`: `(b as i8) >= -0x40`, a byte that does not continue a character. -/
def isUtf8CharBoundary (b : UInt8) : Bool := b < 0x80 || 0xC0 ≤ b

/-- `str::is_char_boundary`. -/
def isCharBoundary (s : List Char) (index : Nat) : Bool :=
  if index = 0 then true
  else if h : index < (asBytes s).length then isUtf8CharBoundary (asBytes s)[index]
  else index == (asBytes s).length

/-- `str::from_utf8`: the characters the bytes encode, if they are valid UTF-8. -/
def fromUtf8 (bytes : List UInt8) : Option (List Char) :=
  (String.fromUTF8? bytes.toByteArray).map String.toList

/-- `char::is_whitespace`: the characters of Unicode's `White_Space` property. -/
def isWhitespace (c : Char) : Bool :=
  let n := c.toNat
  n == 0x20 || (0x09 ≤ n && n ≤ 0x0D) || n == 0x85 || n == 0xA0 || n == 0x1680 ||
    (0x2000 ≤ n && n ≤ 0x200A) || n == 0x2028 || n == 0x2029 || n == 0x202F || n == 0x205F ||
    n == 0x3000

/-- `str::trim_start`: the string without its leading whitespace. -/
def trimStart (s : List Char) : List Char := s.dropWhile isWhitespace

/-- The longest prefix of whole characters whose bytes fit in `m`. -/
def fitting : Nat → List Char → List Char
  | _, [] => []
  | m, c :: s => if c.utf8Size ≤ m then c :: fitting (m - c.utf8Size) s else []

@[simp] theorem asBytes_nil : asBytes [] = [] := rfl

@[simp] theorem asBytes_cons (c : Char) (s : List Char) :
    asBytes (c :: s) = String.utf8EncodeChar c ++ asBytes s :=
  List.flatMap_cons

@[simp] theorem asBytes_append (s t : List Char) : asBytes (s ++ t) = asBytes s ++ asBytes t :=
  List.flatMap_append

@[simp] theorem length_asBytes (s : List Char) : (asBytes s).length = byteLen s := by
  induction s with
  | nil => rfl
  | cons c s ih => rw [asBytes_cons, List.length_append, String.length_utf8EncodeChar, ih, byteLen_cons]

-- ---------------------------------------------------------------------------
-- The bytes of one character
-- ---------------------------------------------------------------------------

theorem isUtf8CharBoundary_ofNat (n : Nat) :
    isUtf8CharBoundary (UInt8.ofNat n) = true ↔ n % 256 < 0x80 ∨ 0xC0 ≤ n % 256 := by
  simp [isUtf8CharBoundary, UInt8.lt_iff_toNat_lt, UInt8.le_iff_toNat_le, UInt8.toNat_ofNat']

/-- The first byte of a character's encoding starts it. -/
theorem isUtf8CharBoundary_utf8EncodeChar_zero (c : Char) (h : 0 < (String.utf8EncodeChar c).length) :
    isUtf8CharBoundary (String.utf8EncodeChar c)[0] = true := by
  unfold String.utf8EncodeChar
  dsimp only
  split_ifs <;> (rw [List.getElem_cons_zero, isUtf8CharBoundary_ofNat]; omega)

/-- Every later byte of a character's encoding continues it. -/
theorem isUtf8CharBoundary_utf8EncodeChar_of_pos (c : Char) {i : Nat} (hi : 0 < i)
    (h : i < (String.utf8EncodeChar c).length) :
    isUtf8CharBoundary (String.utf8EncodeChar c)[i] = false := by
  obtain ⟨j, rfl⟩ : ∃ j, i = j + 1 := ⟨i - 1, by omega⟩
  rw [← Bool.not_eq_true]
  -- the continuation bytes are `v % 0x40 + 0x80`, in each of the four lengths of an encoding
  unfold String.utf8EncodeChar at h ⊢
  dsimp only at h ⊢
  split_ifs at h ⊢ <;> simp only [List.length_cons, List.length_nil] at h <;>
    rw [List.getElem_cons_succ] <;> rcases j with _ | _ | _ | j <;>
    (try simp only [List.getElem_cons_zero, List.getElem_cons_succ, isUtf8CharBoundary_ofNat]) <;> omega

-- ---------------------------------------------------------------------------
-- Boundaries
-- ---------------------------------------------------------------------------

@[simp] theorem isCharBoundary_zero (s : List Char) : isCharBoundary s 0 = true := rfl

/-- Inside the first character there is no boundary. -/
theorem isCharBoundary_cons_of_pos_of_lt {c : Char} {s : List Char} {i : Nat} (h0 : 0 < i)
    (hi : i < c.utf8Size) : isCharBoundary (c :: s) i = false := by
  have hlen : i < (String.utf8EncodeChar c).length := by rwa [String.length_utf8EncodeChar]
  have hall : i < (asBytes (c :: s)).length := by
    rw [asBytes_cons, List.length_append]
    omega
  rw [isCharBoundary, if_neg (by omega), dif_pos hall]
  simp only [asBytes_cons, List.getElem_append_left hlen]
  exact isUtf8CharBoundary_utf8EncodeChar_of_pos c h0 hlen

/-- `is_char_boundary` through the byte at the index, if there is one. -/
theorem isCharBoundary_eq_getElem? (s : List Char) (i : Nat) :
    isCharBoundary s i =
      if i = 0 then true else ((asBytes s)[i]?.map isUtf8CharBoundary).getD (i == (asBytes s).length) := by
  unfold isCharBoundary
  split_ifs with h0 hi
  · rfl
  · rw [List.getElem?_eq_getElem hi]
    rfl
  · rw [List.getElem?_eq_none (by omega)]
    rfl

/-- After the first character the boundaries are those of the rest, shifted by its size. -/
theorem isCharBoundary_cons_add (c : Char) (s : List Char) (i : Nat) :
    isCharBoundary (c :: s) (c.utf8Size + i) = isCharBoundary s i := by
  have hpos := Char.utf8Size_pos c
  have hsize : (String.utf8EncodeChar c).length = c.utf8Size := String.length_utf8EncodeChar c
  rw [isCharBoundary_eq_getElem?, isCharBoundary_eq_getElem?, if_neg (by omega), asBytes_cons,
    List.getElem?_append_right (by omega), List.length_append, hsize, Nat.add_sub_cancel_left]
  rcases Nat.eq_zero_or_pos i with rfl | hi0
  · -- the byte after the first character starts the second one, if there is one
    cases s with
    | nil => simp
    | cons d t =>
      have hd : 0 < (String.utf8EncodeChar d).length := by
        rw [String.length_utf8EncodeChar]
        exact Char.utf8Size_pos d
      rw [if_pos rfl, asBytes_cons, List.getElem?_append_left hd, List.getElem?_eq_getElem hd,
        Option.map_some, Option.getD_some]
      exact isUtf8CharBoundary_utf8EncodeChar_zero d hd
  · rw [if_neg (by omega)]
    congr 1
    exact Bool.eq_iff_iff.2 (by simp only [beq_iff_eq, Nat.add_left_cancel_iff])

/-- The boundaries of a string are the byte lengths of its prefixes. -/
theorem isCharBoundary_iff {s : List Char} {i : Nat} :
    isCharBoundary s i = true ↔ ∃ k, byteLen (s.take k) = i := by
  induction s generalizing i with
  | nil =>
    rcases Nat.eq_zero_or_pos i with rfl | hi
    · simp
    · simp [isCharBoundary, Nat.pos_iff_ne_zero.1 hi]
      omega
  | cons c s ih =>
    have hpos := Char.utf8Size_pos c
    by_cases hi : i < c.utf8Size
    · rcases Nat.eq_zero_or_pos i with rfl | hi0
      · exact ⟨fun _ => ⟨0, rfl⟩, fun _ => rfl⟩
      · -- no prefix ends inside the first character
        rw [isCharBoundary_cons_of_pos_of_lt hi0 hi]
        simp only [Bool.false_eq_true, false_iff, not_exists]
        intro k hk
        cases k with
        | zero => simp at hk; omega
        | succ k => simp only [List.take_succ_cons, byteLen_cons] at hk; omega
    · obtain ⟨j, rfl⟩ : ∃ j, i = c.utf8Size + j := ⟨i - c.utf8Size, by omega⟩
      rw [isCharBoundary_cons_add, ih]
      constructor
      · rintro ⟨k, hk⟩
        exact ⟨k + 1, by rw [List.take_succ_cons, byteLen_cons, hk]⟩
      · rintro ⟨k, hk⟩
        cases k with
        | zero => simp at hk; omega
        | succ k =>
          rw [List.take_succ_cons, byteLen_cons] at hk
          exact ⟨k, by omega⟩

-- ---------------------------------------------------------------------------
-- The longest prefix that fits
-- ---------------------------------------------------------------------------

theorem fitting_eq_take (m : Nat) (s : List Char) : fitting m s = s.take (fitting m s).length := by
  induction s generalizing m with
  | nil => rfl
  | cons c s ih =>
    rw [fitting]
    split
    · rw [List.length_cons, List.take_succ_cons, ← ih]
    · rfl

theorem byteLen_fitting_le (m : Nat) (s : List Char) : byteLen (fitting m s) ≤ m := by
  induction s generalizing m with
  | nil => exact Nat.zero_le _
  | cons c s ih =>
    rw [fitting]
    split
    · have := ih (m - c.utf8Size)
      rw [byteLen_cons]
      omega
    · exact Nat.zero_le _

/-- Every prefix that fits in `m` bytes is no longer than `fitting m s`. -/
theorem byteLen_take_le_fitting {m : Nat} {s : List Char} {k : Nat} (hk : byteLen (s.take k) ≤ m) :
    byteLen (s.take k) ≤ byteLen (fitting m s) := by
  induction s generalizing m k with
  | nil => simp
  | cons c s ih =>
    cases k with
    | zero => simp
    | succ k =>
      rw [List.take_succ_cons, byteLen_cons] at hk ⊢
      rw [fitting, if_pos (by omega), byteLen_cons]
      have := ih (m := m - c.utf8Size) (k := k) (by omega)
      omega

/-- The greatest boundary up to `m` ends the longest prefix that fits in `m` bytes. -/
theorem isCharBoundary_byteLen_fitting (m : Nat) (s : List Char) :
    isCharBoundary s (byteLen (fitting m s)) = true :=
  isCharBoundary_iff.2 ⟨(fitting m s).length, by rw [← fitting_eq_take]⟩

theorem le_byteLen_fitting {m : Nat} {s : List Char} {i : Nat} (h : isCharBoundary s i = true)
    (hi : i ≤ m) : i ≤ byteLen (fitting m s) := by
  obtain ⟨k, rfl⟩ := isCharBoundary_iff.1 h
  exact byteLen_take_le_fitting hi

theorem byteLen_fitting_le_byteLen (m : Nat) (s : List Char) : byteLen (fitting m s) ≤ byteLen s := by
  conv_rhs => rw [← List.take_append_drop (fitting m s).length s, byteLen_append]
  rw [← fitting_eq_take]
  exact Nat.le_add_right _ _

theorem fitting_append_drop (m : Nat) (s : List Char) :
    fitting m s ++ s.drop (fitting m s).length = s := by
  nth_rewrite 1 [fitting_eq_take]
  exact List.take_append_drop _ s

/-- The bytes of a string up to the end of the longest prefix that fits are the bytes of that
    prefix. -/
theorem take_asBytes_fitting (m : Nat) (s : List Char) :
    (asBytes s).take (byteLen (fitting m s)) = asBytes (fitting m s) :=
  calc (asBytes s).take (byteLen (fitting m s))
      = (asBytes (fitting m s ++ s.drop (fitting m s).length)).take (byteLen (fitting m s)) := by
        rw [fitting_append_drop]
    _ = asBytes (fitting m s) := by rw [asBytes_append, ← length_asBytes, List.take_left]

-- ---------------------------------------------------------------------------
-- Decoding
-- ---------------------------------------------------------------------------

/-- The bytes of whole characters are valid UTF-8, and they decode back to the characters. -/
theorem fromUtf8_asBytes (s : List Char) : fromUtf8 (asBytes s) = some s := by
  have hvalid : (asBytes s).toByteArray.IsValidUTF8 := ⟨s, rfl⟩
  rw [fromUtf8, String.fromUTF8?, dif_pos hvalid, Option.map_some]
  exact congrArg some String.toList_ofList

end Str
