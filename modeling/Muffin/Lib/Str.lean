-- SUMMARY: Rust's `str` over a list of characters: the UTF-8 byte offsets of its characters, `char_indices`, `rfind`, `strip_prefix`, and slicing by byte index, which panics off a character boundary.
import Muffin.Lib.Rust

/-!
# Strings

A Rust `str` is UTF-8: its characters take one to four bytes, and every index
into it is a byte offset. `char_indices` pairs each character with the offset
it starts at, `rfind` returns such an offset, and `&s[..i]`, `&s[i..]` and
`&s[a..b]` panic unless every bound is the offset of a character or the end
of the string. A string is modelled by its list of characters; the byte
offsets are computed with `Char.utf8Size`.
-/

namespace Str

open Rust

/-- The length of a string in bytes, `str::len`. -/
def byteLen (s : List Char) : Nat := (s.map Char.utf8Size).sum

@[simp] theorem byteLen_nil : byteLen [] = 0 := rfl

@[simp] theorem byteLen_cons (c : Char) (s : List Char) : byteLen (c :: s) = c.utf8Size + byteLen s :=
  List.sum_cons

@[simp] theorem byteLen_append (s t : List Char) : byteLen (s ++ t) = byteLen s + byteLen t := by
  simp [byteLen]

@[simp] theorem byteLen_reverse (s : List Char) : byteLen s.reverse = byteLen s := by
  simp [byteLen]

/-- `char_indices` of a string that starts at byte offset `off`. -/
def charIndicesFrom : Nat → List Char → List (Nat × Char)
  | _, [] => []
  | off, c :: cs => (off, c) :: charIndicesFrom (off + c.utf8Size) cs

/-- `str::char_indices`: each character with the byte offset it starts at. -/
def charIndices (s : List Char) : List (Nat × Char) := charIndicesFrom 0 s

/-- `str::rfind(p)`: the byte offset of the last character that satisfies `p`. -/
def rfind (s : List Char) (p : Char → Bool) : Option Nat :=
  ((charIndices s).reverse.find? fun ic => p ic.2).map Prod.fst

/-- `str::strip_prefix`. -/
def stripPrefix (s pre : List Char) : Option (List Char) :=
  if pre.isPrefixOf s then some (s.drop pre.length) else none

/-- The panic of a byte index inside a character. -/
def NOT_A_CHAR_BOUNDARY : String := "byte index is not a char boundary"

/-- The panic of a byte index past the end. -/
def OUT_OF_BOUNDS : String := "byte index is out of bounds"

/-- `&s[..i]`. -/
def sliceTo : List Char → Nat → Except Panic (List Char)
  | _, 0 => .ok []
  | [], _ + 1 => .error ⟨OUT_OF_BOUNDS⟩
  | c :: cs, i + 1 =>
    if i + 1 < c.utf8Size then .error ⟨NOT_A_CHAR_BOUNDARY⟩
    else (sliceTo cs (i + 1 - c.utf8Size)).map (c :: ·)

/-- `&s[i..]`. -/
def sliceFrom : List Char → Nat → Except Panic (List Char)
  | s, 0 => .ok s
  | [], _ + 1 => .error ⟨OUT_OF_BOUNDS⟩
  | c :: cs, i + 1 =>
    if i + 1 < c.utf8Size then .error ⟨NOT_A_CHAR_BOUNDARY⟩ else sliceFrom cs (i + 1 - c.utf8Size)

/-- `&s[a..b]`. -/
def sliceRange (s : List Char) (a b : Nat) : Except Panic (List Char) := do
  if b < a then
    throw ⟨"slice index starts after its end"⟩
  let pre ← sliceTo s b
  sliceFrom pre a

theorem charIndicesFrom_append (off : Nat) (s t : List Char) :
    charIndicesFrom off (s ++ t) = charIndicesFrom off s ++ charIndicesFrom (off + byteLen s) t := by
  induction s generalizing off with
  | nil => simp [charIndicesFrom, byteLen]
  | cons c s ih =>
    simp only [List.cons_append, charIndicesFrom, ih, byteLen, List.map_cons, List.sum_cons,
      List.cons_append, Nat.add_assoc]

@[simp] theorem map_snd_charIndicesFrom (off : Nat) (s : List Char) :
    (charIndicesFrom off s).map Prod.snd = s := by
  induction s generalizing off with
  | nil => rfl
  | cons c s ih => simp [charIndicesFrom, ih]

/-- `rfind` stops at the last character that satisfies `p`, at the offset of the bytes before
    it. -/
theorem rfind_append_cons {s t : List Char} {c : Char} {p : Char → Bool} (hc : p c = true)
    (ht : ∀ x ∈ t, p x = false) : rfind (s ++ c :: t) p = some (byteLen s) := by
  have hnone : (charIndicesFrom (byteLen s + c.utf8Size) t).reverse.find? (fun ic => p ic.2) =
      none := by
    rw [List.find?_eq_none]
    intro ic hic
    have hmem : ic.2 ∈ t := by
      rw [← map_snd_charIndicesFrom (byteLen s + c.utf8Size) t]
      exact List.mem_map_of_mem (List.mem_reverse.1 hic)
    simp [ht ic.2 hmem]
  simp [rfind, charIndices, charIndicesFrom_append, charIndicesFrom, List.find?_append, hnone, hc]

/-- The last character of a string is found at the offset of the bytes before it. -/
theorem rfind_append_singleton {s : List Char} {c : Char} {p : Char → Bool} (hc : p c = true) :
    rfind (s ++ [c]) p = some (byteLen s) :=
  rfind_append_cons hc (by simp)

/-- The offset of a whole prefix is a character boundary, and slicing there gives the prefix. -/
theorem sliceTo_append_byteLen (s t : List Char) : sliceTo (s ++ t) (byteLen s) = .ok s := by
  induction s with
  | nil => simp [byteLen, sliceTo]
  | cons c s ih =>
    have hpos := Char.utf8Size_pos c
    have hlen : byteLen (c :: s) = c.utf8Size + byteLen s := by simp [byteLen]
    obtain ⟨k, hk⟩ : ∃ k, byteLen (c :: s) = k + 1 := ⟨byteLen (c :: s) - 1, by omega⟩
    rw [List.cons_append, hk, sliceTo, if_neg (by omega),
      show k + 1 - c.utf8Size = byteLen s by omega, ih]
    rfl

/-- An offset strictly inside a multi-byte character is not a character boundary. -/
theorem sliceTo_inside_char (s t : List Char) {c : Char} {k : Nat} (hk : 0 < k)
    (hlt : k < c.utf8Size) : sliceTo (s ++ c :: t) (byteLen s + k) = .error ⟨NOT_A_CHAR_BOUNDARY⟩ := by
  induction s with
  | nil =>
    obtain ⟨j, rfl⟩ : ∃ j, k = j + 1 := ⟨k - 1, by omega⟩
    simp only [List.nil_append, byteLen, List.map_nil, List.sum_nil, Nat.zero_add, sliceTo,
      if_pos hlt]
  | cons d s ih =>
    have hpos := Char.utf8Size_pos d
    have hlen : byteLen (d :: s) = d.utf8Size + byteLen s := by simp [byteLen]
    obtain ⟨j, hj⟩ : ∃ j, byteLen (d :: s) + k = j + 1 := ⟨byteLen (d :: s) + k - 1, by omega⟩
    rw [List.cons_append, hj, sliceTo, if_neg (by omega),
      show j + 1 - d.utf8Size = byteLen s + k by omega, ih]
    rfl

/-- An offset strictly inside a multi-byte character is not a character boundary, from the
    front either. -/
theorem sliceFrom_inside_char (s t : List Char) {c : Char} {k : Nat} (hk : 0 < k)
    (hlt : k < c.utf8Size) : sliceFrom (s ++ c :: t) (byteLen s + k) = .error ⟨NOT_A_CHAR_BOUNDARY⟩ := by
  induction s with
  | nil =>
    obtain ⟨j, rfl⟩ : ∃ j, k = j + 1 := ⟨k - 1, by omega⟩
    simp only [List.nil_append, byteLen, List.map_nil, List.sum_nil, Nat.zero_add, sliceFrom,
      if_pos hlt]
  | cons d s ih =>
    have hpos := Char.utf8Size_pos d
    have hlen : byteLen (d :: s) = d.utf8Size + byteLen s := by simp [byteLen]
    obtain ⟨j, hj⟩ : ∃ j, byteLen (d :: s) + k = j + 1 := ⟨byteLen (d :: s) + k - 1, by omega⟩
    rw [List.cons_append, hj, sliceFrom, if_neg (by omega),
      show j + 1 - d.utf8Size = byteLen s + k by omega, ih]

/-- A range that starts inside a multi-byte character and ends at a character boundary after it
    panics on its start. -/
theorem sliceRange_inside_char (s t u : List Char) {c : Char} {k : Nat} (hk : 0 < k)
    (hlt : k < c.utf8Size) :
    sliceRange (s ++ c :: (t ++ u)) (byteLen s + k) (byteLen (s ++ c :: t)) =
      .error ⟨NOT_A_CHAR_BOUNDARY⟩ := by
  have hlen : byteLen (s ++ c :: t) = byteLen s + c.utf8Size + byteLen t := by
    simp [byteLen, Nat.add_assoc]
  unfold sliceRange
  rw [if_neg (by omega), ← List.cons_append, ← List.append_assoc, sliceTo_append_byteLen]
  exact sliceFrom_inside_char s t hk hlt

/-- The offset of a whole prefix is a character boundary from the front too, and slicing there
    gives the rest. -/
theorem sliceFrom_append_byteLen (s t : List Char) : sliceFrom (s ++ t) (byteLen s) = .ok t := by
  induction s with
  | nil => cases t <;> rfl
  | cons c s ih =>
    have hpos := Char.utf8Size_pos c
    have hlen : byteLen (c :: s) = c.utf8Size + byteLen s := byteLen_cons c s
    obtain ⟨k, hk⟩ : ∃ k, byteLen (c :: s) = k + 1 := ⟨byteLen (c :: s) - 1, by omega⟩
    rw [List.cons_append, hk, sliceFrom, if_neg (by omega),
      show k + 1 - c.utf8Size = byteLen s by omega, ih]

/-- A range between the ends of two prefixes gives the characters between them. -/
theorem sliceRange_append_byteLen (s t u : List Char) :
    sliceRange (s ++ t ++ u) (byteLen s) (byteLen (s ++ t)) = .ok t := by
  have hle : byteLen s ≤ byteLen (s ++ t) := by
    rw [byteLen_append]
    exact Nat.le_add_right _ _
  unfold sliceRange
  rw [if_neg (Nat.not_lt.2 hle), sliceTo_append_byteLen]
  exact sliceFrom_append_byteLen s t

/-- `char_indices` with the characters that satisfy `p` dropped from the front starts at the
    first character that does not, at the offset of the bytes before it. -/
theorem dropWhile_charIndicesFrom_append {p : Char → Bool} {c : Char} (hc : p c = false)
    (rest : List Char) : ∀ (pre : List Char) (off : Nat), (∀ x ∈ pre, p x = true) →
      (charIndicesFrom off (pre ++ c :: rest)).dropWhile (fun ic => p ic.2) =
        charIndicesFrom (off + byteLen pre) (c :: rest)
  | [], off, _ => by simp [charIndicesFrom, hc]
  | d :: pre, off, hpre => by
    have hd : p d = true := hpre d (List.mem_cons_self ..)
    have ih := dropWhile_charIndicesFrom_append hc rest pre (off + d.utf8Size)
      fun x hx => hpre x (List.mem_cons_of_mem d hx)
    rw [List.cons_append, charIndicesFrom,
      List.dropWhile_cons_of_pos (p := fun ic : Nat × Char => p ic.2) hd, ih, byteLen_cons,
      Nat.add_assoc]

/-- `char_indices` with the characters that satisfy `p` dropped from the front is empty when they
    all do. -/
theorem dropWhile_charIndicesFrom_of_forall {p : Char → Bool} :
    ∀ (cs : List Char) (off : Nat), (∀ x ∈ cs, p x = true) →
      (charIndicesFrom off cs).dropWhile (fun ic => p ic.2) = []
  | [], _, _ => rfl
  | d :: cs, off, hcs => by
    have hd : p d = true := hcs d (List.mem_cons_self ..)
    rw [charIndicesFrom, List.dropWhile_cons_of_pos (p := fun ic : Nat × Char => p ic.2) hd]
    exact dropWhile_charIndicesFrom_of_forall cs (off + d.utf8Size)
      fun x hx => hcs x (List.mem_cons_of_mem d hx)

-- ---------------------------------------------------------------------------
-- `CharIndices` from both ends
-- ---------------------------------------------------------------------------

/-- A `CharIndices` iterator: `front_offset`, the offset of the next character from the front,
    and the characters that neither end has taken yet. -/
structure CharIndices where
  frontOffset : Nat
  chars : List Char
  deriving DecidableEq, Repr

namespace CharIndices

/-- `str::char_indices`. -/
def new (s : List Char) : CharIndices := ⟨0, s⟩

/-- `CharIndices::offset`: `front_offset`, which no call from the back moves. -/
def offset (it : CharIndices) : Nat := it.frontOffset

/-- `find` from `front_offset = off` over the characters `cs`. The offset of a character taken
    from the front is `front_offset`, which then moves past it; with no character that satisfies
    `p` every character is taken. -/
def findFrom (p : Char → Bool) : Nat → List Char → Option (Nat × Char) × CharIndices
  | off, [] => (none, ⟨off, []⟩)
  | off, c :: cs =>
    if p c then (some (off, c), ⟨off + c.utf8Size, cs⟩) else findFrom p (off + c.utf8Size) cs

/-- `Iterator::find(p)`: `next` until a character satisfies `p`. -/
def find (p : Char → Bool) (it : CharIndices) : Option (Nat × Char) × CharIndices :=
  findFrom p it.frontOffset it.chars

/-- `rfind` on the characters left, last first: the offset of a character taken from the back is
    `front_offset` plus the bytes of the characters still before it. -/
def rfindRev (p : Char → Bool) (off : Nat) : List Char → Option (Nat × Char) × CharIndices
  | [] => (none, ⟨off, []⟩)
  | c :: before =>
    if p c then (some (off + byteLen before, c), ⟨off, before.reverse⟩) else rfindRev p off before

/-- `DoubleEndedIterator::rfind(p)`: `next_back` until a character satisfies `p`. -/
def rfind (p : Char → Bool) (it : CharIndices) : Option (Nat × Char) × CharIndices :=
  rfindRev p it.frontOffset it.chars.reverse

/-- `find` passes over the characters before the first one that satisfies `p`. -/
theorem find_append {p : Char → Bool} {c : Char} (hc : p c = true) (rest : List Char) :
    ∀ (pre : List Char) (off : Nat), (∀ x ∈ pre, p x = false) →
      find p ⟨off, pre ++ c :: rest⟩ =
        (some (off + byteLen pre, c), ⟨off + byteLen pre + c.utf8Size, rest⟩)
  | [], off, _ => by simp [find, findFrom, hc, byteLen]
  | d :: pre, off, hpre => by
    have hd : p d = false := hpre d (List.mem_cons_self ..)
    have ih := find_append hc rest pre (off + d.utf8Size) fun x hx => hpre x (List.mem_cons_of_mem d hx)
    unfold find at ih ⊢
    rw [List.cons_append, findFrom, if_neg (by simp [hd]), ih]
    simp [byteLen, Nat.add_assoc]

/-- `find` with no character that satisfies `p` takes them all. -/
theorem find_of_forall {p : Char → Bool} :
    ∀ (cs : List Char) (off : Nat), (∀ x ∈ cs, p x = false) →
      find p ⟨off, cs⟩ = (none, ⟨off + byteLen cs, []⟩)
  | [], off, _ => by simp [find, findFrom, byteLen]
  | d :: cs, off, hcs => by
    have hd : p d = false := hcs d (List.mem_cons_self ..)
    have ih := find_of_forall cs (off + d.utf8Size) fun x hx => hcs x (List.mem_cons_of_mem d hx)
    unfold find at ih ⊢
    rw [findFrom, if_neg (by simp [hd]), ih]
    simp [byteLen, Nat.add_assoc]

/-- `find` either takes every character and finds none, or stops just after the first character
    that satisfies `p`. -/
theorem find_cases (p : Char → Bool) (cs : List Char) (off : Nat) :
    find p ⟨off, cs⟩ = (none, ⟨off + byteLen cs, []⟩) ∨
      ∃ pre d post, cs = pre ++ d :: post ∧ p d = true ∧
        find p ⟨off, cs⟩ = (some (off + byteLen pre, d), ⟨off + byteLen pre + d.utf8Size, post⟩) := by
  cases hf : cs.find? p with
  | none =>
    refine .inl (find_of_forall cs off fun x hx => ?_)
    simpa using List.find?_eq_none.1 hf x hx
  | some d =>
    obtain ⟨hd, pre, post, rfl, hpre⟩ := List.find?_eq_some_iff_append.1 hf
    exact .inr ⟨pre, d, post, rfl, hd, find_append hd post pre off fun x hx => by simpa using hpre x hx⟩

/-- `rfind` passes over the characters after the last one that satisfies `p`. -/
theorem rfindRev_append {p : Char → Bool} {c : Char} (hc : p c = true) (before : List Char)
    (off : Nat) : ∀ (after : List Char), (∀ x ∈ after, p x = false) →
      rfindRev p off (after ++ c :: before) = (some (off + byteLen before, c), ⟨off, before.reverse⟩)
  | [], _ => by simp [rfindRev, hc]
  | d :: after, hafter => by
    have hd : p d = false := hafter d (List.mem_cons_self ..)
    rw [List.cons_append, rfindRev, if_neg (by simp [hd]),
      rfindRev_append hc before off after fun x hx => hafter x (List.mem_cons_of_mem d hx)]

/-- A character `rfind` finds ends within the characters it searched. -/
theorem rfindRev_le {p : Char → Bool} {off : Nat} :
    ∀ {cs : List Char} {i : Nat} {d : Char} {it : CharIndices},
      rfindRev p off cs = (some (i, d), it) → i + d.utf8Size ≤ off + byteLen cs
  | [], _, _, _, h => by simp [rfindRev] at h
  | c :: before, i, d, it, h => by
    unfold rfindRev at h
    split_ifs at h
    · cases h
      simp only [byteLen_cons]
      omega
    · have := rfindRev_le h
      simp only [byteLen_cons]
      omega

end CharIndices

end Str
