-- SUMMARY: Rust's indexing of slices (`s[i]`, `s[a..b]`, `s[i] = x` and `copy_from_slice`) with the panics of their bounds checks, the sub-slices `s[a..b]` as `List.extract`, and the ASCII methods of `u8` and `[u8]` that the kernel's parsers call.
import Muffin.Lib.Rust
import Muffin.Lib.EStateM

/-!
# Slices

Every index into a Rust slice is checked: `s[i]` and `s[i] = x` panic unless
`i < s.len()`, and `s[a..b]` panics unless `a ≤ b ≤ s.len()`. A slice is
modelled by the list of its elements, each of these operations returns
`Except Panic`, and an in-bounds `s[a..b]` is `s.extract a b`. The lemmas say
when each operation succeeds, and how a sub-slice meets its first and last
elements, which is the step of every loop that walks a slice from either end.

The ASCII methods are those of `u8` and `[u8]` in `core`: `is_ascii_whitespace`,
`to_ascii_lowercase`, `eq_ignore_ascii_case` and `trim_ascii`.
-/

namespace Rust.Slice

variable {α : Type}

-- ---------------------------------------------------------------------------
-- Indexing
-- ---------------------------------------------------------------------------

/-- `s[i]`. -/
def index (s : List α) (i : Nat) : Except Panic α :=
  match s[i]? with
  | some x => .ok x
  | none => .error ⟨"index out of bounds"⟩

/-- `s[a..b]`. -/
def range (s : List α) (a b : Nat) : Except Panic (List α) :=
  if b < a then .error ⟨"slice index starts after its end"⟩
  else if s.length < b then .error ⟨"range end index out of range for slice"⟩
  else .ok (s.extract a b)

/-- `s[i] = x`. -/
def setIndex (s : List α) (i : Nat) (x : α) : Except Panic (List α) :=
  if i < s.length then .ok (s.set i x) else .error ⟨"index out of bounds"⟩

/-- `s[a..b].copy_from_slice(src)`, which also panics unless `src` has the length of `s[a..b]`. -/
def copyFromSlice (s : List α) (a b : Nat) (src : List α) : Except Panic (List α) := do
  let dst ← range s a b
  if dst.length ≠ src.length then
    throw ⟨"source slice length does not match destination slice length"⟩
  pure (s.take a ++ src ++ s.drop b)

/-- `s.copy_within(a..b, dest)`: the elements of `s[a..b]` copied over those from `dest` on. -/
def copyWithin (s : List α) (a b dest : Nat) : Except Panic (List α) := do
  let src ← range s a b
  if s.length - src.length < dest then
    throw ⟨"dest is out of bounds"⟩
  pure (s.take dest ++ src ++ s.drop (dest + src.length))

/-- `s.iter().rposition(p)`: the index of the last element that satisfies `p`. -/
def rposition : List α → (α → Bool) → Option Nat
  | [], _ => none
  | x :: s, p =>
    match rposition s p with
    | some i => some (i + 1)
    | none => if p x then some 0 else none

variable {s : List α} {i a b : Nat}

theorem index_of_lt (h : i < s.length) : index s i = .ok s[i] := by
  rw [index, List.getElem?_eq_getElem h]

theorem range_of_le (hab : a ≤ b) (hb : b ≤ s.length) : range s a b = .ok (s.extract a b) := by
  rw [range, if_neg (Nat.not_lt.2 hab), if_neg (Nat.not_lt.2 hb)]

theorem setIndex_of_lt {x : α} (h : i < s.length) : setIndex s i x = .ok (s.set i x) :=
  if_pos h


-- ---------------------------------------------------------------------------
-- Sub-slices
-- ---------------------------------------------------------------------------

theorem length_extract_of_le (hab : a ≤ b) (hb : b ≤ s.length) : (s.extract a b).length = b - a := by
  rw [List.extract_eq_take_drop, List.length_take, List.length_drop]
  omega

@[simp] theorem extract_self (s : List α) (a : Nat) : s.extract a a = [] := by
  rw [List.extract_eq_take_drop, Nat.sub_self, List.take_zero]

@[simp] theorem extract_zero (s : List α) (b : Nat) : s.extract 0 b = s.take b := by
  rw [List.extract_eq_take_drop, Nat.sub_zero, List.drop_zero]

@[simp] theorem extract_length (s : List α) (a : Nat) : s.extract a s.length = s.drop a := by
  rw [List.extract_eq_take_drop, List.take_of_length_le (by rw [List.length_drop])]

/-- A sub-slice that is not empty starts with `s[a]`. -/
theorem extract_eq_cons (hab : a < b) (hb : b ≤ s.length) :
    s.extract a b = s[a] :: s.extract (a + 1) b := by
  rw [List.extract_eq_take_drop, List.extract_eq_take_drop, List.drop_eq_getElem_cons (by omega),
    show b - a = b - (a + 1) + 1 by omega, List.take_succ_cons]

/-- A sub-slice that is not empty ends with `s[b - 1]`. -/
theorem extract_eq_concat (hab : a < b) (hb : b ≤ s.length) :
    s.extract a b = s.extract a (b - 1) ++ [s[b - 1]] := by
  rw [List.extract_eq_take_drop, List.extract_eq_take_drop, show b - a = b - 1 - a + 1 by omega,
    List.take_add_one, List.getElem?_drop, show a + (b - 1 - a) = b - 1 by omega,
    List.getElem?_eq_getElem (by omega), Option.toList_some]

theorem copyFromSlice_of_le {src : List α} (hab : a ≤ b) (hb : b ≤ s.length) (hlen : src.length = b - a) :
    copyFromSlice s a b src = .ok (s.take a ++ src ++ s.drop b) := by
  rw [copyFromSlice, range_of_le hab hb, Except.ok_bind, length_extract_of_le hab hb, hlen, if_neg (not_not.2 rfl)]
  rfl

/-- The first `i` elements of `s[a..b]` are `s[a..a + i]`. -/
theorem take_extract (h : i ≤ b - a) : (s.extract a b).take i = s.extract a (a + i) := by
  rw [List.extract_eq_take_drop, List.extract_eq_take_drop, List.take_take, Nat.add_sub_cancel_left,
    Nat.min_eq_left h]

/-- What follows the first `i` elements of `s[a..b]` is `s[a + i..b]`. -/
theorem drop_extract (s : List α) (a b i : Nat) : (s.extract a b).drop i = s.extract (a + i) b := by
  rw [List.extract_eq_take_drop, List.extract_eq_take_drop, List.drop_take, List.drop_drop,
    Nat.sub_sub]

/-- A sub-slice of the first `n` elements is a sub-slice of the whole. -/
theorem extract_take (s : List α) {n : Nat} (hb : b ≤ n) : (s.take n).extract a b = s.extract a b := by
  rw [List.extract_eq_take_drop, List.extract_eq_take_drop, List.drop_take, List.take_take]
  congr 1
  omega

/-- A sub-slice of the front of `s ++ t` is a sub-slice of `s`. -/
theorem extract_append_of_le {t : List α} (hb : b ≤ s.length) :
    (s ++ t).extract a b = s.extract a b := by
  rw [← extract_take (s ++ t) hb, List.take_left]

/-- Setting the element after the first `i` extends them by one. -/
theorem take_succ_set {x : α} (h : i < s.length) : (s.set i x).take (i + 1) = s.take i ++ [x] := by
  rw [List.take_set, List.take_add_one, List.getElem?_eq_getElem h, Option.toList_some,
    List.set_append_right _ _ (by rw [List.length_take]; omega), List.length_take, Nat.min_eq_left h.le,
    Nat.sub_self, List.set_cons_zero]

/-- `copy_within(i + 1..n, i)` shifts the elements after `i` down by one: the first `n - 1`
    elements are then those of `s[..n]` without the one at `i`. -/
theorem copyWithin_succ (hi : i < b) (hb : b ≤ s.length) :
    ∃ s', copyWithin s (i + 1) b i = .ok s' ∧ s'.length = s.length ∧
      s'.take (b - 1) = (s.take b).eraseIdx i := by
  have hlen : (s.extract (i + 1) b).length = b - (i + 1) := length_extract_of_le (by omega) hb
  refine ⟨s.take i ++ s.extract (i + 1) b ++ s.drop (i + (b - (i + 1))), ?_, ?_, ?_⟩
  · rw [copyWithin, range_of_le (by omega) hb, Except.ok_bind, hlen, if_neg (by omega)]
    rfl
  · simp only [List.length_append, List.length_take, List.length_drop, hlen]
    omega
  · have hfront : (s.take i ++ s.extract (i + 1) b).length = b - 1 := by
      rw [List.length_append, List.length_take, hlen]
      omega
    rw [List.append_assoc, ← List.append_assoc (s.take i), ← hfront, List.take_left,
      List.eraseIdx_eq_take_drop_succ, List.take_take, Nat.min_eq_left hi.le, List.drop_take,
      List.extract_eq_take_drop]

-- ---------------------------------------------------------------------------
-- Searching
-- ---------------------------------------------------------------------------

/-- Setting an element to one that the test does not tell apart from it leaves a search where it
    was. -/
theorem findIdx?_set_of_eq {p : α → Bool} :
    ∀ {l : List α} {i : Nat} {v : α}, (∀ a, l[i]? = some a → p v = p a) →
      (l.set i v).findIdx? p = l.findIdx? p
  | [], _, _, _ => rfl
  | a :: l, 0, v, h => by
    rw [List.set_cons_zero, List.findIdx?_cons, List.findIdx?_cons, h a rfl]
  | a :: l, i + 1, v, h => by
    rw [List.set_cons_succ, List.findIdx?_cons, List.findIdx?_cons,
      findIdx?_set_of_eq (l := l) (i := i) fun b hb => h b (by rw [List.getElem?_cons_succ]; exact hb)]

/-- The first index whose element passes: one whose element passes, with none before it. -/
theorem findIdx?_eq_some_iff {p : α → Bool} {l : List α} {i : Nat} :
    l.findIdx? p = some i ↔
      (∃ a, l[i]? = some a ∧ p a = true) ∧ ∀ j < i, ∀ a, l[j]? = some a → p a = false := by
  rw [List.findIdx?_eq_some_iff_getElem]
  constructor
  · rintro ⟨hi, hp, hbefore⟩
    refine ⟨⟨l[i], List.getElem?_eq_getElem hi, hp⟩, fun j hj a ha => ?_⟩
    rw [List.getElem?_eq_getElem (by omega), Option.some.injEq] at ha
    rw [← ha]
    exact Bool.eq_false_iff.2 (hbefore j hj)
  · rintro ⟨⟨a, ha, hp⟩, hbefore⟩
    obtain ⟨hi, rfl⟩ := List.getElem?_eq_some_iff.1 ha
    exact ⟨hi, hp, fun j hj => by
      rw [hbefore j hj _ (List.getElem?_eq_getElem (by omega))]
      simp⟩

-- ---------------------------------------------------------------------------
-- Searching from the back
-- ---------------------------------------------------------------------------

theorem rposition_eq_none_iff {p : α → Bool} : rposition s p = none ↔ ∀ x ∈ s, p x = false := by
  induction s with
  | nil => simp [rposition]
  | cons x s ih =>
    simp only [rposition, List.mem_cons, forall_eq_or_imp]
    split <;> rename_i h
    · simp only [reduceCtorEq, false_iff, not_and]
      intro _ hall
      rw [ih.2 hall] at h
      cases h
    · rw [ih] at h
      rw [and_iff_left h]
      cases p x <;> simp

/-- `rposition` returns an index inside the list, of an element that satisfies the test. -/
theorem rposition_lt {p : α → Bool} :
    ∀ {s : List α} {i : Nat}, rposition s p = some i → ∃ h : i < s.length, p s[i] = true
  | x :: s, i, h => by
    rw [rposition] at h
    split at h <;> rename_i hs
    · cases h
      obtain ⟨hj, hpj⟩ := rposition_lt hs
      exact ⟨by simp [hj], hpj⟩
    · split at h <;> rename_i hx
      · cases h
        exact ⟨by simp, hx⟩
      · cases h

theorem mem_of_rposition [BEq α] [LawfulBEq α] {y : α} (h : rposition s (· == y) = some i) : y ∈ s := by
  obtain ⟨hi, hy⟩ := rposition_lt h
  rw [← eq_of_beq hy]
  exact List.getElem_mem hi

/-- Without the element that `rposition` finds, a list is the list with its last occurrence of
    that element erased. -/
theorem eraseIdx_rposition [BEq α] [LawfulBEq α] {y : α} :
    ∀ {s : List α} {i : Nat}, rposition s (· == y) = some i → s.eraseIdx i = (s.reverse.erase y).reverse
  | x :: s, i, h => by
    rw [rposition] at h
    split at h <;> rename_i hs
    · -- the last occurrence lies in `s`, so erasing it leaves `x` in front
      cases h
      have hy : y ∈ s.reverse := by
        by_contra hy
        rw [List.mem_reverse] at hy
        rw [rposition_eq_none_iff.2 fun z hz => by
          rw [beq_eq_false_iff_ne]
          rintro rfl
          exact hy hz] at hs
        cases hs
      rw [List.eraseIdx_cons_succ, eraseIdx_rposition hs, List.reverse_cons,
        List.erase_append_left _ hy, List.reverse_append]
      rfl
    · -- no occurrence in `s`: the last one is `x` itself
      have hnot : y ∉ s.reverse := by
        rw [List.mem_reverse]
        intro hy
        have := rposition_eq_none_iff.1 hs y hy
        simp at this
      split at h <;> rename_i hx
      · cases h
        obtain rfl := eq_of_beq hx
        rw [List.eraseIdx_cons_zero, List.reverse_cons, List.erase_append_right _ hnot,
          List.erase_cons_head, List.append_nil, List.reverse_reverse]
      · cases h

/-- When `rposition` finds nothing, erasing the last occurrence changes nothing. -/
theorem reverse_erase_of_rposition_eq_none [BEq α] [LawfulBEq α] {y : α}
    (h : rposition s (· == y) = none) : (s.reverse.erase y).reverse = s := by
  rw [List.erase_of_not_mem, List.reverse_reverse]
  rw [List.mem_reverse]
  intro hy
  have := rposition_eq_none_iff.1 h y hy
  simp at this

-- ---------------------------------------------------------------------------
-- Splitting at a separator
-- ---------------------------------------------------------------------------

/-- The first segment of a split ends at the first separator that `position` finds. -/
theorem splitOn_of_findIdx?_eq_some [BEq α] [LawfulBEq α] {sep : α} (h : s.findIdx? (· == sep) = some i) :
    s.splitOn sep = s.take i :: (s.drop (i + 1)).splitOn sep := by
  obtain ⟨hi, hsep, hbefore⟩ := List.findIdx?_eq_some_iff_getElem.1 h
  have hs : s = s.take i ++ sep :: s.drop (i + 1) := by
    conv_lhs => rw [← List.take_append_drop i s, List.drop_eq_getElem_cons hi]
    rw [eq_of_beq hsep]
  unfold List.splitOn
  conv_lhs => rw [hs]
  refine List.splitOnP_append_cons_of_forall_mem (p := (· == sep)) ?_ sep (beq_self_eq_true sep) _
  intro x hx
  obtain ⟨j, hj, rfl⟩ := List.getElem_of_mem hx
  rw [List.length_take] at hj
  rw [List.getElem_take]
  exact Bool.eq_false_iff.2 (hbefore j (by omega))

/-- Without a separator, a split is the whole. -/
theorem splitOn_of_findIdx?_eq_none [BEq α] {sep : α} (h : s.findIdx? (· == sep) = none) :
    s.splitOn sep = [s] :=
  List.splitOnP_eq_singleton (List.findIdx?_eq_none_iff.1 h)

-- ---------------------------------------------------------------------------
-- ASCII
-- ---------------------------------------------------------------------------

/-- `u8::is_ascii_whitespace`: `b'\t'`, `b'\n'`, `b'\x0C'`, `b'\r'` and `b' '`. -/
def isAsciiWhitespace (c : UInt8) : Bool := c == 9 || c == 10 || c == 12 || c == 13 || c == 32

/-- `u8::to_ascii_lowercase`: sets bit 5 of an uppercase letter, which is clear on `b'A'..=b'Z'`. -/
def toAsciiLowercase (c : UInt8) : UInt8 := if 65 ≤ c ∧ c ≤ 90 then c ||| 32 else c

/-- `<[u8]>::eq_ignore_ascii_case`: the same length, and the same bytes up to case. -/
def eqIgnoreAsciiCase (a b : List UInt8) : Bool :=
  a.length == b.length && (a.zip b).all fun p => toAsciiLowercase p.1 == toAsciiLowercase p.2

/-- `<[u8]>::trim_ascii`: the bytes without the ASCII whitespace at either end. -/
def trimAscii (s : List UInt8) : List UInt8 := (s.dropWhile isAsciiWhitespace).rdropWhile isAsciiWhitespace

/-- Two byte strings are equal up to ASCII case exactly when their lowercase forms are equal. -/
theorem eqIgnoreAsciiCase_iff : ∀ {a b : List UInt8},
    eqIgnoreAsciiCase a b = true ↔ a.map toAsciiLowercase = b.map toAsciiLowercase
  | [], [] => by simp [eqIgnoreAsciiCase]
  | [], _ :: _ => by simp [eqIgnoreAsciiCase]
  | _ :: _, [] => by simp [eqIgnoreAsciiCase]
  | x :: a, y :: b => by
    have ih := @eqIgnoreAsciiCase_iff a b
    simp only [eqIgnoreAsciiCase, Bool.and_eq_true, beq_iff_eq, List.all_eq_true] at ih ⊢
    simp only [List.length_cons, List.zip_cons_cons, List.mem_cons, forall_eq_or_imp,
      List.map_cons, List.cons.injEq, Nat.add_right_cancel_iff]
    rw [← ih]
    exact and_left_comm

end Rust.Slice
