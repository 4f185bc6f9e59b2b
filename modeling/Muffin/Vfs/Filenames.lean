-- SUMMARY: The `Filenames` iterator of `kernel_vfs` from both ends: one `CharIndices` shared by `next` and `next_back`, the two byte cursors, and the panic of a component that starts or ends in a multi-byte character.
import Muffin.Vfs.Path

/-!
# The components of a path, from both ends

`Filenames` keeps one `CharIndices` for both directions and two byte cursors,
`index_front` and `index_back`. `next` skips separators with `find`, takes
`offset() - 1` as the first byte of the component and `find`s the separator
after it; `next_back` skips separators with `rfind`, takes the byte after the
last character of the component as its end and `rfind`s the separator before
it.

Both cursors are one byte past the start of a character: they are its first
byte only for a one-byte character. A component whose first character takes
several bytes makes `next` slice from inside that character, and `str`
slicing panics.
-/

namespace Muffin.KernelVfs

open Rust Str

/-- `Filenames`: the path, the `CharIndices` that `next` and `next_back` share, and the two
    byte cursors. -/
structure Filenames where
  inner : Path
  chars : CharIndices
  indexFront : Nat
  indexBack : Nat
  deriving DecidableEq, Repr

namespace Filenames

/-- `Filenames::new`. -/
def new (p : Path) : Filenames := ⟨p, CharIndices.new p, 0, byteLen p⟩

/-- `Iterator::next`. -/
def next (it : Filenames) : Except Panic (Option Path × Filenames) := do
  if it.inner.isEmpty ∨ it.indexBack ≤ it.indexFront then
    return (none, it)
  match it.chars.find (· != SEPARATOR) with
  | (none, chars) => return (none, { it with chars })
  | (some _, chars) =>
    let indexFront := chars.offset - 1
    let (nextPos, chars) := chars.find (· == SEPARATOR)
    if nextPos.isSome ∨ indexFront < it.indexBack then
      let filename ← sliceRange it.inner indexFront (chars.offset - if nextPos.isSome then 1 else 0)
      return (some filename, { it with chars, indexFront := chars.offset })
    else
      return (none, { it with chars, indexFront })

/-- `DoubleEndedIterator::next_back`. -/
def nextBack (it : Filenames) : Except Panic (Option Path × Filenames) := do
  if it.inner.isEmpty then
    return (none, it)
  let (last, chars) := it.chars.rfind (· != SEPARATOR)
  let indexBack := match last with
    | some (i, _) => i + 1
    | none => 0
  let (sep, chars) := chars.rfind (· == SEPARATOR)
  let prevPos := match sep with
    | some (i, _) => i + 1
    | none => it.indexFront
  if it.indexFront < indexBack then
    let filename ← sliceRange it.inner prevPos indexBack
    return (some filename, { it with chars, indexBack := prevPos })
  else
    return (none, { it with chars, indexBack })

@[simp] theorem inner_new (p : Path) : (new p).inner = p := rfl
@[simp] theorem chars_new (p : Path) : (new p).chars = ⟨0, p⟩ := rfl
@[simp] theorem indexFront_new (p : Path) : (new p).indexFront = 0 := rfl
@[simp] theorem indexBack_new (p : Path) : (new p).indexBack = byteLen p := rfl

/-- The first `find` of `next` on a fresh iterator stops at the first character of the first
    component, after the separators before it. -/
theorem find_new {seps rest : Path} {c : Char} (hseps : ∀ x ∈ seps, x = SEPARATOR)
    (hc : c ≠ SEPARATOR) :
    (new (seps ++ c :: rest)).chars.find (· != SEPARATOR) =
      (some (byteLen seps, c), ⟨byteLen seps + c.utf8Size, rest⟩) := by
  have h := @CharIndices.find_append (· != SEPARATOR) c (by simpa using hc) rest seps 0
    fun x hx => by simp [hseps x hx]
  rw [Nat.zero_add] at h
  exact h

/-- `next` on a path whose first component starts with a multi-byte character panics: the
    component is sliced from `offset() - 1`, the last byte of that character. -/
theorem next_multibyte_panics {seps rest : Path} {c : Char} (hseps : ∀ x ∈ seps, x = SEPARATOR)
    (hc : c ≠ SEPARATOR) (hsize : 1 < c.utf8Size) :
    (new (seps ++ c :: rest)).next = .error ⟨NOT_A_CHAR_BOUNDARY⟩ := by
  have hlen : byteLen (seps ++ c :: rest) = byteLen seps + c.utf8Size + byteLen rest := by
    simp [Nat.add_assoc]
  have hstart : byteLen seps + c.utf8Size - 1 = byteLen seps + (c.utf8Size - 1) := by omega
  unfold next
  rw [find_new hseps hc, if_neg (by simp; omega)]
  dsimp only
  -- the component ends at the next separator, or at the end of the path
  rcases CharIndices.find_cases (· == SEPARATOR) rest (byteLen seps + c.utf8Size) with
    hnone | ⟨pre, d, post, rfl, hd, hsome⟩
  · have hslice := @sliceRange_inside_char seps rest [] c (c.utf8Size - 1) (by omega) (by omega)
    rw [List.append_nil] at hslice
    rw [hnone]
    dsimp only
    rw [if_pos (Or.inr (by simp only [CharIndices.offset, indexBack_new]; omega))]
    simp only [CharIndices.offset, inner_new, Option.isSome_none, Bool.false_eq_true, if_false,
      Nat.sub_zero]
    rw [hstart, ← hlen, hslice]
    rfl
  · have hsep : d = SEPARATOR := by simpa using hd
    subst hsep
    have hslice := @sliceRange_inside_char seps pre (SEPARATOR :: post) c (c.utf8Size - 1)
      (by omega) (by omega)
    have hend : byteLen seps + c.utf8Size + byteLen pre + SEPARATOR.utf8Size - 1 =
        byteLen (seps ++ c :: pre) := by
      rw [byteLen_append, byteLen_cons, show SEPARATOR.utf8Size = 1 by decide]
      omega
    rw [hsome]
    dsimp only
    rw [if_pos (Or.inl Option.isSome_some)]
    simp only [CharIndices.offset, inner_new, Option.isSome_some, if_true]
    rw [hstart, hend, hslice]
    rfl

/-- `next_back` on a path whose last component ends in a multi-byte character panics: the
    component is sliced up to the byte after that character's first byte. -/
theorem nextBack_multibyte_panics {rest seps : Path} {c : Char} (hseps : ∀ x ∈ seps, x = SEPARATOR)
    (hc : c ≠ SEPARATOR) (hsize : 1 < c.utf8Size) :
    (new (rest ++ c :: seps)).nextBack = .error ⟨NOT_A_CHAR_BOUNDARY⟩ := by
  have hlast : (new (rest ++ c :: seps)).chars.rfind (· != SEPARATOR) =
      (some (byteLen rest, c), ⟨0, rest⟩) := by
    have h := @CharIndices.rfindRev_append (· != SEPARATOR) c (by simpa using hc) rest.reverse 0
      seps.reverse fun x hx => by simp [hseps x (List.mem_reverse.1 hx)]
    simpa [CharIndices.rfind] using h
  -- the component starts after the separator before it, or at `index_front = 0`
  obtain ⟨prevPos, hprev, hle⟩ : ∃ prevPos,
      (match (CharIndices.rfind (· == SEPARATOR) ⟨0, rest⟩).1 with
        | some (i, _) => i + 1
        | none => (new (rest ++ c :: seps)).indexFront) = prevPos ∧ prevPos ≤ byteLen rest := by
    cases hsep : CharIndices.rfind (· == SEPARATOR) ⟨0, rest⟩ with
    | mk found it =>
      cases found with
      | none => exact ⟨0, rfl, Nat.zero_le _⟩
      | some id =>
        have hle := CharIndices.rfindRev_le hsep
        simp only [byteLen_reverse, Nat.zero_add] at hle
        exact ⟨id.1 + 1, rfl, by have := Char.utf8Size_pos id.2; omega⟩
  have hslice : sliceRange (rest ++ c :: seps) prevPos (byteLen rest + 1) =
      .error ⟨NOT_A_CHAR_BOUNDARY⟩ := by
    unfold sliceRange
    rw [if_neg (by omega), sliceTo_inside_char rest seps (Nat.one_pos) hsize]
    rfl
  unfold nextBack
  rw [if_neg (by simp), hlast]
  dsimp only
  rw [hprev, if_pos (by simp), inner_new, hslice]
  rfl

theorem next_slash_e_acute_panics : (new ['/', 'é']).next = .error ⟨NOT_A_CHAR_BOUNDARY⟩ :=
  @next_multibyte_panics ['/'] [] 'é' (by simp [SEPARATOR]) (by decide) (by decide)

end Filenames

end Muffin.KernelVfs
