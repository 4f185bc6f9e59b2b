-- SUMMARY: Paths of `kernel_vfs` at the level of their string: `Path::parent`, the `Filenames` iterator and `strip_prefix`, with the byte offsets they compute and the panics those offsets can cause.
import Muffin.Lib.Str

/-!
# Paths

A `Path` is a `str`, and its operations work on byte offsets. `parent` finds
the last character that is not a `/`, slices the path just after it, finds
the `/` before that component and slices the path after the last
non-separator before the `/`. Both slices end one byte after the start of a
character, which is a character boundary only for a one-byte character: on
a component that ends in a multi-byte character the slice panics.

`Filenames` walks a `CharIndices` iterator and takes `offset() - 1` as the
start of a component, which is again one byte before the end of the first
character of the component.
-/

namespace Muffin.KernelVfs

open Rust Str

/-- A `Path`: the characters of its `str`. -/
abbrev Path := List Char

/-- `FILEPATH_SEPARATOR`. -/
def SEPARATOR : Char := '/'

/-- `ROOT`. -/
def ROOT : Path := ['/']

namespace Path

/-- `Path::is_absolute`. -/
def isAbsolute (p : Path) : Bool := p.head? == some SEPARATOR

/-- `Path::parent`. -/
def parent (p : Path) : Except Panic (Option Path) := do
  if p.isEmpty then
    return none
  let some lastNonSep := rfind p (· != SEPARATOR) | return none
  let component ← sliceTo p (lastNonSep + 1)
  match rfind component (· == SEPARATOR) with
  | some sep =>
    let before ← sliceTo p sep
    match rfind before (· != SEPARATOR) with
    | some pos => return some (← sliceTo p (pos + 1))
    | none => return none
  | none =>
    -- a single relative component: `.` and `..` are their own parent
    if p = ['.'] ∨ p = ['.', '.'] then return some p else return none

/-- `CharIndices::offset`: the offset of the next character, or the end. -/
def offset (len : Nat) : List (Nat × Char) → Nat
  | [] => len
  | (i, _) :: _ => i

/-- `Filenames::next` on the remaining characters `chars`, with `index_front = front` and
    `index_back` at the end of the path: the next component, the characters after it and the
    new `index_front`. -/
def nextFilename (p : Path) (chars : List (Nat × Char)) (front : Nat) :
    Except Panic (Option (Path × List (Nat × Char) × Nat)) := do
  let len := byteLen p
  if p.isEmpty ∨ len ≤ front then
    return none
  match chars.dropWhile (·.2 == SEPARATOR) with
  | [] => return none
  | _ :: rest =>
    let front := offset len rest - 1
    let (nextPos, rest) :=
      match rest.dropWhile (·.2 != SEPARATOR) with
      | [] => ((none : Option Nat), ([] : List (Nat × Char)))
      | (j, _) :: rest => (some j, rest)
    if nextPos.isSome ∨ front < len then
      let name ← sliceRange p front (offset len rest - if nextPos.isSome then 1 else 0)
      return some (name, rest, offset len rest)
    else
      return none

/-- The components `Filenames` yields, with `fuel` rounds. Each round that yields a component
    consumes at least one character, so `p.length + 1` rounds reach the end. -/
def filenamesFrom (p : Path) : Nat → List (Nat × Char) → Nat → Except Panic (List Path)
  | 0, _, _ => pure []
  | fuel + 1, chars, front => do
    match ← nextFilename p chars front with
    | none => return []
    | some (name, chars, front) => return name :: (← filenamesFrom p fuel chars front)

/-- `path.filenames()`, collected. -/
def filenames (p : Path) : Except Panic (List Path) := filenamesFrom p (p.length + 1) (charIndices p) 0

/-- `Path::strip_prefix`, the one of `str`. -/
def stripPrefix (p pre : Path) : Option Path := Str.stripPrefix p pre

/-- The empty path has no components. -/
@[simp] theorem filenames_nil : filenames [] = .ok [] := rfl

/-- `parent` of a path whose last character takes several bytes panics: the slice after that
    character's first byte is not at a character boundary. -/
theorem parent_multibyte {s : Path} {c : Char} (hc : c ≠ SEPARATOR) (hsize : 1 < c.utf8Size) :
    parent (s ++ [c]) = .error ⟨NOT_A_CHAR_BOUNDARY⟩ := by
  have hne : (s ++ [c]).isEmpty = false := by simp
  have hfind : rfind (s ++ [c]) (· != SEPARATOR) = some (byteLen s) :=
    rfind_append_singleton (by simpa using hc)
  unfold parent
  rw [hne, hfind]
  simp only [Bool.false_eq_true, if_false, bind]
  rw [sliceTo_inside_char s [] (by decide) hsize]
  rfl

/-- `parent` of a path whose last component comes after a component that ends in a multi-byte
    character panics: the last component is sliced off at a boundary, and then the path is
    sliced one byte after the start of that character. -/
theorem parent_multibyte_before_last {s t : Path} {c : Char} (hc : c ≠ SEPARATOR)
    (hsize : 1 < c.utf8Size) (ht : ∀ x ∈ t, x ≠ SEPARATOR) :
    parent (s ++ c :: SEPARATOR :: t) = .error ⟨NOT_A_CHAR_BOUNDARY⟩ := by
  have hne : (s ++ c :: SEPARATOR :: t).isEmpty = false := by simp
  have hinside := sliceTo_inside_char s (SEPARATOR :: t) (Nat.one_pos) hsize
  unfold parent
  rw [hne]
  simp only [Bool.false_eq_true, if_false, bind]
  rcases List.eq_nil_or_concat t with rfl | ⟨t', d, rfl⟩
  · -- a trailing separator: the last non-separator is `c` itself
    have hfind : rfind (s ++ [c, SEPARATOR]) (· != SEPARATOR) = some (byteLen s) :=
      rfind_append_cons (by simpa using hc) (by simp)
    rw [hfind]
    dsimp only
    rw [hinside]
    rfl
  · simp only [List.concat_eq_append] at ht hinside ⊢
    have hd : d ≠ SEPARATOR := ht d (by simp)
    have hpath : s ++ c :: SEPARATOR :: (t' ++ [d]) = (s ++ c :: SEPARATOR :: t') ++ [d] := by simp
    have hlast : rfind (s ++ c :: SEPARATOR :: (t' ++ [d])) (· != SEPARATOR) =
        some (byteLen (s ++ c :: SEPARATOR :: t')) := by
      rw [hpath]
      exact rfind_append_singleton (by simpa using hd)
    rw [hlast]
    dsimp only
    by_cases hwide : 1 < d.utf8Size
    · -- the last component ends in a multi-byte character too
      rw [hpath, sliceTo_inside_char _ [] Nat.one_pos hwide]
      rfl
    · have hone : d.utf8Size = 1 := by have := Char.utf8Size_pos d; omega
      have hcomponent : sliceTo (s ++ c :: SEPARATOR :: (t' ++ [d]))
          (byteLen (s ++ c :: SEPARATOR :: t') + 1) = .ok (s ++ c :: SEPARATOR :: (t' ++ [d])) := by
        have h := sliceTo_append_byteLen ((s ++ c :: SEPARATOR :: t') ++ [d]) []
        rw [List.append_nil, byteLen_append, byteLen_cons, byteLen_nil, hone] at h
        rw [hpath]
        exact h
      have hsep : rfind (s ++ c :: SEPARATOR :: (t' ++ [d])) (· == SEPARATOR) =
          some (byteLen (s ++ [c])) := by
        rw [show s ++ c :: SEPARATOR :: (t' ++ [d]) = (s ++ [c]) ++ SEPARATOR :: (t' ++ [d]) by simp]
        exact rfind_append_cons (by simp) fun x hx => by simpa using ht x hx
      have hbefore : sliceTo (s ++ c :: SEPARATOR :: (t' ++ [d])) (byteLen (s ++ [c])) =
          .ok (s ++ [c]) := by
        rw [show s ++ c :: SEPARATOR :: (t' ++ [d]) = (s ++ [c]) ++ SEPARATOR :: (t' ++ [d]) by simp]
        exact sliceTo_append_byteLen _ _
      have hfind : rfind (s ++ [c]) (· != SEPARATOR) = some (byteLen s) :=
        rfind_append_singleton (by simpa using hc)
      rw [hcomponent]
      dsimp only [Except.bind]
      rw [hsep]
      dsimp only
      rw [hbefore]
      dsimp only [Except.bind]
      rw [hfind]
      dsimp only
      rw [hinside]

/-- `parent` panics on a path whose last component, or the component before the last one,
    ends in a multi-byte character. -/
theorem parent_panics_on_multibyte {s t : Path} {c : Char} (hc : c ≠ SEPARATOR)
    (hsize : 1 < c.utf8Size) (ht : ∀ x ∈ t, x ≠ SEPARATOR) :
    parent (s ++ [c]) = .error ⟨NOT_A_CHAR_BOUNDARY⟩ ∧
      parent (s ++ c :: SEPARATOR :: t) = .error ⟨NOT_A_CHAR_BOUNDARY⟩ :=
  ⟨parent_multibyte hc hsize, parent_multibyte_before_last hc hsize ht⟩

theorem parent_e_acute_panics :
    parent ['é'] = .error ⟨NOT_A_CHAR_BOUNDARY⟩ ∧
      parent ['é', '/', 'a'] = .error ⟨NOT_A_CHAR_BOUNDARY⟩ :=
  @parent_panics_on_multibyte [] ['a'] 'é' (by decide) (by decide) (by simp [SEPARATOR])

end Path

end Muffin.KernelVfs
