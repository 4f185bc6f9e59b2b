-- SUMMARY: The components of a path: `Filenames` proved to yield the pieces between separators, `OwnedPath::push` proved to concatenate them, and `push` and `append_str` proved to keep an `AbsoluteOwnedPath` absolute.
import Muffin.Vfs.Vfs

/-!
# Components, `push` and `append_str`

The components of a path are the pieces between its separators, without the
empty pieces that leading, trailing and repeated separators leave. `Filenames`
does not split the path: it walks `CharIndices`, skips separators with
`find`, starts a component at `offset() - 1` and ends it at the next
separator. `filenames_eq_mapM` says that this walk yields the components, in
order, and panics on the first component whose first character takes more
than one byte, where `offset() - 1` is not a character boundary.

`OwnedPath::push` adds a separator unless the path already ends in one, and
then the other path. It adds the components of the other path after those of
the path, and a panic of `Filenames` on either side is a panic on the pushed
path.

`AbsoluteOwnedPath` hands out its `OwnedPath` through `DerefMut`, and the two
mutations of an `OwnedPath` are `push` and `append_str`. Both only add
characters at the end, so the path keeps its leading separator.
-/

namespace Muffin.KernelVfs

open Rust Str

/-! ## Components -/

/-- The components of a path: the pieces between its separators, without the empty ones. -/
def components (p : Path) : List Path := (p.splitOn SEPARATOR).filter (!·.isEmpty)

@[simp] theorem components_nil : components [] = [] := by
  simp [components]

/-- A separator splits the components; every other lemma about `components` follows from this
    one. -/
theorem components_append_separator (p q : Path) :
    components (p ++ SEPARATOR :: q) = components p ++ components q := by
  rw [components, List.splitOn_append_cons_self, List.filter_append]
  rfl

theorem components_cons_separator (q : Path) : components (SEPARATOR :: q) = components q := by
  simpa using components_append_separator [] q

/-- Separators before a path add no component. -/
theorem components_separators_append {seps : Path} (hseps : ∀ x ∈ seps, x = SEPARATOR)
    (q : Path) : components (seps ++ q) = components q := by
  induction seps with
  | nil => rfl
  | cons x seps ih =>
    rw [List.cons_append, hseps x (List.mem_cons_self ..), components_cons_separator]
    exact ih fun y hy => hseps y (List.mem_cons_of_mem _ hy)

theorem components_of_forall_separator {s : Path} (hs : ∀ x ∈ s, x = SEPARATOR) :
    components s = [] := by
  simpa using components_separators_append hs []

/-- A non-empty path without a separator is one component. -/
theorem components_of_forall_ne {w : Path} (hne : w ≠ []) (hw : ∀ x ∈ w, x ≠ SEPARATOR) :
    components w = [w] := by
  rw [components, List.splitOn_eq_singleton fun hmem => hw _ hmem rfl]
  simp [hne]

/-- A first component after separators, the last one of the path. -/
theorem components_last {seps word : Path} {c : Char} (hseps : ∀ x ∈ seps, x = SEPARATOR)
    (hc : c ≠ SEPARATOR) (hword : ∀ x ∈ word, x ≠ SEPARATOR) :
    components (seps ++ c :: word) = [c :: word] := by
  rw [components_separators_append hseps]
  refine components_of_forall_ne (List.cons_ne_nil c word) fun x hx => ?_
  rcases List.mem_cons.1 hx with rfl | hx
  · exact hc
  · exact hword x hx

/-- A first component after separators, with a separator after it. -/
theorem components_first {seps word rest : Path} {c : Char} (hseps : ∀ x ∈ seps, x = SEPARATOR)
    (hc : c ≠ SEPARATOR) (hword : ∀ x ∈ word, x ≠ SEPARATOR) :
    components (seps ++ c :: (word ++ SEPARATOR :: rest)) = (c :: word) :: components rest := by
  rw [← List.cons_append, ← List.append_assoc, components_append_separator,
    components_last hseps hc hword]
  rfl

/-- A path is separators only, or separators and then a first character that is not one. -/
theorem Path.separators_or_first (s : Path) :
    (∀ x ∈ s, x = SEPARATOR) ∨
      ∃ seps c r, (∀ x ∈ seps, x = SEPARATOR) ∧ c ≠ SEPARATOR ∧ s = seps ++ c :: r := by
  have hsplit := List.takeWhile_append_dropWhile (p := (· == SEPARATOR)) (l := s)
  have hseps : ∀ x ∈ s.takeWhile (· == SEPARATOR), x = SEPARATOR :=
    fun x hx => by simpa using List.all_eq_true.1 (List.all_takeWhile (l := s)) x hx
  rcases hd : s.dropWhile (· == SEPARATOR) with _ | ⟨c, r⟩
  · left
    rw [hd, List.append_nil] at hsplit
    rw [← hsplit]
    exact hseps
  · right
    have hc := List.head?_dropWhile_not (· == SEPARATOR) s
    rw [hd] at hc
    refine ⟨_, c, r, hseps, by simpa using hc, ?_⟩
    rw [← hd, hsplit]

/-! ## `Filenames` yields the components

`Filenames::next` starts a component at `offset() - 1`, one byte before the end
of its first character. `yieldComponent` says what the slice from there gives:
the component when that character takes one byte, and the panic of a byte
index inside a character when it takes more. The end of a component is the
offset of the separator after it, or the end of the path, which is always a
boundary. -/

/-- A component as `Filenames::next` slices it from the last byte of its first character. -/
def yieldComponent : Path → Except Panic Path
  | [] => .ok []
  | c :: word => if c.utf8Size = 1 then .ok (c :: word) else .error ⟨NOT_A_CHAR_BOUNDARY⟩

/-- The slice of a component from `offset() - 1` to its end. -/
theorem sliceRange_component (pre word u : Path) (c : Char) :
    sliceRange (pre ++ c :: (word ++ u)) (byteLen pre + c.utf8Size - 1)
        (byteLen (pre ++ c :: word)) = yieldComponent (c :: word) := by
  by_cases hone : c.utf8Size = 1
  · rw [hone, Nat.add_sub_cancel, ← List.cons_append, ← List.append_assoc,
      sliceRange_append_byteLen]
    simp [yieldComponent, hone]
  · -- the slice starts inside the character
    have hwide : 1 < c.utf8Size := by
      have := Char.utf8Size_pos c
      omega
    rw [show byteLen pre + c.utf8Size - 1 = byteLen pre + (c.utf8Size - 1) by omega,
      sliceRange_inside_char pre word u (by omega) (by omega)]
    simp [yieldComponent, hone]

/-- `CharIndices::offset` of the characters from `off` on, in a path that ends after them. -/
theorem offset_charIndicesFrom {len off : Nat} {s : Path} (h : len = off + byteLen s) :
    Path.offset len (charIndicesFrom off s) = off := by
  cases s with
  | nil => simpa [charIndicesFrom, Path.offset] using h
  | cons c s => rfl

section Rounds

/-! Each lemma here is one round of `next`, from byte `byteLen t` of `t ++ s` on: `s` is
    separators only, or its first component is the last one, or a separator follows it. -/

variable {t seps word rest : Path} {c : Char}

theorem nextFilename_separators {s : Path} (hs : ∀ x ∈ s, x = SEPARATOR) :
    Path.nextFilename (t ++ s) (charIndicesFrom (byteLen t) s) (byteLen t) = .ok none := by
  unfold Path.nextFilename
  dsimp only
  split_ifs
  · rfl
  · rw [dropWhile_charIndicesFrom_of_forall (p := (· == SEPARATOR)) s _ (by simpa using hs)]
    rfl

theorem nextFilename_last (hseps : ∀ x ∈ seps, x = SEPARATOR) (hc : c ≠ SEPARATOR)
    (hword : ∀ x ∈ word, x ≠ SEPARATOR) :
    Path.nextFilename (t ++ (seps ++ c :: word)) (charIndicesFrom (byteLen t) (seps ++ c :: word))
        (byteLen t) =
      (fun name => some (name, [], byteLen (t ++ (seps ++ c :: word)))) <$>
        yieldComponent (c :: word) := by
  have hpos := Char.utf8Size_pos c
  have hlen : byteLen (t ++ (seps ++ c :: word)) =
      byteLen t + byteLen seps + c.utf8Size + byteLen word := by
    simp only [byteLen_append, byteLen_cons]
    omega
  unfold Path.nextFilename
  dsimp only
  rw [if_neg (by simp [hlen]; omega),
    dropWhile_charIndicesFrom_append (p := (· == SEPARATOR)) (by simpa using hc) word seps _
      (by simpa using hseps)]
  simp only [charIndicesFrom]
  rw [offset_charIndicesFrom (by rw [hlen]),
    dropWhile_charIndicesFrom_of_forall (p := (· != SEPARATOR)) word _ (by simpa using hword)]
  dsimp only
  -- no separator follows: the component ends at the end of the path
  have hslice : sliceRange (t ++ (seps ++ c :: word)) (byteLen t + byteLen seps + c.utf8Size - 1)
      (byteLen (t ++ (seps ++ c :: word))) = yieldComponent (c :: word) := by
    have h := sliceRange_component (t ++ seps) word [] c
    rwa [List.append_nil, List.append_assoc, byteLen_append t seps] at h
  rw [if_pos (Or.inr (by omega))]
  simp only [Path.offset, Option.isSome_none, Bool.false_eq_true, if_false, Nat.sub_zero, hslice,
    bind_pure_comp]

theorem nextFilename_component (hseps : ∀ x ∈ seps, x = SEPARATOR) (hc : c ≠ SEPARATOR)
    (hword : ∀ x ∈ word, x ≠ SEPARATOR) :
    Path.nextFilename (t ++ (seps ++ c :: (word ++ SEPARATOR :: rest)))
        (charIndicesFrom (byteLen t) (seps ++ c :: (word ++ SEPARATOR :: rest))) (byteLen t) =
      (fun name => some (name, charIndicesFrom (byteLen (t ++ seps ++ c :: word ++ [SEPARATOR])) rest,
        byteLen (t ++ seps ++ c :: word ++ [SEPARATOR]))) <$> yieldComponent (c :: word) := by
  have hpos := Char.utf8Size_pos c
  have hsep : SEPARATOR.utf8Size = 1 := by decide
  have hlen : byteLen (t ++ (seps ++ c :: (word ++ SEPARATOR :: rest))) =
      byteLen t + byteLen seps + c.utf8Size + byteLen word + 1 + byteLen rest := by
    simp only [byteLen_append, byteLen_cons, hsep]
    omega
  have hnext : byteLen (t ++ seps ++ c :: word ++ [SEPARATOR]) =
      byteLen t + byteLen seps + c.utf8Size + byteLen word + 1 := by
    simp only [byteLen_append, byteLen_cons, byteLen_nil, hsep]
    omega
  unfold Path.nextFilename
  dsimp only
  rw [if_neg (by simp [hlen]; omega),
    dropWhile_charIndicesFrom_append (p := (· == SEPARATOR)) (by simpa using hc) _ seps _
      (by simpa using hseps)]
  simp only [charIndicesFrom]
  rw [offset_charIndicesFrom (by rw [hlen]; simp only [byteLen_append, byteLen_cons, hsep]; omega),
    dropWhile_charIndicesFrom_append (p := (· != SEPARATOR)) (by simp) rest word _
      (by simpa using hword)]
  simp only [charIndicesFrom]
  -- the component ends at the separator after it
  have hslice := sliceRange_component (t ++ seps) word (SEPARATOR :: rest) c
  rw [show byteLen (t ++ seps ++ c :: word) = byteLen t + byteLen seps + c.utf8Size + byteLen word
      by simp only [byteLen_append, byteLen_cons]; omega,
    List.append_assoc t seps, byteLen_append t seps] at hslice
  rw [offset_charIndicesFrom (by rw [hlen, hsep])]
  simp only [Option.isSome_some, true_or, ↓reduceIte, hsep, Nat.add_sub_cancel, hslice, hnext,
    bind_pure_comp]

end Rounds

/-- `Filenames` from byte `byteLen t` of `t ++ s` on yields the components of `s`, each as
    `yieldComponent` slices it, given one round for each component and one more to end. -/
theorem filenamesFrom_charIndicesFrom {p : Path} (fuel : Nat) :
    ∀ {t s : Path}, t ++ s = p → s.length < fuel →
      Path.filenamesFrom p fuel (charIndicesFrom (byteLen t) s) (byteLen t) =
        (components s).mapM yieldComponent := by
  induction fuel with
  | zero =>
    intro t s _ hfuel
    exact absurd hfuel (Nat.not_lt_zero _)
  | succ fuel ih =>
    intro t s hp hfuel
    subst hp
    rcases Path.separators_or_first s with hall | ⟨seps, c, r, hseps, hc, rfl⟩
    · -- separators only: the round ends the iteration
      rw [Path.filenamesFrom, nextFilename_separators hall, components_of_forall_separator hall]
      rfl
    by_cases hsep : SEPARATOR ∈ r
    · -- a separator ends the first component, and the rounds go on after it
      obtain ⟨word, rest, rfl, hword⟩ := List.eq_append_cons_of_mem hsep
      have hword' : ∀ x ∈ word, x ≠ SEPARATOR := fun x hx h => hword (h ▸ hx)
      rw [Path.filenamesFrom, nextFilename_component hseps hc hword',
        components_first hseps hc hword', List.mapM_cons]
      cases yieldComponent (c :: word) with
      | error e => rfl
      | ok name =>
        have hrest := ih (t := t ++ seps ++ c :: word ++ [SEPARATOR]) (s := rest) (by simp)
          (by simp only [List.length_append, List.length_cons] at hfuel; omega)
        rw [← hrest]
        rfl
    · -- the first component is the last one
      have hword : ∀ x ∈ r, x ≠ SEPARATOR := fun x hx h => hsep (h ▸ hx)
      rw [Path.filenamesFrom, nextFilename_last hseps hc hword, components_last hseps hc hword,
        List.mapM_cons]
      cases yieldComponent (c :: r) with
      | error e => rfl
      | ok name =>
        have hend := ih (t := t ++ (seps ++ c :: r)) (s := []) (List.append_nil _)
          (by simp only [List.length_append, List.length_cons, List.length_nil] at hfuel ⊢; omega)
        -- the next round starts at the end of the path and yields nothing
        show (Path.filenamesFrom _ fuel (charIndicesFrom (byteLen (t ++ (seps ++ c :: r))) []) _ >>=
          fun names => pure (name :: names)) = pure [name]
        rw [hend]
        rfl

/-- `Path::filenames` yields the components of the path, and panics at the first one whose first
    character takes more than one byte. -/
theorem filenames_eq_mapM (p : Path) : Path.filenames p = (components p).mapM yieldComponent :=
  filenamesFrom_charIndicesFrom (p.length + 1) (t := []) (List.nil_append p) (Nat.lt_succ_self _)

/-! ## `OwnedPath::push`

`push` adds exactly one separator between the path and the other path: none
when the path already ends in one, unless the other path is empty. Either way
the components of the other path come after those of the path. -/

/-- `OwnedPath::push` adds the components of `other` after those of the path. -/
theorem components_push (p other : Path) :
    components (p.push other) = components p ++ components other := by
  unfold Path.push
  split_ifs with hlast hempty
  · exact components_append_separator p other
  · -- a second separator after the last one adds no component
    rw [List.isEmpty_iff.1 hempty, components_append_separator, components_nil]
  · -- the separator the path ends in now splits it from `other`
    obtain ⟨p', rfl⟩ := List.getLast?_eq_some_iff.1 (not_not.1 hlast)
    rw [List.append_assoc, List.singleton_append, components_append_separator,
      components_append_separator, components_nil, List.append_nil]

/-- `Filenames` over a pushed path: the components of the path, then those of `other`, with a
    panic of either side. -/
theorem filenames_push (p other : Path) :
    Path.filenames (p.push other) =
      (do return (← Path.filenames p) ++ (← Path.filenames other)) := by
  rw [filenames_eq_mapM, filenames_eq_mapM, filenames_eq_mapM, components_push, List.mapM_append]

example : Path.filenames (Path.push ['/', 'a', '/'] ['b', '/']) = .ok [['a'], ['b']] := by decide

example : Path.filenames (Path.push ['/', 'a'] ['é']) = .error ⟨NOT_A_CHAR_BOUNDARY⟩ := by decide

/-! ## `AbsoluteOwnedPath` through `DerefMut`

`AbsoluteOwnedPath` checks that its path is absolute when it is built, by
`new` or `try_from`, and never again. `DerefMut` gives out the `OwnedPath`
inside, whose two mutations are `push` and `append_str`. -/

/-- `OwnedPath::append_str`: the string is added as it is, with no separator. -/
def Path.appendStr (p other : Path) : Path := p ++ other

/-- The mutations of an `OwnedPath` that `DerefMut` lets through to the path of an
    `AbsoluteOwnedPath`. -/
inductive PathEdit
  | push (other : Path)
  | appendStr (other : Path)
  deriving DecidableEq, Repr

/-- One mutation. -/
def PathEdit.apply : PathEdit → Path → Path
  | .push other, p => p.push other
  | .appendStr other, p => p.appendStr other

/-- Mutations, in order. -/
def Path.applyEdits (p : Path) (edits : List PathEdit) : Path :=
  edits.foldl (fun p e => e.apply p) p

/-- `PathNotAbsoluteError`. -/
structure PathNotAbsoluteError where
  deriving DecidableEq, Repr

/-- `AbsoluteOwnedPath`: an `OwnedPath` that starts with a separator. -/
structure AbsoluteOwnedPath where
  inner : Path
  absolute : inner.isAbsolute = true

/-- `AbsoluteOwnedPath::new`: the root. -/
def AbsoluteOwnedPath.new : AbsoluteOwnedPath := ⟨ROOT, rfl⟩

/-- `TryFrom<OwnedPath> for AbsoluteOwnedPath`. -/
def AbsoluteOwnedPath.tryFrom (value : Path) : Except PathNotAbsoluteError AbsoluteOwnedPath :=
  if h : value.isAbsolute = true then .ok ⟨value, h⟩ else .error ⟨⟩

/-- Characters added at the end keep a path absolute. -/
theorem isAbsolute_append {p : Path} (h : p.isAbsolute = true) (q : Path) :
    (p ++ q).isAbsolute = true := by
  cases p with
  | nil => exact absurd h (by decide)
  | cons x p => exact h

theorem PathEdit.isAbsolute_apply {p : Path} (e : PathEdit) (h : p.isAbsolute = true) :
    (e.apply p).isAbsolute = true := by
  cases e with
  | push other =>
    show (p.push other).isAbsolute = true
    unfold Path.push
    split_ifs <;> exact isAbsolute_append h _
  | appendStr other => exact isAbsolute_append h other

/-- Every run of mutations keeps a path absolute. -/
theorem Path.isAbsolute_applyEdits (edits : List PathEdit) :
    ∀ {p : Path}, p.isAbsolute = true → (p.applyEdits edits).isAbsolute = true := by
  induction edits with
  | nil => exact id
  | cons e edits ih => exact fun h => ih (e.isAbsolute_apply h)

theorem filenames_push_absolute_edits (p other : Path) (path : AbsoluteOwnedPath)
    (edits : List PathEdit) :
    Path.filenames (p.push other) =
        (do return (← Path.filenames p) ++ (← Path.filenames other)) ∧
      (path.inner.applyEdits edits).isAbsolute = true :=
  ⟨filenames_push p other, Path.isAbsolute_applyEdits edits path.absolute⟩

end Muffin.KernelVfs
