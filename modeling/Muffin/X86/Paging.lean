-- SUMMARY: Mapping 4 KiB pages in x86-64 page tables as the `x86_64` crate's `map_to` does it, with a page-by-page `map_range` over a frame iterator, and the facts that a run never removes an entry.
import Muffin.X86.Addr
import Muffin.Lib.EStateM

/-!
# Page tables

`PageTables` is what the kernel's mapper sees of one address space: the
level-1 entry of every page, and which intermediate tables are present. The
level-`k` table (`k` = 1, 2, 3) that a page `p` goes through is named by
`p / 512 ^ k`, so the pages that share a table share that number.

`mapTo` is `RecursivePageTable::map_to` for a 4 KiB page: it creates each
missing intermediate table with a frame from the allocator, failing with
`FrameAllocationFailed` when there is none, and refuses a page whose entry is in
use. A failure keeps the tables it created. `mapRange` is the kernel's
`AddressSpaceMapper::map_range`: it takes a frame from an iterator for each page
of the range and maps it, stopping at the first failure.

The allocator is a parameter: its state `A` and the function that hands out a
frame for a new table (the crate zeroes that frame, which the caller's `alloc`
includes). Huge pages do not occur in the address spaces the kernel builds and
are left out.
-/

namespace X86

/-- A level-1 entry: the frame a page maps and the entry's flags. -/
structure Pte where
  frame : Nat
  flags : PageTableFlags
  deriving DecidableEq, Repr

/-- `MapToError`. -/
inductive MapToError where
  | frameAllocationFailed
  | parentEntryHugePage
  | pageAlreadyMapped (frame : Nat)
  deriving DecidableEq, Repr

/-- `FlagUpdateError`, without `ParentEntryHugePage`: huge pages do not occur. -/
inductive FlagUpdateError where
  | pageNotMapped
  deriving DecidableEq, Repr

/-- The page tables of one address space. -/
structure PageTables where
  /-- The level-1 entry of each page number. -/
  entry : Nat → Option Pte
  /-- `table k i`: the level-`k` table of the pages `p` with `p / 512 ^ k = i` is present. -/
  table : Nat → Nat → Bool

namespace PageTables

/-- `translate_flags`: the flags of the entry that maps page `p`. -/
def translateFlags (pt : PageTables) (p : Nat) : Option PageTableFlags :=
  (pt.entry p).map Pte.flags

/-- Install the level-`k` table numbered `i`. -/
def addTable (pt : PageTables) (k i : Nat) : PageTables :=
  { pt with table := fun k' i' => (k' == k && i' == i) || pt.table k' i' }

/-- Set the level-1 entry of page `p`. -/
def setEntry (pt : PageTables) (p : Nat) (e : Pte) : PageTables :=
  { pt with entry := Function.update pt.entry p (some e) }

/-- Clear the level-1 entry of page `p`. -/
def clearEntry (pt : PageTables) (p : Nat) : PageTables :=
  { pt with entry := Function.update pt.entry p none }

/-- `RecursivePageTable::update_flags` for a 4 KiB page: the entry keeps its frame and takes
    `flags`. -/
def updateFlags (pt : PageTables) (p : Nat) (flags : PageTableFlags) : Except FlagUpdateError PageTables :=
  match pt.entry p with
  | some e => .ok (pt.setEntry p ⟨e.frame, flags⟩)
  | none => .error .pageNotMapped

/-- `RecursivePageTable::unmap` for a 4 KiB page: the frame the page mapped, if it was mapped. -/
def unmap (pt : PageTables) (p : Nat) : Option Nat × PageTables :=
  match pt.entry p with
  | some e => (some e.frame, pt.clearEntry p)
  | none => (none, pt)

@[simp] theorem addTable_entry (pt : PageTables) (k i : Nat) : (pt.addTable k i).entry = pt.entry :=
  rfl

theorem setEntry_entry (pt : PageTables) (p : Nat) (e : Pte) (q : Nat) :
    (pt.setEntry p e).entry q = if q = p then some e else pt.entry q := by
  by_cases h : q = p
  · subst h
    simp [setEntry]
  · simp [setEntry, h]

end PageTables

section Map

variable {A : Type} (alloc : A → Option Nat × A)

/-- `create_next_table` for the level-`k` table of page `p`. -/
def createNextTable (k p : Nat) : EStateM MapToError (PageTables × A) Unit := fun s =>
  if s.1.table k (p / 512 ^ k) then .ok () s
  else match alloc s.2 with
    | (some _, a) =>
      .ok () (s.1.addTable k (p / 512 ^ k), a)
    | (none, a) => .error .frameAllocationFailed (s.1, a)

/-- `RecursivePageTable::map_to` for a 4 KiB page `p` and frame `f`. -/
def mapTo (p f : Nat) (flags : PageTableFlags) : EStateM MapToError (PageTables × A) Unit := do
  createNextTable alloc 3 p
  createNextTable alloc 2 p
  createNextTable alloc 1 p
  let s ← get
  match s.1.entry p with
  | some _ => throw (.pageAlreadyMapped f)
  | none => set (s.1.setEntry p ⟨f, flags⟩, s.2)

/-- `AddressSpaceMapper::map_range`: map each page of `pages` to the next frame of the
    iterator `next`, stopping at the first failure. -/
def mapRange (next : A → Option Nat × A) (flags : PageTableFlags) :
    List Nat → EStateM MapToError (PageTables × A) Unit
  | [] => pure ()
  | p :: ps => do
    let s ← get
    match next s.2 with
    | (none, a) =>
      set (s.1, a)
      throw .frameAllocationFailed
    | (some f, a) =>
      set (s.1, a)
      mapTo alloc p f flags
      mapRange next flags ps

end Map

/-- The pages `PageRangeInclusive::from(&segment)` covers: from the page of `start` to the page
    of `start + len - 1`. -/
def pagesOf (start len : Nat) : List Nat :=
  (List.range (pageOf (start + len - 1) + 1 - pageOf start)).map (pageOf start + ·)

/-- Every byte of `[start, start + len)` lies in one of the range's pages. -/
theorem mem_pagesOf {start len i : Nat} (hi : i < len) : pageOf (start + i) ∈ pagesOf start len := by
  unfold pagesOf
  have h₁ : pageOf start ≤ pageOf (start + i) := Nat.div_le_div_right (by omega)
  have h₂ : pageOf (start + i) ≤ pageOf (start + len - 1) := Nat.div_le_div_right (by omega)
  exact List.mem_map.2 ⟨pageOf (start + i) - pageOf start, List.mem_range.2 (by omega), by omega⟩

-- ---------------------------------------------------------------------------
-- What a run does to the entries
-- ---------------------------------------------------------------------------

section Frame

open EStateM

variable {A : Type} (alloc : A → Option Nat × A)

/-- Every entry in use keeps its value. -/
def EntriesKept (s s' : PageTables × A) : Prop :=
  ∀ q, (s.1.entry q).isSome → s'.1.entry q = s.1.entry q

instance : Std.Refl (@EntriesKept A) := ⟨fun _ _ _ => rfl⟩

instance : IsTrans (PageTables × A) EntriesKept :=
  ⟨fun _ _ _ h₁ h₂ q hq => (h₂ q (by rw [h₁ q hq]; exact hq)).trans (h₁ q hq)⟩

theorem createNextTable_moves (k p : Nat) : Moves EntriesKept (createNextTable alloc k p) := by
  intro s q _
  unfold finalState createNextTable
  simp only [EStateM.run]
  by_cases ht : s.1.table k (p / 512 ^ k) = true
  · simp [ht]
  · rcases alloc s.2 with ⟨_ | _, a⟩ <;> simp [ht]

/-- `map_to` writes only an unused entry. -/
theorem mapTo_moves (p f : Nat) (flags : PageTableFlags) :
    Moves EntriesKept (mapTo alloc p f flags) := by
  refine (createNextTable_moves alloc 3 p).seq <| (createNextTable_moves alloc 2 p).seq <|
    (createNextTable_moves alloc 1 p).seq <| Moves.get_bind fun s => ?_
  split <;> rename_i hp
  · exact refl_of EntriesKept s
  · intro q hq
    have hne : q ≠ p := by rintro rfl; simp [hp] at hq
    simp [PageTables.setEntry_entry, hne]

/-- `map_range` never changes an entry in use, on success and on failure: a failing run
    leaves the pages it mapped before the failure mapped. -/
theorem mapRange_moves (next : A → Option Nat × A) (flags : PageTableFlags) (pages : List Nat) :
    Moves EntriesKept (mapRange alloc next flags pages) := by
  induction pages with
  | nil => exact Moves.pure _
  | cons p ps ih =>
    refine Moves.get_bind fun s => ?_
    -- the iterator's step changes no entry; the rest is `map_to` followed by the tail
    rcases next s.2 with ⟨_ | f, a⟩ <;> simp only [finalState_set_bind]
    · exact fun _ _ => rfl
    · exact trans_of EntriesKept (fun _ _ => rfl) ((mapTo_moves alloc p f flags).seq ih (s.1, a))

end Frame

-- ---------------------------------------------------------------------------
-- What a successful run does
-- ---------------------------------------------------------------------------

section Success

open EStateM

variable {A : Type} {alloc : A → Option Nat × A} {Q : A → A → Prop}

/-- A successful `create_next_table` changes no entry, and its allocator only takes a step of
    `alloc`, which moves it along `Q`. -/
theorem createNextTable_run_ok [Std.Refl Q] (hQ : ∀ a r a', alloc a = (r, a') → Q a a')
    {k p : Nat} {s s' : PageTables × A} (h : (createNextTable alloc k p).run s = .ok () s') :
    s'.1.entry = s.1.entry ∧ Q s.2 s'.2 := by
  unfold createNextTable at h
  simp only [EStateM.run] at h
  split at h
  · cases h
    exact ⟨rfl, refl_of Q _⟩
  · split at h <;> rename_i r a ha
    · cases h
      exact ⟨rfl, hQ _ _ _ ha⟩
    · cases h

/-- `create_next_table` fails only for want of a frame. -/
theorem createNextTable_run_error {k p : Nat} {s s' : PageTables × A} {e : MapToError}
    (h : (createNextTable alloc k p).run s = .error e s') : e = .frameAllocationFailed := by
  unfold createNextTable at h
  simp only [EStateM.run] at h
  split at h
  · cases h
  · split at h
    · cases h
    · cases h
      rfl

/-- A successful `map_to` found the page unmapped and mapped it to the frame; the tables it
    created moved the allocator along `Q`. -/
theorem mapTo_run_ok [Std.Refl Q] [IsTrans A Q] (hQ : ∀ a r a', alloc a = (r, a') → Q a a')
    {p f : Nat} {flags : PageTableFlags} {s s' : PageTables × A}
    (h : (mapTo alloc p f flags).run s = .ok () s') :
    s.1.entry p = none ∧ s'.1.entry = Function.update s.1.entry p (some ⟨f, flags⟩) ∧ Q s.2 s'.2 := by
  unfold mapTo at h
  obtain ⟨_, s₁, h₁, h⟩ := run_bind_eq_ok h
  obtain ⟨_, s₂, h₂, h⟩ := run_bind_eq_ok h
  obtain ⟨_, s₃, h₃, h⟩ := run_bind_eq_ok h
  obtain ⟨e₁, q₁⟩ := createNextTable_run_ok hQ h₁
  obtain ⟨e₂, q₂⟩ := createNextTable_run_ok hQ h₂
  obtain ⟨e₃, q₃⟩ := createNextTable_run_ok hQ h₃
  have hentry : s₃.1.entry = s.1.entry := e₃.trans (e₂.trans e₁)
  rw [run_get_bind] at h
  split at h <;> rename_i hp
  · cases h
  · cases h
    exact ⟨hentry ▸ hp, by rw [← hentry]; rfl, trans_of Q (trans_of Q q₁ q₂) q₃⟩

/-- `map_to` answers `PageAlreadyMapped` only for a page that is mapped. -/
theorem mapTo_run_pageAlreadyMapped {p f g : Nat} {flags : PageTableFlags} {s s' : PageTables × A}
    (h : (mapTo alloc p f flags).run s = .error (.pageAlreadyMapped g) s') : (s.1.entry p).isSome := by
  -- the table steps keep every entry, whatever they do to the allocator
  have hkeep : ∀ {k : Nat} {t t' : PageTables × A}, (createNextTable alloc k p).run t = .ok () t' →
      t'.1.entry = t.1.entry := fun ht =>
    (@createNextTable_run_ok A alloc (fun _ _ => True) ⟨fun _ => trivial⟩
      (fun _ _ _ _ => trivial) _ _ _ _ ht).1
  unfold mapTo at h
  rcases run_bind_eq_error h with h₁ | ⟨_, s₁, h₁, h⟩
  · cases createNextTable_run_error h₁
  rcases run_bind_eq_error h with h₂ | ⟨_, s₂, h₂, h⟩
  · cases createNextTable_run_error h₂
  rcases run_bind_eq_error h with h₃ | ⟨_, s₃, h₃, h⟩
  · cases createNextTable_run_error h₃
  have hentry : s₃.1.entry = s.1.entry := (hkeep h₃).trans ((hkeep h₂).trans (hkeep h₁))
  rw [run_get_bind] at h
  split at h <;> rename_i hp
  · rw [← hentry, hp]
    rfl
  · cases h

end Success

end X86
