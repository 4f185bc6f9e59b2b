-- SUMMARY: What a user access reads at an address, and what the kernel's mapping, allocating and writing steps leave of the pages already in use: each new page gets a frame that was free, and every page that maps an allocated frame keeps its entry and its bytes.
import Muffin.Mem.Space

/-!
# Resident pages

The byte a user access reads at an address is the byte of the frame that the
address's page maps (`userByte`). The kernel hands out frames only from the free
ones, so a step that maps new pages cannot touch a frame that a page already
maps, as long as that frame is allocated. `Kept` states this for a whole run:
every page that maps an allocated frame keeps its entry, and its frame stays
allocated with the same bytes.

The successful runs of `map_range`, `allocate` and `write_bytes` are described
once here: the pages a run maps are new, each with its own frame that was free,
and the bytes written through them are the bytes read back. Later proofs cite
these lemmas and never unfold the functions.
-/

namespace Muffin.Mem

open Rust X86 EStateM

namespace PhysicalMemory

/-- Frames only go from free to allocated, and an allocated frame keeps its bytes. -/
def Grows (m m' : PhysicalMemory) : Prop :=
  (∀ f : Nat, m.manager.frames[f]? = some .allocated →
    m'.manager.frames[f]? = some .allocated ∧ m'.contents f = m.contents f) ∧
  ∀ f : Nat, m'.manager.frames[f]? = some .free → m.manager.frames[f]? = some .free

instance : Std.Refl Grows := ⟨fun _ => ⟨fun _ h => ⟨h, rfl⟩, fun _ h => h⟩⟩

instance : IsTrans PhysicalMemory Grows :=
  ⟨fun _ _ _ h₁ h₂ => ⟨fun f hf => ⟨(h₂.1 f (h₁.1 f hf).1).1,
    (h₂.1 f (h₁.1 f hf).1).2.trans (h₁.1 f hf).2⟩, fun f hf => h₁.2 f (h₂.2 f hf)⟩⟩

/-- An allocated frame is not free. -/
theorem ne_of_allocated_of_free {m : PhysicalMemory} {f g : Nat}
    (hf : m.manager.frames[f]? = some .allocated) (hg : m.manager.frames[g]? = some .free) : f ≠ g := by
  rintro rfl
  rw [hf] at hg
  cases hg

/-- The frame `allocate_frame` hands out was free and is allocated afterwards; no other frame
    changes. -/
theorem allocateFrame_some {m m' : PhysicalMemory} {f : Nat} (h : m.allocateFrame = (some f, m')) :
    m.manager.frames[f]? = some .free ∧ m'.manager.frames[f]? = some .allocated ∧ m.Grows m' := by
  unfold allocateFrame PhysicalMemoryManager.allocateFrame at h
  rcases hm : m.manager.allocateFrames 1 with ⟨_ | ⟨i, e⟩, mgr⟩ <;> rw [hm] at h
  · cases h
  · simp only [Option.map_some, Prod.mk.injEq, Option.some.injEq] at h
    obtain ⟨rfl, rfl⟩ := h
    obtain ⟨hrun, -, rfl⟩ := PhysicalMemoryManager.allocateFrames_some hm
    have hfree : m.manager.frames[i]? = some .free := by simpa using hrun 0 (by omega)
    -- `set_run` marks only frame `i`
    have hset : ∀ g, (m.manager.setRun i 1 .allocated).frames[g]? =
        if g = i then some .allocated else m.manager.frames[g]? := by
      intro g
      rw [PhysicalMemoryManager.getElem?_setRun]
      by_cases hg : g = i
      · subst hg
        simp [hfree]
      · have hout : ¬ (i ≤ g ∧ g < i + 1) := by omega
        rw [if_neg hg]
        simp only [hout, if_false, Option.map_id']
    refine ⟨hfree, by rw [hset, if_pos rfl], fun g hg => ?_, fun g hg => ?_⟩
    · have hne : g ≠ i := ne_of_allocated_of_free hg hfree
      exact ⟨by rw [hset, if_neg hne, hg], rfl⟩
    · rw [hset] at hg
      split_ifs at hg with hgi
      · cases hg
      · exact hg

theorem allocateFrame_none {m m' : PhysicalMemory} (h : m.allocateFrame = (none, m')) : m' = m := by
  unfold allocateFrame PhysicalMemoryManager.allocateFrame at h
  rcases hm : m.manager.allocateFrames 1 with ⟨_ | r, mgr⟩ <;> rw [hm] at h
  · cases h
    -- no run of one free frame: the manager is as it was
    unfold PhysicalMemoryManager.allocateFrames at hm
    split at hm <;> cases hm
    rfl
  · cases h

theorem allocateFrame_grows {m m' : PhysicalMemory} {r : Option Nat} (h : m.allocateFrame = (r, m')) :
    m.Grows m' := by
  cases r with
  | none => rw [allocateFrame_none h]; exact refl_of Grows m
  | some f => exact (allocateFrame_some h).2.2

/-- A table frame is a frame that was free, zeroed. -/
theorem allocateTableFrame_grows {m m' : PhysicalMemory} {r : Option Nat}
    (h : m.allocateTableFrame = (r, m')) : m.Grows m' := by
  unfold allocateTableFrame at h
  rcases ha : m.allocateFrame with ⟨_ | f, m₁⟩ <;> rw [ha] at h
  · cases h
    exact allocateFrame_grows ha
  · cases h
    obtain ⟨hfree, -, hgrow⟩ := allocateFrame_some ha
    refine ⟨fun g hg => ?_, fun g hg => hgrow.2 g hg⟩
    have hne : g ≠ f := ne_of_allocated_of_free hg hfree
    refine ⟨(hgrow.1 g hg).1, ?_⟩
    dsimp only
    rw [Function.update_of_ne hne]
    exact (hgrow.1 g hg).2

end PhysicalMemory

open Muffin.Mem.PhysicalMemory

/-- What a successful `map_range` over `pages` did: the allocator grew, no other entry changed,
    and every page of the range was unmapped and now maps, with `flags`, a frame of its own
    that was free. -/
structure MappedFresh (pages : List Nat) (flags : PageTableFlags) (pt pt' : PageTables)
    (m m' : PhysicalMemory) : Prop where
  grows : m.Grows m'
  other : ∀ q, q ∉ pages → pt'.entry q = pt.entry q
  fresh : ∀ p ∈ pages, pt.entry p = none ∧ ∃ f, pt'.entry p = some ⟨f, flags⟩ ∧
    m.manager.frames[f]? = some .free ∧ m'.manager.frames[f]? = some .allocated
  inj : ∀ p ∈ pages, ∀ q ∈ pages, ∀ e e' : Pte, pt'.entry p = some e → pt'.entry q = some e' →
    e.frame = e'.frame → p = q

/-- The state of `map_range`'s allocator grows at each step. -/
theorem tableAlloc_grows {s s' : MapState} {r : Option Nat} (h : tableAlloc s = (r, s')) :
    s.1.Grows s'.1 := by
  unfold tableAlloc at h
  rcases ha : s.1.allocateTableFrame with ⟨r', m⟩
  rw [ha] at h
  cases h
  exact allocateTableFrame_grows ha

/-- `map_to` over the frame allocator: the page was unmapped and maps the frame now, and the
    tables it created took frames that were free. -/
theorem mapTo_tableAlloc_run_ok {p f : Nat} {flags : PageTableFlags} {pt pt' : PageTables}
    {s s' : MapState} (h : (X86.mapTo tableAlloc p f flags).run (pt, s) = .ok () (pt', s')) :
    pt.entry p = none ∧ pt'.entry = Function.update pt.entry p (some ⟨f, flags⟩) ∧ s.1.Grows s'.1 :=
  @X86.mapTo_run_ok MapState tableAlloc (fun a a' => a.1.Grows a'.1)
    ⟨fun a => refl_of Grows a.1⟩ ⟨fun _ _ _ h₁ h₂ => trans_of Grows h₁ h₂⟩
    (fun _ _ _ h => tableAlloc_grows h) p f flags (pt, s) (pt', s') h

/-- A successful `map_range` with frames from `allocate_frames_non_contiguous`. -/
theorem mapRange_nonContiguous_run_ok {flags : PageTableFlags} :
    ∀ {pages : List Nat} {pt pt' : PageTables} {s s' : MapState},
      (X86.mapRange tableAlloc FrameSource.nonContiguous.next flags pages).run (pt, s) =
        .ok () (pt', s') → MappedFresh pages flags pt pt' s.1 s'.1
  | [], pt, pt', s, s', h => by
    cases h
    exact ⟨refl_of Grows _, fun _ _ => rfl, fun _ hp => (nomatch hp), fun _ hp => (nomatch hp)⟩
  | p :: ps, pt, pt', s, s', h => by
    unfold X86.mapRange at h
    rw [run_get_bind] at h
    rcases ha : FrameSource.next .nonContiguous s with ⟨_ | f, a⟩ <;>
      simp only [ha] at h
    · cases h
    -- the frame of `p` comes from the allocator, then `map_to` maps it, then the tail
    obtain ⟨_, ⟨pt₁, s₁⟩, h₁, h⟩ := run_bind_eq_ok h
    cases h₁
    obtain ⟨_, ⟨pt₂, s₂⟩, h₂, h⟩ := run_bind_eq_ok h
    have hnext : s.1.allocateFrame = (some f, a.1) ∧ a.2 = s.2 := by
      simp only [FrameSource.next] at ha
      rcases hm : s.1.allocateFrame with ⟨r, m⟩
      rw [hm] at ha
      cases ha
      exact ⟨rfl, rfl⟩
    obtain ⟨hfree, halloc, hgrow₀⟩ := allocateFrame_some hnext.1
    obtain ⟨hnone, hentry, hgrow₁⟩ := mapTo_tableAlloc_run_ok h₂
    have ih := mapRange_nonContiguous_run_ok h
    -- `p` is not among the later pages: those were unmapped after `p` was mapped
    have hp : p ∉ ps := fun hp => by
      have := (ih.fresh p hp).1
      rw [hentry, Function.update_self] at this
      cases this
    have hfalloc : s₂.1.manager.frames[f]? = some .allocated := (hgrow₁.1 f halloc).1
    refine ⟨trans_of Grows hgrow₀ (trans_of Grows hgrow₁ ih.grows), fun q hq => ?_, fun q hq => ?_, ?_⟩
    · have hqp : q ≠ p := fun h => hq (h ▸ List.mem_cons_self)
      rw [ih.other q (fun h => hq (List.mem_cons_of_mem p h)), hentry, Function.update_of_ne hqp]
    · rcases List.mem_cons.1 hq with rfl | hq
      · refine ⟨hnone, f, ?_, hfree, (ih.grows.1 f hfalloc).1⟩
        rw [ih.other q hp, hentry, Function.update_self]
      · obtain ⟨hq₂, g, hg, hgfree, hgalloc⟩ := ih.fresh q hq
        have hqp : q ≠ p := fun h => hp (h ▸ hq)
        rw [hentry, Function.update_of_ne hqp] at hq₂
        exact ⟨hq₂, g, hg, hgrow₀.2 g (hgrow₁.2 g hgfree), hgalloc⟩
    · -- the frame of `p` was allocated before any frame of the tail was handed out
      have hdiff : ∀ q ∈ ps, ∀ e e' : Pte, pt'.entry p = some e → pt'.entry q = some e' →
          e.frame ≠ e'.frame := by
        intro q hq e e' he he'
        obtain ⟨-, g, hg, hgfree, -⟩ := ih.fresh q hq
        rw [ih.other p hp, hentry, Function.update_self, Option.some.injEq] at he
        rw [hg, Option.some.injEq] at he'
        subst he he'
        exact ne_of_allocated_of_free hfalloc hgfree
      intro q₁ hq₁ q₂ hq₂ e e' he he' hframe
      rcases List.mem_cons.1 hq₁ with h₁ | hm₁ <;> rcases List.mem_cons.1 hq₂ with h₂ | hm₂
      · rw [h₁, h₂]
      · subst h₁
        exact absurd hframe (hdiff q₂ hm₂ e e' he he')
      · subst h₂
        exact absurd hframe.symm (hdiff q₁ hm₁ e' e he' he)
      · exact ih.inj q₁ hm₁ q₂ hm₂ e e' he he' hframe

namespace ProcessMemory

/-- The byte a user access at `a` reads: the byte of the frame that the page of `a` maps. -/
def userByte (s : ProcessMemory) (a : Nat) : Option Nat :=
  (s.pt.entry (pageOf a)).map fun e => s.phys.contents e.frame (a % PAGE_SIZE)

/-- Every page that maps an allocated frame keeps its entry, and the frame stays allocated with
    its bytes. -/
def Kept (s s' : ProcessMemory) : Prop :=
  ∀ p e, s.pt.entry p = some e → s.phys.manager.frames[e.frame]? = some .allocated →
    s'.pt.entry p = some e ∧ s'.phys.manager.frames[e.frame]? = some .allocated ∧
      s'.phys.contents e.frame = s.phys.contents e.frame

instance : Std.Refl Kept := ⟨fun _ _ _ he ha => ⟨he, ha, rfl⟩⟩

instance : IsTrans ProcessMemory Kept :=
  ⟨fun _ _ _ h₁ h₂ p e he ha =>
    have k₁ := h₁ p e he ha
    have k₂ := h₂ p e k₁.1 k₁.2.1
    ⟨k₂.1, k₂.2.1, k₂.2.2.trans k₁.2.2⟩⟩

/-- A step that changes neither the page tables nor the frames keeps every page. -/
theorem Kept.of_eq {s s' : ProcessMemory} (hpt : s'.pt = s.pt) (hphys : s'.phys = s.phys) :
    Kept s s' := fun _ _ he ha => ⟨hpt ▸ he, hphys ▸ ha, by rw [hphys]⟩

/-- A page kept by a run reads the same bytes after it. -/
theorem userByte_of_kept {s s' : ProcessMemory} (h : Kept s s') {a : Nat} {e : Pte}
    (he : s.pt.entry (pageOf a) = some e) (ha : s.phys.manager.frames[e.frame]? = some .allocated) :
    s'.userByte a = s.userByte a := by
  obtain ⟨he', -, hc⟩ := h _ e he ha
  simp only [userByte, he, he', Option.map_some, hc]

/-- The page of `a` maps an allocated frame with `flags`, and the byte at `a` is `b`. -/
def Resident (s : ProcessMemory) (a b : Nat) (flags : PageTableFlags) : Prop :=
  ∃ f, s.pt.entry (pageOf a) = some ⟨f, flags⟩ ∧ s.phys.manager.frames[f]? = some .allocated ∧
    s.phys.contents f (a % PAGE_SIZE) = b

/-- A resident byte stays through a run that keeps the pages in use. -/
theorem Resident.of_kept {s s' : ProcessMemory} (h : Kept s s') {a b : Nat} {flags : PageTableFlags}
    (hr : s.Resident a b flags) : s'.Resident a b flags := by
  obtain ⟨f, he, ha, hb⟩ := hr
  obtain ⟨he', ha', hc⟩ := h _ _ he ha
  exact ⟨f, he', ha', by rw [hc]; exact hb⟩

/-- A user access to a resident byte reads it, through a page with `flags`. -/
theorem Resident.userByte_eq {s : ProcessMemory} {a b : Nat} {flags : PageTableFlags}
    (hr : s.Resident a b flags) : s.userByte a = some b ∧ s.pt.translateFlags (pageOf a) = some flags := by
  obtain ⟨f, he, -, hb⟩ := hr
  simp [userByte, PageTables.translateFlags, he, hb]

/-- New pages over frames that were free keep every page that maps an allocated frame. -/
theorem MappedFresh.kept {pages : List Nat} {flags : PageTableFlags} {s s' : ProcessMemory}
    (h : MappedFresh pages flags s.pt s'.pt s.phys s'.phys) : Kept s s' := by
  intro p e he ha
  -- `p` was mapped, so it is not one of the new pages
  have hp : p ∉ pages := fun hp => by
    rw [(h.fresh p hp).1] at he
    cases he
  obtain ⟨ha', hc⟩ := h.grows.1 e.frame ha
  exact ⟨(h.other p hp).trans he, ha', hc⟩

/-- A successful `map_range` of a segment over fresh frames. -/
theorem mapRange_run_ok {seg : Segment} {flags : PageTableFlags} {s s' : ProcessMemory}
    (h : (mapRange seg .nonContiguous flags).run s = .ok (.ok ()) s') :
    MappedFresh (pagesOf seg.start seg.len) flags s.pt s'.pt s.phys s'.phys ∧ s'.vmm = s.vmm := by
  unfold mapRange at h
  split_ifs at h with hlen
  · cases h
  rw [run_get_bind] at h
  split at h <;> rename_i x pt m l hrun
  · cases h
    exact ⟨mapRange_nonContiguous_run_ok hrun, rfl⟩
  · cases h

/-- A successful `write_bytes` changes no entry and no frame state, and a byte of a frame only
    where one of its addresses lands. -/
theorem writeBytes_run_ok :
    ∀ {a : Nat} {bs : List Nat} {s s' : ProcessMemory}, (writeBytes a bs).run s = .ok () s' →
      s'.pt = s.pt ∧ s'.phys.manager = s.phys.manager ∧
        ∀ f o, (∀ i < bs.length, ∀ e, s.pt.entry (pageOf (a + i)) = some e → e.frame = f →
          (a + i) % PAGE_SIZE ≠ o) → s'.phys.contents f o = s.phys.contents f o
  | _, [], _, _, h => by
    cases h
    exact ⟨rfl, rfl, fun _ _ _ => rfl⟩
  | a, b :: bs, s, s', h => by
    unfold writeBytes at h
    obtain ⟨_, s₁, h₁, h⟩ := run_bind_eq_ok h
    obtain ⟨hpt, hmgr, hc⟩ := writeBytes_run_ok h
    -- the first byte goes to the frame of the page of `a`
    cases he : s.pt.entry (pageOf a) with
    | none => rw [writeByte_run_of_unmapped he] at h₁; cases h₁
    | some e =>
      rw [writeByte_run_of_mapped he] at h₁
      cases h₁
      refine ⟨hpt, hmgr, fun f o hfo => ?_⟩
      have hrest : ∀ i < bs.length, ∀ e', s.pt.entry (pageOf (a + 1 + i)) = some e' →
          e'.frame = f → (a + 1 + i) % PAGE_SIZE ≠ o := fun i hi e' he' hf => by
        have := hfo (i + 1) (by simp; omega) e' (by rw [← Nat.add_assoc, Nat.add_right_comm]; exact he') hf
        rwa [Nat.add_assoc, Nat.add_comm 1 i]
      rw [hc f o hrest]
      have hhead := hfo 0 (by simp) e (by rw [Nat.add_zero]; exact he)
      simp only [PhysicalMemory.write]
      by_cases hf : e.frame = f
      · subst hf
        rw [Function.update_self, Function.update_of_ne (Ne.symm (by simpa using hhead rfl))]
      · rw [Function.update_of_ne (Ne.symm hf)]

/-- A write leaves the virtual memory manager as it was. -/
theorem writeBytes_run_vmm :
    ∀ {a : Nat} {bs : List Nat} {s s' : ProcessMemory}, (writeBytes a bs).run s = .ok () s' →
      s'.vmm = s.vmm
  | _, [], _, _, h => by
    cases h
    rfl
  | a, b :: bs, s, s', h => by
    unfold writeBytes at h
    obtain ⟨_, s₁, h₁, h⟩ := run_bind_eq_ok h
    rw [writeBytes_run_vmm h]
    unfold writeByte at h₁
    rw [run_get_bind] at h₁
    split at h₁
    · cases h₁
      rfl
    · cases h₁

/-- Two addresses of one page at one offset are one address. -/
theorem eq_of_pageOf_eq {x y : Nat} (hp : pageOf x = pageOf y) (ho : x % PAGE_SIZE = y % PAGE_SIZE) :
    x = y := by
  unfold pageOf PAGE_SIZE at *
  omega

/-- Bytes written through pages that map distinct frames read back. -/
theorem writeBytes_userByte :
    ∀ {a : Nat} {bs : List Nat} {s s' : ProcessMemory}, (writeBytes a bs).run s = .ok () s' →
      (∀ i < bs.length, ∀ j < bs.length, ∀ e e', s.pt.entry (pageOf (a + i)) = some e →
        s.pt.entry (pageOf (a + j)) = some e' → e.frame = e'.frame →
          pageOf (a + i) = pageOf (a + j)) →
      ∀ i < bs.length, s'.userByte (a + i) = bs[i]?
  | _, [], _, _, _, _, i, hi => absurd hi (Nat.not_lt_zero i)
  | a, b :: bs, s, s', h, hinj, i, hi => by
    unfold writeBytes at h
    obtain ⟨_, s₁, h₁, h⟩ := run_bind_eq_ok h
    cases he : s.pt.entry (pageOf a) with
    | none => rw [writeByte_run_of_unmapped he] at h₁; cases h₁
    | some e =>
      rw [writeByte_run_of_mapped he] at h₁
      cases h₁
      -- the tail writes through the same entries, at addresses after `a`
      have hinj' : ∀ i < bs.length, ∀ j < bs.length, ∀ e₁ e₂,
          s.pt.entry (pageOf (a + 1 + i)) = some e₁ → s.pt.entry (pageOf (a + 1 + j)) = some e₂ →
            e₁.frame = e₂.frame → pageOf (a + 1 + i) = pageOf (a + 1 + j) := by
        intro i hi j hj e₁ e₂ h₁ h₂ hf
        have := hinj (i + 1) (by simp; omega) (j + 1) (by simp; omega) e₁ e₂
          (by rwa [← Nat.add_assoc, Nat.add_right_comm]) (by rwa [← Nat.add_assoc, Nat.add_right_comm]) hf
        rwa [← Nat.add_assoc, Nat.add_right_comm, ← Nat.add_assoc, Nat.add_right_comm a j] at this
      obtain ⟨hpt, -, hc⟩ := writeBytes_run_ok h
      cases i with
      | zero =>
        -- no later address lands on the byte of `a`
        have hkeep := hc e.frame (a % PAGE_SIZE) fun j hj e' he' hf ho => by
          have hpage := hinj (j + 1) (by simp; omega) 0 (by simp) e' e
            (by rwa [← Nat.add_assoc, Nat.add_right_comm]) (by rw [Nat.add_zero]; exact he) hf
          rw [Nat.add_zero, ← Nat.add_assoc, Nat.add_right_comm] at hpage
          have := eq_of_pageOf_eq hpage ho
          omega
        simp only [userByte, Nat.add_zero, hpt, he, Option.map_some, hkeep, PhysicalMemory.write,
          Function.update_self, List.getElem?_cons_zero]
      | succ i =>
        have := writeBytes_userByte h hinj' i (by simpa using hi)
        rwa [Nat.add_assoc, Nat.add_comm 1 i] at this

/-- `allocate_frame` changes only the frame allocator, and a frame it returns was free and is
    allocated now. -/
theorem allocateFrame_run {s s' : ProcessMemory} {r : Option Nat} (h : allocateFrame.run s = .ok r s') :
    s'.pt = s.pt ∧ s'.vmm = s.vmm ∧ s.phys.Grows s'.phys ∧ ∀ f, r = some f →
      s.phys.manager.frames[f]? = some .free ∧ s'.phys.manager.frames[f]? = some .allocated := by
  unfold allocateFrame at h
  rw [run_get_bind] at h
  rcases hm : s.phys.allocateFrame with ⟨r', m⟩
  rw [hm] at h
  cases h
  refine ⟨rfl, rfl, PhysicalMemory.allocateFrame_grows hm, fun f hf => ?_⟩
  subst hf
  obtain ⟨hfree, halloc, -⟩ := PhysicalMemory.allocateFrame_some hm
  exact ⟨hfree, halloc⟩

/-- A successful `map` found the page unmapped and maps the frame now; the tables it created
    took frames that were free. -/
theorem map_run_ok {page frame : Nat} {flags : PageTableFlags} {s s' : ProcessMemory}
    (h : (map page frame flags).run s = .ok (.ok ()) s') :
    s.pt.entry page = none ∧ s'.pt.entry = Function.update s.pt.entry page (some ⟨frame, flags⟩) ∧
      s.phys.Grows s'.phys ∧ s'.vmm = s.vmm := by
  unfold map at h
  rw [run_get_bind] at h
  split at h <;> rename_i x pt m l hrun
  · cases h
    obtain ⟨hnone, hentry, hgrow⟩ := mapTo_tableAlloc_run_ok hrun
    exact ⟨hnone, hentry, hgrow, rfl⟩
  · cases h

/-- `map` answers `PageAlreadyMapped` only for a mapped page. -/
theorem map_run_pageAlreadyMapped {page frame g : Nat} {flags : PageTableFlags} {s s' : ProcessMemory}
    (h : (map page frame flags).run s = .ok (.error (.pageAlreadyMapped g)) s') :
    (s.pt.entry page).isSome := by
  unfold map at h
  rw [run_get_bind] at h
  split at h <;> rename_i x pt m l hrun
  · cases h
  · cases h
    exact X86.mapTo_run_pageAlreadyMapped hrun

/-- A successful `remap` gives the mapped page the new flags and keeps its frame. -/
theorem remap_run_ok {page : Nat} {flags : PageTableFlags} {s s' : ProcessMemory}
    (h : (remap page flags).run s = .ok (.ok ()) s') :
    ∃ e, s.pt.entry page = some e ∧
      s'.pt.entry = Function.update s.pt.entry page (some ⟨e.frame, flags⟩) ∧ s'.phys = s.phys ∧
        s'.vmm = s.vmm := by
  unfold remap PageTables.updateFlags at h
  rw [run_get_bind] at h
  split at h <;> rename_i r hr
  · split at hr <;> rename_i e he
    · cases hr
      cases h
      exact ⟨e, he, rfl, rfl, rfl⟩
    · cases hr
  · cases h

/-- A successful read changes nothing and reads as many bytes as asked. -/
theorem readBytes_run_ok :
    ∀ {a n : Nat} {s s' : ProcessMemory} {bs : List Nat}, (readBytes a n).run s = .ok bs s' →
      s' = s ∧ bs.length = n
  | _, 0, _, _, _, h => by
    cases h
    exact ⟨rfl, rfl⟩
  | a, n + 1, s, s', bs, h => by
    unfold readBytes at h
    obtain ⟨b, s₁, h₁, h⟩ := run_bind_eq_ok h
    obtain ⟨bs', s₂, h₂, h⟩ := run_bind_eq_ok h
    -- the first read leaves the state as it was, or faults
    have hs₁ : s₁ = s := by
      unfold readByte at h₁
      rw [run_get_bind] at h₁
      split at h₁
      · cases h₁
        rfl
      · cases h₁
    obtain ⟨hs₂, hlen⟩ := readBytes_run_ok h₂
    cases h
    exact ⟨hs₂.trans hs₁, by simp [hlen]⟩

/-- The page of `page * PAGE_SIZE + o` for an offset inside the page. -/
theorem pageOf_page_add {page o : Nat} (ho : o < PAGE_SIZE) : pageOf (page * PAGE_SIZE + o) = page := by
  unfold pageOf PAGE_SIZE at *
  omega

/-- Bytes written inside one page land in the frame it maps, at their offsets, and nowhere
    else. -/
theorem writeBytes_run_page {page : Nat} {e : Pte} :
    ∀ {o : Nat} {bs : List Nat} {s s' : ProcessMemory}, s.pt.entry page = some e →
      o + bs.length ≤ PAGE_SIZE → (writeBytes (page * PAGE_SIZE + o) bs).run s = .ok () s' →
      s'.pt = s.pt ∧ s'.phys.manager = s.phys.manager ∧ ∀ g j, s'.phys.contents g j =
        if g = e.frame ∧ o ≤ j ∧ j < o + bs.length then bs[j - o]?.getD 0 else s.phys.contents g j
  | o, [], s, s', _, _, h => by
    cases h
    refine ⟨rfl, rfl, fun g j => ?_⟩
    rw [if_neg (by simp only [List.length_nil]; omega)]
  | o, b :: bs, s, s', he, hfit, h => by
    simp only [List.length_cons] at hfit
    unfold writeBytes at h
    obtain ⟨_, s₁, h₁, h⟩ := run_bind_eq_ok h
    have hpage : pageOf (page * PAGE_SIZE + o) = page := pageOf_page_add (by omega)
    have hoff : (page * PAGE_SIZE + o) % PAGE_SIZE = o := by unfold PAGE_SIZE at *; omega
    rw [writeByte_run_of_mapped (by rw [hpage]; exact he), hoff] at h₁
    cases h₁
    rw [Nat.add_assoc] at h
    obtain ⟨hpt, hmgr, hc⟩ :=
      @writeBytes_run_page page e (o + 1) bs { s with phys := s.phys.write e.frame o b } s' he (by omega) h
    refine ⟨hpt, hmgr, fun g j => ?_⟩
    -- the head lands at offset `o`, the tail after it
    rw [hc g j]
    simp only [PhysicalMemory.write, List.length_cons]
    by_cases hg : g = e.frame
    · subst hg
      rw [Function.update_self]
      by_cases hj : j = o
      · subst hj
        simp
      · rw [Function.update_of_ne hj]
        by_cases hin : j < o + 1 + bs.length ∧ o + 1 ≤ j
        · rw [if_pos ⟨rfl, hin.2, hin.1⟩, if_pos ⟨rfl, by omega, by omega⟩]
          obtain ⟨k, rfl⟩ : ∃ k, j = o + 1 + k := ⟨j - (o + 1), by omega⟩
          simp [show o + 1 + k - o = k + 1 by omega]
        · rw [if_neg (by omega), if_neg (by omega)]
    · rw [Function.update_of_ne hg, if_neg (fun h => hg h.1), if_neg (fun h => hg h.1)]

/-- Writes through pages whose frames were free at `s₀` keep every page that was in use at
    `s₀`. -/
theorem Kept.writeBytes {s₀ s s' : ProcessMemory} {a : Nat} {bs : List Nat} (hk : Kept s₀ s)
    (hfree : ∀ i < bs.length, ∀ e, s.pt.entry (pageOf (a + i)) = some e →
      s₀.phys.manager.frames[e.frame]? = some .free)
    (h : (writeBytes a bs).run s = .ok () s') : Kept s₀ s' := by
  obtain ⟨hpt, hmgr, hc⟩ := writeBytes_run_ok h
  intro p e he ha
  obtain ⟨he₁, ha₁, hc₁⟩ := hk p e he ha
  refine ⟨hpt ▸ he₁, hmgr ▸ ha₁, ?_⟩
  funext o
  -- no write lands in `e.frame`, which was allocated at `s₀`
  rw [hc e.frame o fun i hi e' he' hf =>
    absurd hf.symm (PhysicalMemory.ne_of_allocated_of_free ha (hfree i hi e' he')), hc₁]

theorem liftPanic_run_ok {α : Type} {x : Except Panic α} {s s' : ProcessMemory} {a : α}
    (h : (liftPanic x).run s = .ok a s') : x = .ok a ∧ s' = s := by
  unfold liftPanic at h
  split at h
  · cases h
    exact ⟨rfl, rfl⟩
  · cases h

/-- A successful reservation adds one segment of `pages` pages to the manager and changes
    nothing else. -/
theorem vmmReserve_run_some {pages : Nat} {s s' : ProcessMemory} {seg : Segment}
    (h : (vmmReserve pages).run s = .ok (some seg) s') :
    s'.pt = s.pt ∧ s'.phys = s.phys ∧ s'.vmm.segments = insertSegment seg s.vmm.segments ∧
      seg.len = pages * 4096 := by
  unfold vmmReserve at h
  rw [run_get_bind] at h
  split at h <;> rename_i r vmm hr
  · cases h
    rcases VirtualMemoryManager.reserve_eq_ok hr with ⟨hnone, -⟩ | ⟨s₀, hs₀, hloop, -, -, rfl⟩
    · cases hnone
    · cases hs₀
      refine ⟨rfl, rfl, rfl, ?_⟩
      rw [hloop, VirtualMemoryManager.len_reserveLoop]
  · cases h

/-- A successful `mark_as_reserved` through the wrapper: the manager accepted the segment. -/
theorem vmmMarkAsReserved_run_ok_ok {seg : Segment} {s s' : ProcessMemory}
    (h : (vmmMarkAsReserved seg).run s = .ok (.ok ()) s') :
    ∃ vmm, s.vmm.markAsReserved seg = .ok vmm ∧ s' = { s with vmm := vmm } := by
  unfold vmmMarkAsReserved at h
  dsimp only at h
  split_ifs at h with h₁ h₂
  · cases h
  · cases h
  · cases h
  rw [run_get_bind] at h
  split at h <;> rename_i vmm hm
  · cases h
    exact ⟨vmm, hm, rfl⟩
  · cases h

end ProcessMemory

open ProcessMemory

/-- What a successful `let (start, segment) = match location { .. }` of `allocate` did: only the
    manager changed, by one more reserved segment, and the bytes of the allocation lie in the
    part of the segment that `allocate` maps. -/
theorem allocateSegment_run_some {location : Location} {layout : Layout} {guarded : Guarded}
    {s s' : ProcessMemory} {start : Option Nat} {segment : Segment}
    (h : (allocateSegment location layout guarded
      (divCeil layout.size PAGE_SIZE + (if guarded = .yes then 2 else 0))).run s =
        .ok (some (start, segment)) s') :
    s'.pt = s.pt ∧ s'.phys = s.phys ∧ (∀ x ∈ s.vmm.segments, x ∈ s'.vmm.segments) ∧
      segment ∈ s'.vmm.segments ∧
      (∀ v, location = .fixed v → start = some v.val) ∧
      ∀ i < layout.size,
        (if guarded = .yes then ⟨segment.start + PAGE_SIZE, segment.len - 2 * PAGE_SIZE⟩
          else segment : Segment).start ≤
          start.getD (if guarded = .yes then ⟨segment.start + PAGE_SIZE, segment.len - 2 * PAGE_SIZE⟩
            else segment : Segment).start + i ∧
        start.getD (if guarded = .yes then ⟨segment.start + PAGE_SIZE, segment.len - 2 * PAGE_SIZE⟩
            else segment : Segment).start + i <
          (if guarded = .yes then ⟨segment.start + PAGE_SIZE, segment.len - 2 * PAGE_SIZE⟩
            else segment : Segment).start +
          (if guarded = .yes then ⟨segment.start + PAGE_SIZE, segment.len - 2 * PAGE_SIZE⟩
            else segment : Segment).len := by
  have hp : PAGE_SIZE = 4096 := rfl
  unfold allocateSegment at h
  cases location with
  | anywhere =>
    obtain ⟨r, s₁, h₁, h⟩ := run_bind_eq_ok h
    cases r with
    | none => cases h
    | some seg =>
      cases h
      obtain ⟨hpt, hphys, hsegs, hlen⟩ := vmmReserve_run_some h₁
      refine ⟨hpt, hphys, fun x hx => ?_, ?_, fun v hv => (nomatch hv), fun i hi => ?_⟩
      · rw [hsegs]
        exact mem_insertSegment.2 (.inr hx)
      · rw [hsegs]
        exact mem_insertSegment.2 (.inl rfl)
      · -- the reservation has a page for every started page of the layout, guard pages apart
        by_cases hg : guarded = .yes
        · simp only [hg, ↓reduceIte, Option.getD_none, hp, divCeil] at hlen ⊢
          omega
        · simp only [hg, ↓reduceIte, Option.getD_none, hp, divCeil] at hlen ⊢
          omega
  | fixed v =>
    obtain ⟨a, s₁, h₁, h⟩ := run_bind_eq_ok h
    obtain ⟨ha, hs⟩ := liftPanic_run_ok h₁
    subst s₁
    obtain ⟨e, s₂, h₂, h⟩ := run_bind_eq_ok h
    obtain ⟨he, hs⟩ := liftPanic_run_ok h₂
    subst s₂
    obtain ⟨e', s₃, h₃, h⟩ := run_bind_eq_ok h
    obtain ⟨he', hs⟩ := liftPanic_run_ok h₃
    subst s₃
    obtain ⟨e'', s₄, h₄, h⟩ := run_bind_eq_ok h
    obtain ⟨he'', hs⟩ := liftPanic_run_ok h₄
    subst s₄
    obtain ⟨len, s₅, h₅, h⟩ := run_bind_eq_ok h
    obtain ⟨hlen, hs⟩ := liftPanic_run_ok h₅
    subst s₅
    obtain ⟨r, s₆, h₆, h⟩ := run_bind_eq_ok h
    cases r with
    | error err => cases h
    | ok u =>
      cases h
      obtain ⟨vmm, hm, rfl⟩ := vmmMarkAsReserved_run_ok_ok h₆
      obtain ⟨-, rfl⟩ := VirtualMemoryManager.markAsReserved_eq_ok hm
      -- the reserved range runs from the page of `v`, guard page apart, to the end rounded up
      have hstart := VirtAddr.subU64_val ha
      have hdown : (v.alignDown PAGE_SIZE).val = v.val - v.val % 4096 := VirtAddr.alignDown_val v
      have hend := VirtAddr.add_val he
      have hup := VirtAddr.le_alignUp he'
      have hend' := VirtAddr.add_val he''
      obtain ⟨hlenv, -⟩ := VirtAddr.sub_val hlen
      refine ⟨rfl, rfl, fun x hx => mem_insertSegment.2 (.inr hx), mem_insertSegment.2 (.inl rfl),
        fun w hw => by cases hw; rfl, fun i hi => ?_⟩
      simp only [Option.getD_some]
      by_cases hg : guarded = .yes
      · simp only [hg, ↓reduceIte] at hstart hend' ⊢
        omega
      · simp only [hg, ↓reduceIte] at hstart hend' ⊢
        omega

/-- What a successful `allocate` did: it kept every page in use, reserved its segment in the
    manager, and mapped every byte of the allocation with `flags` on a page whose frame was
    free, a different frame for each page. -/
structure Allocated (alloc : Allocation) (flags : PageTableFlags) (s s' : ProcessMemory) : Prop where
  kept : Kept s s'
  segments : ∀ x ∈ s.vmm.segments, x ∈ s'.vmm.segments
  reserved : alloc.segment ∈ s'.vmm.segments
  fresh : ∀ i < alloc.layout.size, ∃ f, s'.pt.entry (pageOf (alloc.start + i)) = some ⟨f, flags⟩ ∧
    s.phys.manager.frames[f]? = some .free ∧ s'.phys.manager.frames[f]? = some .allocated
  inj : ∀ i < alloc.layout.size, ∀ j < alloc.layout.size, ∀ e e' : Pte,
    s'.pt.entry (pageOf (alloc.start + i)) = some e → s'.pt.entry (pageOf (alloc.start + j)) = some e' →
      e.frame = e'.frame → pageOf (alloc.start + i) = pageOf (alloc.start + j)

/-- A successful `allocate`. -/
theorem allocate_run_some {location : Location} {layout : Layout} {ua : UserAccessible}
    {guarded : Guarded} {s s' : ProcessMemory} {alloc : Allocation}
    (h : (allocate location layout ua guarded).run s = .ok (some alloc) s') :
    Allocated alloc (PageTableFlags.PRESENT ||| PageTableFlags.WRITABLE ||| PageTableFlags.NO_EXECUTE |||
      (if ua = .yes then PageTableFlags.USER_ACCESSIBLE else 0)) s s' ∧ alloc.layout = layout ∧
      ∀ v, location = .fixed v → alloc.start = v.val := by
  unfold allocate at h
  by_cases halign : layout.align ≤ PAGE_SIZE
  swap
  · rw [if_pos halign] at h
    cases h
  simp only [halign, not_true_eq_false, ↓reduceIte] at h
  obtain ⟨r, s₁, h₁, h⟩ := run_bind_eq_ok h
  rcases r with _ | ⟨start, segment⟩
  · cases h
  obtain ⟨hpt, hphys, hsegs, hres, hfixed, hcover⟩ := allocateSegment_run_some h₁
  obtain ⟨r, s₂, h₂, h⟩ := run_bind_eq_ok h
  rcases r with _ | u
  · -- a failed `map_range` returns `None`
    obtain ⟨_, s₃, -, h⟩ := run_bind_eq_ok h
    cases h
  cases h
  obtain ⟨hfresh, hvmm⟩ := mapRange_run_ok h₂
  have hkept : Kept s s' := trans_of Kept (Kept.of_eq hpt hphys) (MappedFresh.kept hfresh)
  set mapped : Segment :=
    if guarded = .yes then ⟨segment.start + PAGE_SIZE, segment.len - 2 * PAGE_SIZE⟩ else segment
  -- every byte of the allocation is on a page of the mapped range
  have hmem : ∀ i < layout.size, pageOf (start.getD mapped.start + i) ∈ pagesOf mapped.start mapped.len := by
    intro i hi
    obtain ⟨hlo, hhi⟩ := hcover i hi
    have := @mem_pagesOf mapped.start mapped.len (start.getD mapped.start + i - mapped.start) (by omega)
    rwa [Nat.add_sub_cancel' hlo] at this
  refine ⟨⟨hkept, fun x hx => hvmm ▸ hsegs x hx, hvmm ▸ hres, fun i hi => ?_, ?_⟩, rfl,
    fun v hv => by rw [hfixed v hv]; rfl⟩
  · obtain ⟨-, f, hf, hfree, halloc⟩ := hfresh.fresh _ (hmem i hi)
    exact ⟨f, hf, hphys ▸ hfree, halloc⟩
  · intro i hi j hj e e' he he' hframe
    exact hfresh.inj _ (hmem i hi) _ (hmem j hj) e e' he he' hframe

/-- Writing a whole allocation right after `allocate` makes each of its bytes resident with the
    allocation's flags, and keeps every page that was in use before `allocate`. -/
theorem Allocated.writeBytes_resident {alloc : Allocation} {flags : PageTableFlags}
    {s s₁ s₂ : ProcessMemory} {bs : List Nat} (ha : Allocated alloc flags s s₁)
    (hlen : bs.length = alloc.layout.size) (h : (writeBytes alloc.start bs).run s₁ = .ok () s₂) :
    Kept s s₂ ∧ ∀ i < alloc.layout.size, ∀ b, bs[i]? = some b → s₂.Resident (alloc.start + i) b flags := by
  obtain ⟨hpt, hmgr, -⟩ := writeBytes_run_ok h
  have hread := writeBytes_userByte h fun i hi j hj e e' he he' hf =>
    ha.inj i (hlen ▸ hi) j (hlen ▸ hj) e e' he he' hf
  refine ⟨Kept.writeBytes ha.kept (fun i hi e he => ?_) h, fun i hi b hb => ?_⟩
  · -- the allocation's frames were free before `allocate`
    obtain ⟨f, hf, hfree, -⟩ := ha.fresh i (hlen ▸ hi)
    rw [hf] at he
    cases he
    exact hfree
  · obtain ⟨f, hf, -, halloc⟩ := ha.fresh i hi
    have hbyte := hread i (hlen ▸ hi)
    rw [hb] at hbyte
    refine ⟨f, hpt ▸ hf, hmgr ▸ halloc, ?_⟩
    simpa [userByte, hpt, hf] using hbyte

end Muffin.Mem
