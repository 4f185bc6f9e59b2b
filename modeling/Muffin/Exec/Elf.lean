-- SUMMARY: The static checks `elf::validate` makes on an executable's program headers before `execve` tears down the old image, and what an accepted header becomes.
import Muffin.X86.Addr

/-!
# Validating an executable

`validate` walks the program headers of a parsed ELF file. Each `LOAD` header
with memory becomes a `ValidatedSegment`: a writable one is `Private` (copied
into an allocation at its address), a read-only or executable one is `Mapped`
(paged in from the file on demand). A single `TLS` header becomes the
`ValidatedTls`. The checks run in the source's order, and the first one that
fails is the error.

The model starts from the parsed file: reading it, the header's size check and
`ElfFile::try_parse` turn bytes into the header fields and the program headers
that `validate` then reads, and are not modelled here.
-/

namespace Muffin.Exec

open Rust X86

/-- `ElfType`. -/
inductive ElfType where
  | none
  | rel
  | exec
  | dyn
  | core
  deriving DecidableEq, Repr

/-- `ProgramHeaderType::LOAD`. -/
def PT_LOAD : Nat := 0x01

/-- `ProgramHeaderType::TLS`. -/
def PT_TLS : Nat := 0x07

/-- `ProgramHeaderFlags::EXECUTABLE`. -/
def PF_X : Nat := 0x01

/-- `ProgramHeaderFlags::WRITABLE`. -/
def PF_W : Nat := 0x02

/-- `ProgramHeaderFlags::contains`: the two flag sets share a bit. -/
def flagsContains (flags other : Nat) : Bool := decide (flags &&& other > 0)

/-- `ProgramHeader`, without `paddr`, which nothing reads. -/
structure ProgramHeader where
  typ : Nat
  flags : Nat
  offset : Nat
  vaddr : Nat
  filesz : Nat
  memsz : Nat
  align : Nat
  deriving DecidableEq, Repr

/-- What `validate` reads of a parsed `ElfFile`. -/
structure ElfFile where
  typ : ElfType
  entry : Nat
  programHeaders : List ProgramHeader

/-- `LoadExecutableError`. -/
inductive LoadExecutableError where
  | stat
  | read
  | truncated
  | parse
  | unsupportedType (typ : ElfType)
  | notPageCongruent (vaddr offset : Nat)
  | writableExecutable (vaddr : Nat)
  | invalidVirtualAddress (vaddr : Nat)
  | invalidSizeOrAlign
  | fileLongerThanMemory (vaddr filesz memsz : Nat)
  | alreadyReserved (start : Nat)
  | allocationFailed
  | tooManyTlsHeaders
  deriving DecidableEq, Repr

/-- `ValidatedSegment`. -/
inductive ValidatedSegment where
  | «private» (vaddr : VirtAddr) (layout : Layout) (offset filesz : Nat)
  | mapped (start : VirtAddr) (len : Nat) (noExecute : Bool) (offset filesz : Nat)

/-- `ValidatedTls`. -/
structure ValidatedTls where
  layout : Layout
  offset : Nat
  filesz : Nat

/-- `ValidatedExecutable`. -/
structure ValidatedExecutable where
  entry : Nat
  segments : List ValidatedSegment
  tls : Option ValidatedTls

/-- The body of `validate`'s loop for one `LOAD` header: `none` for a header with no memory,
    which the loop skips. -/
def validateLoad (hdr : ProgramHeader) : Except LoadExecutableError (Option ValidatedSegment) := do
  if hdr.filesz > hdr.memsz then
    throw (.fileLongerThanMemory hdr.vaddr hdr.filesz hdr.memsz)
  if hdr.memsz = 0 then
    return none
  let writable := flagsContains hdr.flags PF_W
  let executable := flagsContains hdr.flags PF_X
  if executable && writable then
    throw (.writableExecutable hdr.vaddr)
  if hdr.offset % PAGE_SIZE ≠ hdr.vaddr % PAGE_SIZE then
    throw (.notPageCongruent hdr.vaddr hdr.offset)
  let vaddr ← (VirtAddr.tryNew hdr.vaddr).mapError fun _ => .invalidVirtualAddress hdr.vaddr
  if writable then
    let layout ← (Layout.fromSizeAlign hdr.memsz hdr.align).mapError fun _ => .invalidSizeOrAlign
    return some (.private vaddr layout hdr.offset hdr.filesz)
  else
    let start := vaddr.alignDown PAGE_SIZE
    let some e := (checkedAdd hdr.vaddr hdr.memsz).bind fun e => checkedNextMultipleOf e PAGE_SIZE
      | throw (.invalidVirtualAddress hdr.vaddr)
    let _ ← (VirtAddr.tryNew e).mapError fun _ => .invalidVirtualAddress hdr.vaddr
    let lead := hdr.vaddr - start.val
    -- page congruence of offset and vaddr guarantees `hdr.offset ≥ lead`
    return some (.mapped start (e - start.val) (!executable) (hdr.offset - lead) (lead + hdr.filesz))

/-- `validate`'s loop over the `LOAD` headers, in order, stopping at the first error. -/
def validateLoads : List ProgramHeader → Except LoadExecutableError (List ValidatedSegment)
  | [] => pure []
  | hdr :: hdrs => do
    let seg ← validateLoad hdr
    let segs ← validateLoads hdrs
    return seg.toList ++ segs

/-- The `TLS` part of `validate`, given the `TLS` headers in order. -/
def validateTls : List ProgramHeader → Except LoadExecutableError (Option ValidatedTls)
  | [] => pure none
  | tls :: rest => do
    if rest ≠ [] then
      throw .tooManyTlsHeaders
    if tls.filesz > tls.memsz then
      throw (.fileLongerThanMemory tls.vaddr tls.filesz tls.memsz)
    let layout ← (Layout.fromSizeAlign tls.memsz tls.align).mapError fun _ => .invalidSizeOrAlign
    return some ⟨layout, tls.offset, tls.filesz⟩

/-- `validate`, from the parsed file on. -/
def validate (elf : ElfFile) : Except LoadExecutableError ValidatedExecutable := do
  if elf.typ ≠ .exec then
    throw (.unsupportedType elf.typ)
  let segments ← validateLoads (elf.programHeaders.filter fun h => h.typ == PT_LOAD)
  let tls ← validateTls (elf.programHeaders.filter fun h => h.typ == PT_TLS)
  return ⟨elf.entry, segments, tls⟩

-- ---------------------------------------------------------------------------
-- What `validate` accepts
-- ---------------------------------------------------------------------------

/-- Every segment that `validate`'s loop returns comes from one of the headers. -/
theorem mem_of_validateLoads {hdrs : List ProgramHeader} {segs : List ValidatedSegment}
    (h : validateLoads hdrs = .ok segs) {seg : ValidatedSegment} (hseg : seg ∈ segs) :
    ∃ hdr ∈ hdrs, validateLoad hdr = .ok (some seg) := by
  induction hdrs generalizing segs with
  | nil =>
    cases h
    cases hseg
  | cons hdr hdrs ih =>
    simp only [validateLoads, bind, Except.bind] at h
    split at h <;> rename_i r hr
    · cases h
    · split at h <;> rename_i segs' hsegs'
      · cases h
      · cases h
        rcases List.mem_append.1 hseg with hs | hs
        · cases r with
          | none => cases hs
          | some r =>
            obtain rfl := List.mem_singleton.1 hs
            exact ⟨hdr, List.mem_cons_self, hr⟩
        · obtain ⟨h', hh', hv⟩ := ih hsegs' hs
          exact ⟨h', List.mem_cons_of_mem _ hh', hv⟩

/-- What the loop body accepts, and the segment it makes of the header: a writable header at its
    address with its size, a read-only one from the start of its first page to its rounded-up
    end, its file range moved back by the bytes of that page before `vaddr`. -/
theorem validateLoad_eq_some {hdr : ProgramHeader} {seg : ValidatedSegment}
    (h : validateLoad hdr = .ok (some seg)) :
    hdr.filesz ≤ hdr.memsz ∧ hdr.offset % PAGE_SIZE = hdr.vaddr % PAGE_SIZE ∧
      ((flagsContains hdr.flags PF_W = true ∧ flagsContains hdr.flags PF_X = false ∧
        ∃ vaddr layout, vaddr.val = hdr.vaddr ∧ layout.size = hdr.memsz ∧
          seg = .private vaddr layout hdr.offset hdr.filesz) ∨
       (flagsContains hdr.flags PF_W = false ∧ ∃ start e, start.val = hdr.vaddr - hdr.vaddr % PAGE_SIZE ∧
          hdr.vaddr + hdr.memsz ≤ e ∧ e % PAGE_SIZE = 0 ∧
          seg = .mapped start (e - start.val) (!flagsContains hdr.flags PF_X)
            (hdr.offset - hdr.vaddr % PAGE_SIZE) (hdr.vaddr % PAGE_SIZE + hdr.filesz))) := by
  unfold validateLoad at h
  simp only [bind, Except.bind, pure, Except.pure, Except.mapError] at h
  -- the checks that throw are gone; what is left is a header with memory
  split_ifs at h with hfs hm hwx hcong hw
  · cases h
  · split at h <;> rename_i r vaddr hv
    · cases h
    split at h <;> rename_i r' layout hl
    · cases h
    cases h
    split at hv <;> rename_i hv'
    · cases hv
    cases hv
    split at hl <;> rename_i hl'
    · cases hl
    cases hl
    refine ⟨Nat.not_lt.1 hfs, not_not.1 hcong, .inl ⟨hw, ?_, vaddr, layout, VirtAddr.tryNew_val hv',
      (Layout.fromSizeAlign_ok hl').1, rfl⟩⟩
    simpa [hw] using hwx
  · split at h <;> rename_i r vaddr hv
    · cases h
    split at hv <;> rename_i hv'
    · cases hv
    cases hv
    split at h <;> rename_i e he
    · split at h <;> rename_i r' ve hve
      · cases h
      cases h
      obtain ⟨e', he', hnext⟩ := Option.bind_eq_some_iff.1 he
      obtain ⟨-, rfl⟩ := checkedAdd_eq_some.1 he'
      obtain ⟨-, hle, hmul, -⟩ := checkedNextMultipleOf_eq_some hnext
      have hstart : (vaddr.alignDown PAGE_SIZE).val = hdr.vaddr - hdr.vaddr % 4096 := by
        rw [← VirtAddr.tryNew_val hv']
        exact VirtAddr.alignDown_val vaddr
      have hlead : hdr.vaddr - (vaddr.alignDown PAGE_SIZE).val = hdr.vaddr % PAGE_SIZE := by
        rw [hstart]
        unfold PAGE_SIZE
        omega
      refine ⟨Nat.not_lt.1 hfs, not_not.1 hcong, .inr ⟨by simpa using hw, vaddr.alignDown PAGE_SIZE, e,
        hstart, hle, hmul, ?_⟩⟩
      rw [hlead]
    · cases h

/-- The loop body skips only a header without memory. -/
theorem memsz_eq_zero_of_validateLoad {hdr : ProgramHeader} (h : validateLoad hdr = .ok none) :
    hdr.memsz = 0 := by
  unfold validateLoad at h
  simp only [bind, Except.bind, pure, Except.pure, Except.mapError] at h
  split_ifs at h with hfs hm hwx hcong hw
  · exact hm
  · split at h
    · cases h
    split at h <;> cases h
  · split at h
    · cases h
    split at h
    · split at h <;> cases h
    · cases h

/-- Every header the loop accepts is in the list it returns, as the segment the body made of it. -/
theorem validateLoads_mem {hdrs : List ProgramHeader} {segs : List ValidatedSegment}
    (h : validateLoads hdrs = .ok segs) {hdr : ProgramHeader} (hh : hdr ∈ hdrs) :
    ∃ r, validateLoad hdr = .ok r ∧ ∀ seg, r = some seg → seg ∈ segs := by
  induction hdrs generalizing segs with
  | nil => cases hh
  | cons hdr' hdrs ih =>
    simp only [validateLoads, bind, Except.bind] at h
    split at h <;> rename_i r hr
    · cases h
    split at h <;> rename_i segs' hsegs'
    · cases h
    cases h
    rcases List.mem_cons.1 hh with rfl | hh
    · exact ⟨r, hr, fun seg hseg => List.mem_append_left _ (by simp [hseg])⟩
    · obtain ⟨r', hr', hmem⟩ := ih hsegs' hh
      exact ⟨r', hr', fun seg hseg => List.mem_append_right _ (hmem seg hseg)⟩

/-- The `TLS` header of an accepted list is its only one, and the block is that header's. -/
theorem validateTls_of_mem {hdrs : List ProgramHeader} {r : Option ValidatedTls}
    (h : validateTls hdrs = .ok r) {hdr : ProgramHeader} (hh : hdr ∈ hdrs) :
    ∃ tls, r = some tls ∧ tls.layout.size = hdr.memsz ∧ tls.offset = hdr.offset ∧
      tls.filesz = hdr.filesz := by
  cases hdrs with
  | nil => cases hh
  | cons t rest =>
    unfold validateTls at h
    simp only [bind, Except.bind, pure, Except.pure, Except.mapError] at h
    split_ifs at h with hrest hfs
    split at h <;> rename_i r' layout hl
    · cases h
    cases h
    split at hl <;> rename_i hl'
    · cases hl
    cases hl
    -- a second `TLS` header would have been refused
    rw [not_not.1 hrest, List.mem_singleton] at hh
    subst hh
    exact ⟨_, rfl, (Layout.fromSizeAlign_ok hl').1, rfl, rfl⟩

/-- An accepted executable: its segments are those of its `LOAD` headers, its TLS block that of
    its `TLS` header. -/
theorem validate_eq_ok {elf : ElfFile} {v : ValidatedExecutable} (h : validate elf = .ok v) :
    validateLoads (elf.programHeaders.filter fun h => h.typ == PT_LOAD) = .ok v.segments ∧
      validateTls (elf.programHeaders.filter fun h => h.typ == PT_TLS) = .ok v.tls := by
  unfold validate at h
  simp only [bind, Except.bind, pure, Except.pure] at h
  split_ifs at h with htyp
  split at h <;> rename_i r segs hsegs
  · cases h
  split at h <;> rename_i r' tls htls
  · cases h
  cases h
  exact ⟨hsegs, htls⟩

/-- A `LOAD` header with memory of an accepted executable is one of its segments, as the loop body
    made it. -/
theorem validate_load_header {elf : ElfFile} {v : ValidatedExecutable} (hv : validate elf = .ok v)
    {hdr : ProgramHeader} (hh : hdr ∈ elf.programHeaders) (htyp : hdr.typ = PT_LOAD) (hm : 0 < hdr.memsz) :
    ∃ seg ∈ v.segments, validateLoad hdr = .ok (some seg) := by
  obtain ⟨r, hr, hsegs⟩ := validateLoads_mem (validate_eq_ok hv).1 (List.mem_filter.2 ⟨hh, by simp [htyp]⟩)
  cases r with
  | none => exact absurd (memsz_eq_zero_of_validateLoad hr) (by omega)
  | some seg => exact ⟨seg, hsegs seg rfl, hr⟩

/-- The `TLS` header of an accepted executable is its TLS block. -/
theorem validate_tls_header {elf : ElfFile} {v : ValidatedExecutable} (hv : validate elf = .ok v)
    {hdr : ProgramHeader} (hh : hdr ∈ elf.programHeaders) (htyp : hdr.typ = PT_TLS) :
    ∃ tls, v.tls = some tls ∧ tls.layout.size = hdr.memsz ∧ tls.offset = hdr.offset ∧
      tls.filesz = hdr.filesz :=
  validateTls_of_mem (validate_eq_ok hv).2 (List.mem_filter.2 ⟨hh, by simp [htyp]⟩)

/-- `validate` checks only that a read-only segment's start and rounded-up end are canonical, so
    it accepts every read-only `LOAD` header of the upper half, the kernel's half, as a segment
    to map there. -/
theorem validateLoad_mapped_upper {hdr : ProgramHeader} (hfs : hdr.filesz ≤ hdr.memsz)
    (hm : 0 < hdr.memsz) (hw : flagsContains hdr.flags PF_W = false)
    (hcong : hdr.offset % PAGE_SIZE = hdr.vaddr % PAGE_SIZE) (hlo : UPPER_HALF_START ≤ hdr.vaddr)
    (hhi : hdr.vaddr + hdr.memsz + PAGE_SIZE ≤ U64_LIMIT) :
    ∃ start len, validateLoad hdr = .ok (some (.mapped start len (!flagsContains hdr.flags PF_X)
      (hdr.offset - hdr.vaddr % PAGE_SIZE) (hdr.vaddr % PAGE_SIZE + hdr.filesz))) ∧
      UPPER_HALF_START ≤ start.val := by
  obtain ⟨h₁, h₂, h₃⟩ := halves_eq
  have hp : PAGE_SIZE = 4096 := rfl
  -- the start and the rounded-up end are both upper-half addresses, which `try_new` accepts
  have hv := VirtAddr.tryNew_upper hlo (by omega)
  have hadd : checkedAdd hdr.vaddr hdr.memsz = some (hdr.vaddr + hdr.memsz) :=
    checkedAdd_eq_some.2 ⟨by omega, rfl⟩
  obtain ⟨e, he⟩ :=
    @checkedNextMultipleOf_of_add_le (hdr.vaddr + hdr.memsz) PAGE_SIZE (by decide) (by omega)
  obtain ⟨-, hle, -, hlt⟩ := checkedNextMultipleOf_eq_some he
  have hve := @VirtAddr.tryNew_upper e (by omega) (by omega)
  let v : VirtAddr := ⟨hdr.vaddr, .inr ⟨hlo, by omega⟩⟩
  have hstart : (v.alignDown PAGE_SIZE).val = hdr.vaddr - hdr.vaddr % 4096 :=
    VirtAddr.alignDown_val v
  have hlead : hdr.vaddr - (v.alignDown PAGE_SIZE).val = hdr.vaddr % PAGE_SIZE := by
    rw [hstart, hp]
    omega
  refine ⟨v.alignDown PAGE_SIZE, e - (v.alignDown PAGE_SIZE).val, ?_, by rw [hstart]; omega⟩
  simp only [validateLoad, gt_iff_lt, Nat.not_lt.2 hfs, ↓reduceIte, Nat.pos_iff_ne_zero.1 hm, hw,
    Bool.and_false, Bool.false_eq_true, hcong, ne_eq, not_true_eq_false, Except.mapError, hv, hadd,
    Option.bind_some, he, hve, bind_pure_comp, Except.map_ok]
  rw [← hlead]
  rfl

end Muffin.Exec
