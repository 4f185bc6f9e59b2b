-- SUMMARY: `ElfFile::try_parse` and `program_headers` of the `elfloader` crate on a byte buffer at a given address: the header checks in order, zerocopy's size, alignment and validity checks, and the 56-byte program headers decoded from the table.
import Muffin.Lib.Bytes
import Muffin.Exec.Elf

/-!
# Parsing an ELF file

`try_parse` casts the first 64 bytes of the buffer to an `ElfHeader` with
zerocopy and then checks the identification bytes and the entry sizes.
`program_headers` slices the table `[phoff, phoff + 56 * phnum)` out of the
buffer and casts each 56-byte chunk to a `ProgramHeader`, unwrapping the result.

Both casts are `try_ref_from_bytes`, which also checks that the address is a
multiple of the type's alignment, 8 for both structs (they hold `usize` fields).
The buffer's address is therefore part of the input here. A `ProgramHeader`
is `repr(C)` with a `u16` type: its bytes 2 and 3 are padding, so `p_type`
is read as 16 bits.
-/

namespace Muffin.Elfloader

open Rust Bytes Exec

/-- `&[u8]`: the bytes, and the address of the first one. Its length is a `usize`. -/
structure Buffer where
  addr : Nat
  bytes : List Nat
  length_lt : bytes.length < U64_LIMIT

/-- `ElfParseError`. -/
inductive ElfParseError where
  | headerParseError
  | invalidMagic
  | invalidPhEntSize
  | invalidShEntSize
  | unsupportedOsAbi
  | unsupportedElfVersion
  | unsupportedEndian
  | truncatedHeader
  deriving DecidableEq, Repr

/-- `size_of::<ElfHeader>()`. -/
def ELF_HEADER_SIZE : Nat := 64

/-- `size_of::<ProgramHeader>()`. -/
def PROGRAM_HEADER_SIZE : Nat := 56

/-- `size_of::<SectionHeader>()`, which `try_parse` compares `e_shentsize` with. -/
def SECTION_HEADER_SIZE : Nat := 64

/-- `align_of` of `ElfHeader` and of `ProgramHeader`. -/
def HEADER_ALIGN : Nat := 8

/-- `ElfType` from its `repr(u16)` discriminant: zerocopy refuses any other value. -/
def elfTypeOfU16 : Nat → Option ElfType
  | 0 => some .none
  | 1 => some .rel
  | 2 => some .exec
  | 3 => some .dyn
  | 4 => some .core
  | _ => none

/-- The fields of `ElfHeader` that the crate reads. -/
structure ElfHeader where
  magic : List Nat
  data : Nat
  identVersion : Nat
  osAbi : Nat
  typ : ElfType
  version : Nat
  entry : Nat
  phoff : Nat
  phentsize : Nat
  phnum : Nat
  shentsize : Nat

/-- The `repr(C)` layout of `ElfHeader`: `ElfIdent` in bytes 0 to 15, then `e_type` at 16,
    `e_version` at 20, `e_entry` at 24, `e_phoff` at 32, `e_phentsize` at 54, `e_phnum` at 56
    and `e_shentsize` at 58. Only the type has invalid values. -/
def ElfHeader.decode (b : List Nat) : Option ElfHeader :=
  (elfTypeOfU16 (readLE b 16 2)).map fun typ =>
    { magic := slice b 0 4
      data := readLE b 5 1
      identVersion := readLE b 6 1
      osAbi := readLE b 7 1
      typ := typ
      version := readLE b 20 4
      entry := readLE b 24 8
      phoff := readLE b 32 8
      phentsize := readLE b 54 2
      phnum := readLE b 56 2
      shentsize := readLE b 58 2 }

/-- `ElfFile`: the whole buffer and the header cast from its start. -/
structure ElfFile where
  source : Buffer
  header : ElfHeader

/-- `ElfFile::try_parse`, on a little-endian target. -/
def ElfFile.tryParse (source : Buffer) : Except ElfParseError ElfFile := do
  if source.bytes.length < ELF_HEADER_SIZE then
    throw .truncatedHeader
  let header ← (tryRefFromBytes ELF_HEADER_SIZE HEADER_ALIGN ElfHeader.decode source.addr
    (source.bytes.take ELF_HEADER_SIZE)).mapError fun _ => .headerParseError
  if header.magic ≠ [0x7F, 0x45, 0x4C, 0x46] then
    throw .invalidMagic
  if header.data ≠ 1 then
    throw .unsupportedEndian
  if header.phentsize ≠ PROGRAM_HEADER_SIZE then
    throw .invalidPhEntSize
  if header.shentsize ≠ SECTION_HEADER_SIZE then
    throw .invalidShEntSize
  if header.identVersion ≠ 1 ∨ header.version ≠ 1 then
    throw .unsupportedElfVersion
  if header.osAbi ≠ 0 then
    throw .unsupportedOsAbi
  return ⟨source, header⟩

/-- The `repr(C)` layout of `ProgramHeader`: `ProgramHeaderType(u16)` at 0, padding at 2 and 3,
    `ProgramHeaderFlags(u32)` at 4, then `offset`, `vaddr`, `paddr`, `filesz`, `memsz` and
    `align` as `usize`s from 8. Every bit pattern is valid. `paddr` is not kept. -/
def ProgramHeader.decode (b : List Nat) : Option ProgramHeader :=
  some ⟨readLE b 0 2, readLE b 4 4, readLE b 8 8, readLE b 16 8, readLE b 32 8, readLE b 40 8,
    readLE b 48 8⟩

/-- The message of `Result::unwrap` on an `Err`. -/
def UNWRAP_ERR : String := "called `Result::unwrap()` on an `Err` value"

/-- `data.chunks_exact(56).map(T::try_ref_from_bytes).map(Result::unwrap)`: `count` chunks,
    the first at address `addr`. -/
def castChunks (addr : Nat) (data : List Nat) : Nat → Except Panic (List ProgramHeader)
  | 0 => pure []
  | count + 1 => do
    let h ← (tryRefFromBytes PROGRAM_HEADER_SIZE HEADER_ALIGN ProgramHeader.decode addr
      (data.take PROGRAM_HEADER_SIZE)).mapError fun _ => ⟨UNWRAP_ERR⟩
    let hs ← castChunks (addr + PROGRAM_HEADER_SIZE) (data.drop PROGRAM_HEADER_SIZE) count
    return h :: hs

/-- `ElfFile::program_headers`, run to the end: the slice `source[phoff..phoff + phnum * 56]`,
    then its chunks. `phnum` is a `u16`, so only the addition can overflow. -/
def ElfFile.programHeaders (f : ElfFile) : Except Panic (List ProgramHeader) := do
  let size := f.header.phnum * PROGRAM_HEADER_SIZE
  let some stop := checkedAdd f.header.phoff size | throw ⟨"attempt to add with overflow"⟩
  if f.source.bytes.length < stop then
    throw ⟨"range end index out of range for slice"⟩
  castChunks (f.source.addr + f.header.phoff) (slice f.source.bytes f.header.phoff size)
    f.header.phnum

/-- `ElfFile::program_headers_by_type(typ)`: the full headers compared by their `u16` type. -/
def ElfFile.programHeadersByType (f : ElfFile) (typ : Nat) : Except Panic (List ProgramHeader) :=
  (f.programHeaders).map fun hs => hs.filter fun h => h.typ == typ

-- ---------------------------------------------------------------------------
-- The address of the buffer
-- ---------------------------------------------------------------------------

/-- `try_parse` refuses a buffer of at least 64 bytes at an address that is not a multiple of 8,
    whatever its bytes. -/
theorem tryParse_misaligned {source : Buffer} (hlen : ELF_HEADER_SIZE ≤ source.bytes.length)
    (haddr : source.addr % HEADER_ALIGN ≠ 0) :
    ElfFile.tryParse source = .error .headerParseError := by
  obtain ⟨e, he⟩ := @tryRefFromBytes_misaligned _ ELF_HEADER_SIZE HEADER_ALIGN ElfHeader.decode
    source.addr (source.bytes.take ELF_HEADER_SIZE) haddr
  unfold ElfFile.tryParse
  rw [if_neg (Nat.not_lt.2 hlen), he]
  rfl

/-- Every chunk of a table whose first byte is misaligned is misaligned: the first one already
    makes `unwrap` panic. -/
theorem castChunks_misaligned {addr : Nat} (haddr : addr % HEADER_ALIGN ≠ 0) (data : List Nat)
    (count : Nat) : castChunks addr data (count + 1) = .error ⟨UNWRAP_ERR⟩ := by
  obtain ⟨e, he⟩ := @tryRefFromBytes_misaligned _ PROGRAM_HEADER_SIZE HEADER_ALIGN
    ProgramHeader.decode addr (data.take PROGRAM_HEADER_SIZE) haddr
  unfold castChunks
  rw [he]
  rfl

/-- `program_headers` panics on every file that `try_parse` accepted and whose program header
    table holds a header and lies inside the buffer, when the table's first byte is not at a
    multiple of 8: `e_phoff` is never checked for alignment, and the first chunk's cast fails. -/
theorem programHeaders_misaligned_panics {f : ElfFile} (hnum : 0 < f.header.phnum)
    (hfit : f.header.phoff + f.header.phnum * PROGRAM_HEADER_SIZE ≤ f.source.bytes.length)
    (haddr : (f.source.addr + f.header.phoff) % HEADER_ALIGN ≠ 0) :
    f.programHeaders = .error ⟨UNWRAP_ERR⟩ := by
  have hlt := f.source.length_lt
  have hstop : checkedAdd f.header.phoff (f.header.phnum * PROGRAM_HEADER_SIZE) =
      some (f.header.phoff + f.header.phnum * PROGRAM_HEADER_SIZE) :=
    checkedAdd_eq_some.2 ⟨by omega, rfl⟩
  obtain ⟨count, hcount⟩ : ∃ count, f.header.phnum = count + 1 := ⟨f.header.phnum - 1, by omega⟩
  unfold ElfFile.programHeaders
  simp only [hstop, if_neg (Nat.not_lt.2 hfit)]
  rw [hcount]
  exact castChunks_misaligned haddr _ count

/-- An ELF header with `e_phoff = 68` and one program header, in 124 bytes. -/
def misalignedTableBytes : List Nat :=
  [0x7F, 0x45, 0x4C, 0x46, 2, 1, 1, 0] ++ List.replicate 8 0 ++ encodeLE 2 2 ++ encodeLE 2 0x3E ++
    encodeLE 4 1 ++ encodeLE 8 0x40_1000 ++ encodeLE 8 68 ++ encodeLE 8 0 ++ encodeLE 4 0 ++
    encodeLE 2 64 ++ encodeLE 2 56 ++ encodeLE 2 1 ++ encodeLE 2 64 ++ encodeLE 2 0 ++
    encodeLE 2 0 ++ List.replicate 4 0 ++ List.replicate 56 0

/-- The executable read into a buffer at address `0x1000`. -/
def misalignedTable : Buffer := ⟨0x1000, misalignedTableBytes, by decide +kernel⟩

set_option maxRecDepth 8192 in
/-- `try_parse` accepts the executable and `program_headers` panics on it. -/
theorem misalignedTable_programHeaders_panic :
    ∃ f, ElfFile.tryParse misalignedTable = .ok f ∧ 0 < f.header.phnum ∧
      f.header.phoff + f.header.phnum * PROGRAM_HEADER_SIZE ≤ f.source.bytes.length ∧
      (f.source.addr + f.header.phoff) % HEADER_ALIGN ≠ 0 ∧ f.programHeaders = .error ⟨UNWRAP_ERR⟩ :=
  ⟨_, rfl, by decide, by decide, by decide,
    programHeaders_misaligned_panics (by decide) (by decide) (by decide)⟩

end Muffin.Elfloader
