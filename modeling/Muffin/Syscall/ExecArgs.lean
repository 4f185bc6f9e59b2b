-- SUMMARY: `ExecArgs::copy_in` of `execve`: the argument strings copied from user memory against the `ARG_MAX` budget and cut back into `argv` and `envp`, and that every accepted set fits the new 256-page user stack.
import Muffin.Syscall.InitialStack
import Muffin.Abi.Errno
import Muffin.X86.Addr

/-!
# The arguments of `execve`

`ExecArgs::copy_in` reads the `argv` and `envp` arrays of `StrSlice`s from user
memory. It charges every string its length and `STACK_BYTES_PER_ARG` against a
budget that starts at three words, refuses a budget over `ARG_MAX` with `E2BIG`,
and keeps the strings' bytes in one vector with their lengths beside it; `argv`
and `envp` cut that vector back into strings. `setup_user_image` lays them out on
a 256-page user stack with `build_initial_stack`.

User memory is what `copy_in` reads of it: the byte at each address, and the
result of `make_user_range_resident` for each range it asks for.
-/

namespace Muffin.Syscall

open Rust Muffin.Abi X86

/-- `ARG_MAX`. -/
def ARG_MAX : Nat := 32 * 4096

/-- `STACK_BYTES_PER_ARG`: a string's NUL and its pointer on the new stack. -/
def STACK_BYTES_PER_ARG : Nat := 1 + WORD

/-- `size_of::<StrSlice>()`. -/
def STR_SLICE_SIZE : Nat := 2 * WORD

/-- `StrSlice`: where a string is and how long it is. -/
structure StrSlice where
  ptr : Nat
  len : Nat
  deriving DecidableEq, Repr

/-- The user memory `copy_in` reads. -/
structure UserMemory where
  byte : Nat → Nat
  /-- `make_user_range_resident(ptr, len, UserAccess::Read)`. -/
  makeUserRangeResident : Nat → Nat → Except Errno Unit

namespace UserMemory

/-- The `len` bytes from `ptr` on. -/
def bytes (m : UserMemory) (ptr len : Nat) : List Nat := (List.range len).map fun k => m.byte (ptr + k)

@[simp] theorem length_bytes (m : UserMemory) (ptr len : Nat) : (m.bytes ptr len).length = len := by
  simp [bytes]

/-- `(ptr as *const StrSlice).add(i).read_unaligned()`. -/
def readSlot (m : UserMemory) (ptr i : Nat) : StrSlice :=
  let slot := ptr + STR_SLICE_SIZE * i
  ⟨Bytes.decodeLE (m.bytes slot WORD), Bytes.decodeLE (m.bytes (slot + WORD) WORD)⟩

/-- `slice_from_ptr_and_len::<u8>(ptr, len)`. -/
def sliceFromPtrAndLen (m : UserMemory) (ptr len : Nat) : Except Errno (List Nat) :=
  if ptr = 0 ∨ len = 0 then .error EINVAL else .ok (m.bytes ptr len)

end UserMemory

/-- `ExecArgs`: the strings' bytes one after the other, their lengths, and `argc`. -/
structure ExecArgs where
  bytes : List Nat
  lens : List Nat
  argc : Nat
  deriving DecidableEq, Repr

/-- What `copy_in` carries through its loops. -/
structure CopyIn where
  budget : Nat
  bytes : List Nat
  lens : List Nat

/-- One slot of `copy_in`'s inner loop. -/
def copyInSlot (m : UserMemory) (ptr : Nat) (c : CopyIn) (i : Nat) : Except Errno CopyIn := do
  let slot := m.readSlot ptr i
  let budget := saturatingAdd (saturatingAdd c.budget slot.len) STACK_BYTES_PER_ARG
  if budget > ARG_MAX then throw E2BIG
  -- `slot.is_empty()`: an empty string reads nothing
  let bytes ← if slot.len = 0 then pure c.bytes else do
    m.makeUserRangeResident slot.ptr slot.len
    let src ← m.sliceFromPtrAndLen slot.ptr slot.len
    if src.contains 0 then throw EINVAL
    pure (c.bytes ++ src)
  pure ⟨budget, bytes, c.lens ++ [slot.len]⟩

/-- One `(ptr, count)` of `copy_in`'s outer loop. -/
def copyInArray (m : UserMemory) (c : CopyIn) (array : Nat × Nat) : Except Errno CopyIn := do
  let (ptr, count) := array
  if count = 0 then return c
  if ptr = 0 then throw EFAULT
  if saturatingAdd c.budget (saturatingMul count STACK_BYTES_PER_ARG) > ARG_MAX then throw E2BIG
  -- the check above bounds `count`, so the product does not overflow
  m.makeUserRangeResident ptr (count * STR_SLICE_SIZE)
  (List.range count).foldlM (copyInSlot m ptr) c

/-- The loop of `ExecArgs::slices`: a slice of `bytes` for each length, from `start` on. Indexing
    past the end panics. -/
def cutSlices (bytes : List Nat) : Nat → List Nat → Except Panic (List (List Nat))
  | _, [] => pure []
  | start, len :: lens => do
    if bytes.length < start + len then throw ⟨"range end index out of range for slice"⟩
    let rest ← cutSlices bytes (start + len) lens
    pure (Bytes.slice bytes start len :: rest)

namespace ExecArgs

/-- `ExecArgs::copy_in(argv_ptr, argc, envp_ptr, envc)`. -/
def copyIn (m : UserMemory) (argvPtr argc envpPtr envc : Nat) : Except Errno ExecArgs := do
  let c ← [(argvPtr, argc), (envpPtr, envc)].foldlM (copyInArray m) ⟨3 * WORD, [], []⟩
  pure ⟨c.bytes, c.lens, argc⟩

/-- `ExecArgs::slices(skip, take)`. -/
def slices (a : ExecArgs) (skip take : Nat) : Except Panic (List (List Nat)) := do
  if a.lens.length < skip then throw ⟨"range end index out of range for slice"⟩
  let start := (a.lens.take skip).sum
  if a.lens.length < skip + take then throw ⟨"range end index out of range for slice"⟩
  cutSlices a.bytes start ((a.lens.drop skip).take take)

/-- `ExecArgs::argv`. -/
def argv (a : ExecArgs) : Except Panic (List (List Nat)) := a.slices 0 a.argc

/-- `ExecArgs::envp`. -/
def envp (a : ExecArgs) : Except Panic (List (List Nat)) := do
  if a.lens.length < a.argc then throw ⟨"attempt to subtract with overflow"⟩
  a.slices a.argc (a.lens.length - a.argc)

end ExecArgs

/-! ## What an accepted `copy_in` keeps -/

/-- What a slot that `copy_in` accepted did: charged the budget, appended the string's bytes
    (none for an empty one) and its length. -/
theorem copyInSlot_eq_ok {m : UserMemory} {ptr i : Nat} {c c' : CopyIn}
    (h : copyInSlot m ptr c i = .ok c') :
    saturatingAdd (saturatingAdd c.budget (m.readSlot ptr i).len) STACK_BYTES_PER_ARG ≤ ARG_MAX ∧
    c' = ⟨saturatingAdd (saturatingAdd c.budget (m.readSlot ptr i).len) STACK_BYTES_PER_ARG,
      c.bytes ++ (if (m.readSlot ptr i).len = 0 then [] else m.bytes (m.readSlot ptr i).ptr (m.readSlot ptr i).len),
      c.lens ++ [(m.readSlot ptr i).len]⟩ := by
  unfold copyInSlot at h
  generalize m.readSlot ptr i = slot at h ⊢
  simp only [bind, Except.bind, throw, throwThe, MonadExceptOf.throw, pure, Except.pure] at h
  by_cases hb : saturatingAdd (saturatingAdd c.budget slot.len) STACK_BYTES_PER_ARG > ARG_MAX
  · simp only [if_pos hb] at h
    cases h
  simp only [if_neg hb] at h
  refine ⟨Nat.le_of_not_lt hb, ?_⟩
  by_cases hz : slot.len = 0
  · simp only [if_pos hz] at h
    cases h
    simp [hz]
  simp only [if_neg hz] at h
  cases hr : m.makeUserRangeResident slot.ptr slot.len with
  | error e => simp [hr] at h
  | ok u =>
    simp only [hr, UserMemory.sliceFromPtrAndLen] at h
    by_cases hp : slot.ptr = 0
    · simp [hp] at h
    rw [if_neg (by omega)] at h
    by_cases hc : (m.bytes slot.ptr slot.len).contains 0 = true
    · simp only [if_pos hc] at h
      cases h
    simp only [if_neg hc] at h
    cases h
    simp [hz]

/-- What the strings `ss` cost against `copy_in`'s budget. -/
def argsSize (ss : List (List Nat)) : Nat := (ss.map fun s => s.length + STACK_BYTES_PER_ARG).sum

@[simp] theorem argsSize_nil : argsSize [] = 0 := rfl

@[simp] theorem argsSize_append (ss ss' : List (List Nat)) : argsSize (ss ++ ss') = argsSize ss + argsSize ss' := by
  simp [argsSize]

@[simp] theorem argsSize_singleton (s : List Nat) : argsSize [s] = s.length + STACK_BYTES_PER_ARG := by
  simp [argsSize]

/-- The budget charges each string its bytes, its NUL and its pointer. -/
theorem argsSize_eq (ss : List (List Nat)) : argsSize ss = stringsSize ss + WORD * ss.length := by
  induction ss with
  | nil => rfl
  | cons s ss ih =>
    rw [show s :: ss = [s] ++ ss from rfl, argsSize_append, ih, argsSize_singleton]
    simp only [stringsSize_cons, List.length_cons, List.singleton_append, Nat.mul_succ, STACK_BYTES_PER_ARG]
    omega

/-- The strings `ss` copied so far: their bytes one after the other, their lengths, and what they
    cost, within `ARG_MAX`. -/
structure CopyIn.Holds (c : CopyIn) (ss : List (List Nat)) : Prop where
  bytes_eq : c.bytes = ss.flatten
  lens_eq : c.lens = ss.map List.length
  budget_eq : c.budget = 3 * WORD + argsSize ss
  budget_le : c.budget ≤ ARG_MAX

theorem copyIn_holds_init : CopyIn.Holds ⟨3 * WORD, [], []⟩ [] := ⟨rfl, rfl, rfl, by decide⟩

section Loop

variable {m : UserMemory} {ptr : Nat}

/-- An accepted slot copies one more string. -/
theorem copyInSlot_holds {c c' : CopyIn} {ss : List (List Nat)} {i : Nat} (hc : c.Holds ss)
    (h : copyInSlot m ptr c i = .ok c') : ∃ s, c'.Holds (ss ++ [s]) := by
  obtain ⟨hle, rfl⟩ := copyInSlot_eq_ok h
  generalize m.readSlot ptr i = slot at hle ⊢
  have hARG : ARG_MAX < U64_LIMIT - 1 := by decide
  -- neither saturating addition saturated, as the result stayed within `ARG_MAX`
  have hout := saturatingAdd_of_le hARG hle
  rw [hout] at hle ⊢
  have hin : saturatingAdd c.budget slot.len = c.budget + slot.len := saturatingAdd_of_le hARG (by omega)
  rw [hin] at hle ⊢
  refine ⟨if slot.len = 0 then [] else m.bytes slot.ptr slot.len, ?_, ?_, ?_, hle⟩
  · simp [hc.bytes_eq]
  · by_cases hz : slot.len = 0 <;> simp [hc.lens_eq, hz]
  · by_cases hz : slot.len = 0 <;> simp [hc.budget_eq, hz] <;> omega

/-- The inner loop copies one string per slot. -/
theorem foldlM_copyInSlot_holds (is : List Nat) {c c' : CopyIn} {ss : List (List Nat)} (hc : c.Holds ss)
    (h : is.foldlM (copyInSlot m ptr) c = .ok c') : ∃ ss', c'.Holds (ss ++ ss') ∧ ss'.length = is.length := by
  induction is generalizing c ss with
  | nil =>
    cases h
    exact ⟨[], by simpa using hc, rfl⟩
  | cons i is ih =>
    rw [List.foldlM_cons, Except.bind_eq_ok] at h
    obtain ⟨c₁, h₁, hrest⟩ := h
    obtain ⟨s, hc₁⟩ := copyInSlot_holds hc h₁
    obtain ⟨ss', hc', hlen⟩ := ih hc₁ hrest
    exact ⟨s :: ss', by simpa using hc', by simp [hlen]⟩

/-- An accepted array copies one string per slot. -/
theorem copyInArray_holds {c c' : CopyIn} {ss : List (List Nat)} {array : Nat × Nat} (hc : c.Holds ss)
    (h : copyInArray m c array = .ok c') : ∃ ss', c'.Holds (ss ++ ss') ∧ ss'.length = array.2 := by
  obtain ⟨ptr, count⟩ := array
  unfold copyInArray at h
  simp only [bind, Except.bind, throw, throwThe, MonadExceptOf.throw, pure, Except.pure] at h
  -- `continue` on an empty array; every refusal is an error
  split_ifs at h with h0
  · cases h
    exact ⟨[], by simpa using hc, h0.symm⟩
  cases hr : m.makeUserRangeResident ptr (count * STR_SLICE_SIZE) with
  | error e => simp [hr] at h
  | ok u =>
    simp only [hr] at h
    simpa using foldlM_copyInSlot_holds (List.range count) hc h

end Loop

/-- What an accepted `copy_in` keeps: the strings of both arrays, the `argc` of `argv` first, and
    their cost within the budget. -/
theorem copyIn_eq_ok {m : UserMemory} {argvPtr argc envpPtr envc : Nat} {a : ExecArgs}
    (h : ExecArgs.copyIn m argvPtr argc envpPtr envc = .ok a) :
    ∃ argv envp : List (List Nat), argv.length = argc ∧ envp.length = envc ∧ a.argc = argc ∧
      a.bytes = (argv ++ envp).flatten ∧ a.lens = (argv ++ envp).map List.length ∧
      3 * WORD + argsSize (argv ++ envp) ≤ ARG_MAX := by
  unfold ExecArgs.copyIn at h
  rw [Except.bind_eq_ok] at h
  obtain ⟨c, hfold, hret⟩ := h
  cases hret
  -- the outer loop runs over the two arrays
  rw [List.foldlM_cons, Except.bind_eq_ok] at hfold
  obtain ⟨c₁, h₁, hfold⟩ := hfold
  rw [List.foldlM_cons, Except.bind_eq_ok] at hfold
  obtain ⟨c₂, h₂, hfold⟩ := hfold
  cases hfold
  obtain ⟨argv, hc₁, hargv⟩ := copyInArray_holds copyIn_holds_init h₁
  obtain ⟨envp, hc₂, henvp⟩ := copyInArray_holds hc₁ h₂
  rw [List.nil_append] at hc₂
  exact ⟨argv, envp, hargv, henvp, rfl, hc₂.bytes_eq, hc₂.lens_eq, hc₂.budget_eq ▸ hc₂.budget_le⟩

/-! ## `argv` and `envp` -/

/-- Cutting the strings' bytes at their lengths gives the strings back. -/
theorem cutSlices_flatten (ts : List (List Nat)) (pre rest : List Nat) :
    cutSlices (pre ++ ts.flatten ++ rest) pre.length (ts.map List.length) = .ok ts := by
  induction ts generalizing pre with
  | nil => rfl
  | cons t ts ih =>
    have hbytes : pre ++ (t :: ts).flatten ++ rest = pre ++ t ++ ts.flatten ++ rest := by simp
    have hslice : Bytes.slice (pre ++ t ++ ts.flatten ++ rest) pre.length t.length = t := by
      unfold Bytes.slice
      simp only [List.append_assoc, List.drop_left, List.take_left']
    have hnext := ih (pre ++ t)
    rw [List.length_append] at hnext
    simp only [List.map_cons, cutSlices, hbytes, hnext, hslice, bind, Except.bind, throw, throwThe,
      MonadExceptOf.throw, pure, Except.pure]
    rw [if_neg (by simp only [List.length_append]; omega)]

namespace ExecArgs

/-- `argv` and `envp` cut the bytes `copy_in` kept back into the strings it read. -/
theorem argv_envp_eq {a : ExecArgs} {argv envp : List (List Nat)} (hargc : a.argc = argv.length)
    (hbytes : a.bytes = (argv ++ envp).flatten) (hlens : a.lens = (argv ++ envp).map List.length) :
    a.argv = .ok argv ∧ a.envp = .ok envp := by
  have hlen : a.lens.length = argv.length + envp.length := by simp [hlens]
  constructor
  · unfold ExecArgs.argv slices
    rw [hargc, if_neg (by omega), if_neg (by omega)]
    have h := cutSlices_flatten argv [] envp.flatten
    simpa [hbytes, hlens] using h
  · unfold ExecArgs.envp slices
    rw [hargc, if_neg (by omega), if_neg (by omega), if_neg (by omega)]
    have h := cutSlices_flatten envp argv.flatten []
    simpa [hbytes, hlens, List.take_of_length_le] using h

end ExecArgs

/-! ## The arguments on the new user stack -/

/-- Strings within `copy_in`'s budget fit the 256-page user stack: with their pointers they take at
    most `ARG_MAX` and two words, far below the stack's size. -/
theorem initialStackFits_of_argsSize_le {len top : Nat} {argv envp : List (List Nat)}
    (hlen : len = PAGE_SIZE * 256) (hlen_top : len ≤ top) (htop : top < U64_LIMIT)
    (hbudget : 3 * WORD + argsSize (argv ++ envp) ≤ ARG_MAX) : InitialStackFits len top argv envp := by
  have hsize := argsSize_eq (argv ++ envp)
  have hrsp := le_initialRsp argv envp htop
  have hW : WORD = 8 := rfl
  have hARG : ARG_MAX = 131072 := rfl
  have hpage : PAGE_SIZE * 256 = 1048576 := rfl
  have hP : pointersSize argv envp = WORD * (argv ++ envp).length + 5 * WORD := by
    simp only [pointersSize, List.length_append]
    rw [hW]
    omega
  rw [hP, show STACK_ALIGN - 1 = 15 from rfl] at hrsp
  subst hlen
  rw [hW] at hsize hrsp hbudget
  rw [hARG] at hbudget
  rw [hpage] at hlen_top ⊢
  unfold InitialStackFits
  rw [hP, hW]
  constructor <;> omega

/-- `build_initial_stack` on a slice ending below `top`: it never panics; it returns `Some`
    exactly when the payload fits, and then leaves the layout; and for any strings `copy_in`
    accepts, the call `setup_user_image` makes on its 256-page stack returns `Some`. -/
theorem buildInitialStack_correct {top : Nat} {argv envp : List (List Nat)} {stack : List Nat}
    (hlen : stack.length ≤ top) (htop : top < U64_LIMIT) :
    (∃ r stack', (buildInitialStack top argv envp).run stack = .ok r stack') ∧
    ((∃ rsp stack', (buildInitialStack top argv envp).run stack = .ok (some rsp) stack') ↔
      InitialStackFits stack.length top argv envp) ∧
    (∀ rsp stack', (buildInitialStack top argv envp).run stack = .ok (some rsp) stack' →
      InitialStackLayout stack top argv envp rsp stack') ∧
    ∀ (m : UserMemory) (argvPtr argc envpPtr envc : Nat) (args : ExecArgs),
      ExecArgs.copyIn m argvPtr argc envpPtr envc = .ok args →
      ∃ argv' envp', args.argv = .ok argv' ∧ args.envp = .ok envp' ∧
        ∀ (ustack : List Nat) (ustackTop : Nat), ustack.length = PAGE_SIZE * 256 →
          ustack.length ≤ ustackTop → ustackTop < U64_LIMIT →
          ∃ rsp ustack', (buildInitialStack ustackTop argv' envp').run ustack = .ok (some rsp) ustack' := by
  refine ⟨?_, buildInitialStack_eq_some_iff hlen htop, fun _ _ => layout_of_buildInitialStack hlen htop, ?_⟩
  · rw [buildInitialStack_run hlen htop]
    split_ifs <;> exact ⟨_, _, rfl⟩
  · intro m argvPtr argc envpPtr envc args hcopy
    obtain ⟨argv', envp', hargc, -, hcount, hbytes, hlens, hbudget⟩ := copyIn_eq_ok hcopy
    obtain ⟨hargv, henvp⟩ := ExecArgs.argv_envp_eq (hcount.trans hargc.symm) hbytes hlens
    refine ⟨argv', envp', hargv, henvp, fun ustack ustackTop hsize hlen' htop' => ?_⟩
    exact (buildInitialStack_eq_some_iff hlen' htop').2
      (initialStackFits_of_argsSize_le hsize hlen' htop' hbudget)

theorem buildInitialStack_correct_hi :
    (List.replicate 64 0).length ≤ 64 ∧ 64 < U64_LIMIT ∧
    (∃ r stack', (buildInitialStack 64 [[104, 105]] []).run (List.replicate 64 0) = .ok r stack') ∧
    ((∃ rsp stack', (buildInitialStack 64 [[104, 105]] []).run (List.replicate 64 0) = .ok (some rsp) stack') ↔
      InitialStackFits (List.replicate 64 0).length 64 [[104, 105]] []) ∧
    (∀ rsp stack', (buildInitialStack 64 [[104, 105]] []).run (List.replicate 64 0) = .ok (some rsp) stack' →
      InitialStackLayout (List.replicate 64 0) 64 [[104, 105]] [] rsp stack') ∧
    ∀ (m : UserMemory) (argvPtr argc envpPtr envc : Nat) (args : ExecArgs),
      ExecArgs.copyIn m argvPtr argc envpPtr envc = .ok args →
      ∃ argv' envp', args.argv = .ok argv' ∧ args.envp = .ok envp' ∧
        ∀ (ustack : List Nat) (ustackTop : Nat), ustack.length = PAGE_SIZE * 256 →
          ustack.length ≤ ustackTop → ustackTop < U64_LIMIT →
          ∃ rsp ustack', (buildInitialStack ustackTop argv' envp').run ustack = .ok (some rsp) ustack' :=
  ⟨by decide, by decide, buildInitialStack_correct (by decide) (by decide)⟩

end Muffin.Syscall
