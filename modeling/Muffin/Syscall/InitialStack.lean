-- SUMMARY: `build_initial_stack` of the syscall crate: the SysV process-entry stack written into a slice, with its checked arithmetic, its early returns, and that it writes only inside the slice.
import Muffin.Lib.Rust
import Muffin.Lib.EStateM
import Muffin.Lib.Bytes

/-!
# The initial user stack

`build_initial_stack` writes the System V x86-64 process-entry stack into the
slice `stack`, whose last byte sits at `stack_top - 1`: the strings of `argv` and
`envp` at the top, each with its NUL, and below them, from the 16-byte aligned
`rsp` up, `argc`, the `argv` pointers, a null word, the `envp` pointers, a null
word and the empty auxiliary vector. It returns `None` when the payload does not
fit, keeping what it wrote before.

The slice is the state of an `EStateM Panic (List Nat)` computation, so that an
early `None` keeps the bytes already written. The `?` operators return `None`;
the plain `+` and `-` of the loops panic on overflow, as in the kernel's build.
-/

namespace Muffin.Syscall

open Rust EStateM

/-- `size_of::<usize>()`. -/
def WORD : Nat := 8

/-- `STACK_ALIGN`. -/
def STACK_ALIGN : Nat := 16

/-- `stack.get_mut(start..start + bytes.len())?.copy_from_slice(bytes)`. -/
def copyToSlice (stack : List Nat) (start : Nat) (bytes : List Nat) : Option (List Nat) :=
  if start + bytes.length ≤ stack.length then
    some (stack.take start ++ bytes ++ stack.drop (start + bytes.length))
  else none

/-- `put_word(stack, base, addr, value)`: the little-endian word at `addr`, whose slice index is
    `addr - base`. -/
def putWord (base addr value : Nat) : EStateM Panic (List Nat) (Option Unit) := do
  let some pos := checkedSub addr base | return none
  let some _ := checkedAdd pos WORD | return none
  let stack ← get
  let some stack' := copyToSlice stack pos (toLeBytes value) | return none
  set stack'
  return some ()

/-- The inner loop of `build_initial_stack` over one group of strings: for each string, its
    pointer at `word_addr`, then its bytes and a NUL at `string_addr`. The addresses it ends
    with, or `None`. -/
def putStrings (base : Nat) :
    List (List Nat) → Nat → Nat → EStateM Panic (List Nat) (Option (Nat × Nat))
  | [], wordAddr, stringAddr => return some (wordAddr, stringAddr)
  | s :: ss, wordAddr, stringAddr => do
    let some () ← putWord base wordAddr stringAddr | return none
    let some wordAddr := checkedAdd wordAddr WORD | throw ⟨"attempt to add with overflow"⟩
    let some pos := checkedSub stringAddr base | throw ⟨"attempt to subtract with overflow"⟩
    let some stop := checkedAdd pos s.length | throw ⟨"attempt to add with overflow"⟩
    let stack ← get
    let some stack := copyToSlice stack pos s | return none
    set stack
    -- `*stack.get_mut(at + s.len())? = 0`
    if stop < stack.length then
      set (stack.set stop 0)
    else
      return none
    let some len := checkedAdd s.length 1 | throw ⟨"attempt to add with overflow"⟩
    let some stringAddr := checkedAdd stringAddr len | throw ⟨"attempt to add with overflow"⟩
    putStrings base ss wordAddr stringAddr

/-- The outer loop `for group in [argv, envp]`: each group's strings, then a null word. -/
def putGroups (base : Nat) :
    List (List (List Nat)) → Nat → Nat → EStateM Panic (List Nat) (Option (Nat × Nat))
  | [], wordAddr, stringAddr => return some (wordAddr, stringAddr)
  | group :: groups, wordAddr, stringAddr => do
    let some (wordAddr, stringAddr) ← putStrings base group wordAddr stringAddr | return none
    let some () ← putWord base wordAddr 0 | return none
    let some wordAddr := checkedAdd wordAddr WORD | throw ⟨"attempt to add with overflow"⟩
    putGroups base groups wordAddr stringAddr

/-- The first loop of `build_initial_stack`: the bytes the strings take with their NULs. -/
def stringsLength : List (List Nat) → Nat → Option Nat
  | [], acc => some acc
  | s :: ss, acc => do
    let acc ← checkedAdd acc s.length
    let acc ← checkedAdd acc 1
    stringsLength ss acc

/-- The arithmetic `build_initial_stack` does before its first write: the slice's base address,
    the stack pointer and the address of the first string, or `None`. -/
def initialLayout (stackLen stackTop : Nat) (argv envp : List (List Nat)) : Option (Nat × Nat × Nat) := do
  let stringsLen ← stringsLength (argv ++ envp) 0
  let words ← (checkedAdd argv.length envp.length).bind (checkedAdd · 5)
  let pointersLen ← checkedMul words WORD
  let base ← checkedSub stackTop stackLen
  let below ← (checkedSub stackTop stringsLen).bind (checkedSub · pointersLen)
  let rsp := below &&& bitNot (STACK_ALIGN - 1)
  if rsp < base then none
  -- `stack_top - strings_len` was checked just above
  pure (base, rsp, stackTop - stringsLen)

/-- `build_initial_stack(stack, stack_top, argv, envp)`, on the slice the computation runs on. -/
def buildInitialStack (stackTop : Nat) (argv envp : List (List Nat)) :
    EStateM Panic (List Nat) (Option Nat) := do
  let stack ← get
  let some (base, rsp, stringAddr) := initialLayout stack.length stackTop argv envp | return none
  let some () ← putWord base rsp argv.length | return none
  let some wordAddr := checkedAdd rsp WORD | throw ⟨"attempt to add with overflow"⟩
  let some (wordAddr, _) ← putGroups base [argv, envp] wordAddr stringAddr | return none
  -- the auxiliary vector holds only its `AT_NULL` terminator
  let some () ← putWord base wordAddr 0 | return none
  let some wordAddr := checkedAdd wordAddr WORD | throw ⟨"attempt to add with overflow"⟩
  let some () ← putWord base wordAddr 0 | return none
  return some rsp

/-! ## Writes stay inside the slice -/

/-- The slice keeps its length. -/
def SameLength (stack stack' : List Nat) : Prop := stack'.length = stack.length

instance : Std.Refl SameLength := ⟨fun _ => rfl⟩

instance : IsTrans (List Nat) SameLength := ⟨fun _ _ _ h₁ h₂ => h₂.trans h₁⟩

theorem length_copyToSlice {stack stack' bytes : List Nat} {start : Nat}
    (h : copyToSlice stack start bytes = some stack') : stack'.length = stack.length := by
  unfold copyToSlice at h
  split_ifs at h with hfit
  cases h
  simp only [List.length_append, List.length_take, List.length_drop]
  omega

theorem putWord_moves (base addr value : Nat) : Moves SameLength (putWord base addr value) := by
  unfold putWord
  split
  · split
    · refine Moves.get_bind fun stack => ?_
      split <;> rename_i stack' h
      · exact Moves.set_bind (length_copyToSlice h) (Moves.pure _)
      · exact Moves.pure _ stack
    · exact Moves.pure _
  · exact Moves.pure _

theorem putStrings_moves (base : Nat) :
    ∀ (ss : List (List Nat)) (wordAddr stringAddr : Nat),
      Moves SameLength (putStrings base ss wordAddr stringAddr)
  | [], _, _ => Moves.pure _
  | s :: ss, wordAddr, stringAddr => by
    unfold putStrings
    refine (putWord_moves base wordAddr stringAddr).bind fun r => ?_
    split
    · split
      · split
        · split <;> rename_i stop hstop
          · refine Moves.get_bind fun stack => ?_
            split <;> rename_i stack' h
            · -- the string, then its NUL, each kept to the slice's length
              rw [finalState_set_bind]
              refine trans_of SameLength (length_copyToSlice h) ?_
              split
              · rw [finalState_set_bind]
                refine trans_of SameLength (@List.length_set ℕ stack' stop 0) ?_
                split
                · split
                  · exact putStrings_moves base ss _ _ _
                  · exact Moves.throw _ _
                · exact Moves.throw _ _
              · exact Moves.pure _ _
            · exact Moves.pure _ stack
          · exact Moves.throw _
        · exact Moves.throw _
      · exact Moves.throw _
    · exact Moves.pure _

theorem putGroups_moves (base : Nat) :
    ∀ (groups : List (List (List Nat))) (wordAddr stringAddr : Nat),
      Moves SameLength (putGroups base groups wordAddr stringAddr)
  | [], _, _ => Moves.pure _
  | group :: groups, wordAddr, stringAddr => by
    unfold putGroups
    refine (putStrings_moves base group wordAddr stringAddr).bind fun r => ?_
    split
    · refine (putWord_moves base _ 0).bind fun r => ?_
      split
      · split
        · exact putGroups_moves base groups _ _
        · exact Moves.throw _
      · exact Moves.pure _
    · exact Moves.pure _

/-- Every run of `build_initial_stack` keeps the slice's length: it writes inside the slice only,
    whether it returns a stack pointer, returns `None` or panics. -/
theorem buildInitialStack_moves (stackTop : Nat) (argv envp : List (List Nat)) :
    Moves SameLength (buildInitialStack stackTop argv envp) := by
  unfold buildInitialStack
  refine Moves.get_bind fun stack => ?_
  split
  · refine ((putWord_moves _ _ _).bind fun r => ?_) stack
    split
    · split
      · refine (putGroups_moves _ _ _ _).bind fun r => ?_
        split
        · refine (putWord_moves _ _ 0).bind fun r => ?_
          split
          · split
            · exact (putWord_moves _ _ 0).bind fun r => by split <;> exact Moves.pure _
            · exact Moves.throw _
          · exact Moves.pure _
        · exact Moves.pure _
      · exact Moves.throw _
    · exact Moves.pure _
  · exact Moves.pure _ _

/-! ## What `build_initial_stack` writes -/

/-- `S`: the bytes the strings take, each with its NUL. -/
def stringsSize (ss : List (List Nat)) : Nat := (ss.map fun s => s.length + 1).sum

/-- The addresses the strings are copied to, one right after the other from `start`. -/
def stringAddrs : List (List Nat) → Nat → List Nat
  | [], _ => []
  | s :: ss, start => start :: stringAddrs ss (start + s.length + 1)

/-- The string area: every string followed by its NUL. -/
def stringArea (ss : List (List Nat)) : List Nat := (ss.map fun s => s ++ [0]).flatten

/-- The words of groups of strings whose copies start at `start`: each group's pointers, then a
    null word. -/
def groupWords : List (List (List Nat)) → Nat → List Nat
  | [], _ => []
  | g :: gs, start => stringAddrs g start ++ 0 :: groupWords gs (start + stringsSize g)

/-- The words from `rsp` up, for strings copied from `start` on: `argc`, the `argv` pointers, a
    null word, the `envp` pointers, a null word, and the auxiliary vector's `AT_NULL` pair. -/
def initialWords (argv envp : List (List Nat)) (start : Nat) : List Nat :=
  argv.length :: stringAddrs argv start ++ 0 :: stringAddrs envp (start + stringsSize argv) ++ [0, 0, 0]

/-- Words as bytes, each little-endian. -/
def wordBytes (ws : List Nat) : List Nat := (ws.map (Bytes.encodeLE WORD)).flatten

/-- `P`: the bytes the words take. -/
def pointersSize (argv envp : List (List Nat)) : Nat := WORD * (argv.length + envp.length + 5)

/-- The stack pointer: below the strings and the words, rounded down to `STACK_ALIGN`. -/
def initialRsp (top : Nat) (argv envp : List (List Nat)) : Nat :=
  (top - stringsSize (argv ++ envp) - pointersSize argv envp) &&& bitNot (STACK_ALIGN - 1)

/-- The payload fits a slice of `len` bytes ending below `top`: the strings and the words fit
    below `top`, and the stack pointer is inside the slice. -/
def InitialStackFits (len top : Nat) (argv envp : List (List Nat)) : Prop :=
  stringsSize (argv ++ envp) + pointersSize argv envp ≤ top ∧ top - len ≤ initialRsp top argv envp

instance (len top : Nat) (argv envp : List (List Nat)) : Decidable (InitialStackFits len top argv envp) :=
  inferInstanceAs (Decidable (_ ∧ _))

/-- The slice after a run that fits: the words from `rsp` up, the strings at the top, and the
    bytes it held everywhere else. -/
def initialStackImage (stack : List Nat) (top : Nat) (argv envp : List (List Nat)) : List Nat :=
  Bytes.overwrite
    (Bytes.overwrite stack (initialRsp top argv envp - (top - stack.length))
      (wordBytes (initialWords argv envp (top - stringsSize (argv ++ envp)))))
    (stack.length - stringsSize (argv ++ envp)) (stringArea (argv ++ envp))

@[simp] theorem stringsSize_nil : stringsSize [] = 0 := rfl

@[simp] theorem stringsSize_cons (s : List Nat) (ss : List (List Nat)) :
    stringsSize (s :: ss) = s.length + 1 + stringsSize ss := by
  simp [stringsSize]

@[simp] theorem stringsSize_append (ss ss' : List (List Nat)) :
    stringsSize (ss ++ ss') = stringsSize ss + stringsSize ss' := by
  simp [stringsSize]

@[simp] theorem length_stringAddrs : ∀ (ss : List (List Nat)) (start : Nat),
    (stringAddrs ss start).length = ss.length
  | [], _ => rfl
  | _ :: ss, _ => by simp [stringAddrs, length_stringAddrs ss]

@[simp] theorem stringArea_nil : stringArea [] = [] := rfl

@[simp] theorem stringArea_cons (s : List Nat) (ss : List (List Nat)) :
    stringArea (s :: ss) = s ++ [0] ++ stringArea ss := by
  simp [stringArea]

@[simp] theorem stringArea_append (ss ss' : List (List Nat)) :
    stringArea (ss ++ ss') = stringArea ss ++ stringArea ss' := by
  simp [stringArea]

@[simp] theorem length_stringArea (ss : List (List Nat)) : (stringArea ss).length = stringsSize ss := by
  induction ss with
  | nil => rfl
  | cons s ss ih => simp [ih]; omega

@[simp] theorem wordBytes_nil : wordBytes [] = [] := rfl

@[simp] theorem wordBytes_cons (w : Nat) (ws : List Nat) :
    wordBytes (w :: ws) = Bytes.encodeLE WORD w ++ wordBytes ws := by
  simp [wordBytes]

@[simp] theorem wordBytes_append (ws ws' : List Nat) : wordBytes (ws ++ ws') = wordBytes ws ++ wordBytes ws' := by
  simp [wordBytes]

@[simp] theorem length_wordBytes (ws : List Nat) : (wordBytes ws).length = WORD * ws.length := by
  induction ws with
  | nil => rfl
  | cons w ws ih => simp [ih, Nat.mul_succ]; omega

theorem stringAddrs_append : ∀ (ss ss' : List (List Nat)) (start : Nat),
    stringAddrs (ss ++ ss') start = stringAddrs ss start ++ stringAddrs ss' (start + stringsSize ss)
  | [], _, _ => rfl
  | s :: ss, ss', start => by
    simp only [List.cons_append, stringAddrs, stringAddrs_append ss ss', stringsSize_cons, List.cons.injEq,
      true_and]
    congr 2
    omega

theorem toLeBytes_eq_encodeLE (n : Nat) : toLeBytes n = Bytes.encodeLE WORD n := by
  simp [toLeBytes, WORD, List.range_succ, Bytes.encodeLE, Nat.div_div_eq_div_mul]

theorem copyToSlice_of_le {stack bytes : List Nat} {start : Nat} (h : start + bytes.length ≤ stack.length) :
    copyToSlice stack start bytes = some (Bytes.overwrite stack start bytes) :=
  if_pos h

/-- A word inside the slice is written, whatever its value. -/
theorem putWord_run_of_le {base addr value : Nat} {stack : List Nat} (hb : base ≤ addr)
    (hfit : addr - base + WORD ≤ stack.length) (hlen : stack.length < U64_LIMIT) :
    (putWord base addr value).run stack =
      .ok (some ()) (Bytes.overwrite stack (addr - base) (Bytes.encodeLE WORD value)) := by
  have hfit' : addr - base + (toLeBytes value).length ≤ stack.length := by
    rw [toLeBytes_eq_encodeLE, Bytes.length_encodeLE]
    exact hfit
  unfold putWord
  rw [checkedSub_of_le hb]
  dsimp only
  rw [checkedAdd_of_lt (by omega)]
  dsimp only
  rw [run_get_bind, copyToSlice_of_le hfit', toLeBytes_eq_encodeLE]
  rfl

/-- The loop over one group of strings, with room for its words below the strings and for the
    strings below `top`: each pointer is written after the previous one, each string with its NUL
    after the previous one, and the addresses advance past both. -/
theorem putStrings_run {base top : Nat} (htop : top < U64_LIMIT) :
    ∀ (ss : List (List Nat)) {w sa : Nat} {stack : List Nat}, base ≤ w → w + WORD * ss.length ≤ sa →
      sa + stringsSize ss ≤ top → stack.length = top - base →
      (putStrings base ss w sa).run stack = .ok (some (w + WORD * ss.length, sa + stringsSize ss))
        (Bytes.overwrite (Bytes.overwrite stack (w - base) (wordBytes (stringAddrs ss sa)))
          (sa - base) (stringArea ss))
  | [], w, sa, stack, _, _, _, _ => by
    simp only [putStrings, stringAddrs, wordBytes_nil, stringArea_nil, Bytes.overwrite_nil,
      List.length_nil, Nat.mul_zero, Nat.add_zero, stringsSize_nil]
    rfl
  | s :: ss, w, sa, stack, hw, hws, hsa, hlen => by
    have hW : WORD = 8 := rfl
    simp only [List.length_cons, stringsSize_cons, hW] at hws hsa
    rw [putStrings, run_bind_of_run_ok (putWord_run_of_le hw (by omega) (by omega))]
    dsimp only
    rw [checkedAdd_of_lt (by omega), checkedSub_of_le (by omega)]
    dsimp only
    rw [checkedAdd_of_lt (by omega)]
    dsimp only
    -- the pointer, then the string, then its NUL, each inside the slice
    have hL₁ : (Bytes.overwrite stack (w - base) (Bytes.encodeLE WORD sa)).length = top - base := by
      rw [Bytes.length_overwrite (by simp only [Bytes.length_encodeLE, hW]; omega), hlen]
    have hL₂ : (Bytes.overwrite (Bytes.overwrite stack (w - base) (Bytes.encodeLE WORD sa)) (sa - base) s).length =
        top - base := by
      rw [Bytes.length_overwrite (by rw [hL₁]; omega), hL₁]
    rw [run_get_bind, copyToSlice_of_le (by rw [hL₁]; omega)]
    dsimp only
    rw [run_set_bind, if_pos (by rw [hL₂]; omega), run_set_bind, checkedAdd_of_lt (by omega)]
    dsimp only
    rw [checkedAdd_of_lt (by omega)]
    dsimp only
    rw [Bytes.set_eq_overwrite (by rw [hL₂]; omega), ← Bytes.overwrite_append (by rw [hL₁]; simp; omega),
      putStrings_run htop ss (by omega) (by rw [hW]; omega) (by omega)
        (by rw [Bytes.length_overwrite (by rw [hL₁]; simp; omega), hL₁])]
    -- the rest of the loop writes right after this pointer and this string
    have e₁ : w + WORD - base = w - base + (Bytes.encodeLE WORD sa).length := by
      rw [Bytes.length_encodeLE, hW]
      omega
    have e₂ : sa + (s.length + 1) - base = sa - base + (s ++ [0]).length := by
      simp only [List.length_append, List.length_singleton]
      omega
    rw [e₁, e₂, Bytes.overwrite_overwrite_append (by simp [hW]; omega) (by simp [hlen]; omega)]
    simp only [stringAddrs, wordBytes_cons, stringArea_cons, List.length_cons, stringsSize_cons,
      Nat.add_assoc, Nat.mul_succ, hW]
    rw [Nat.add_comm 8]

theorem length_groupWords : ∀ (gs : List (List (List Nat))) (start : Nat),
    (groupWords gs start).length = (gs.map fun g => g.length + 1).sum
  | [], _ => rfl
  | g :: gs, start => by
    simp only [groupWords, List.length_append, length_stringAddrs, List.length_cons,
      length_groupWords gs, List.map_cons, List.sum_cons]
    omega

/-- The loop over the groups: each group's pointers and a null word one after the other, and
    the strings of all groups one after the other. -/
theorem putGroups_run {base top : Nat} (htop : top < U64_LIMIT) :
    ∀ (gs : List (List (List Nat))) {w sa : Nat} {stack : List Nat}, base ≤ w →
      w + WORD * (groupWords gs sa).length ≤ sa → sa + stringsSize gs.flatten ≤ top →
      stack.length = top - base →
      (putGroups base gs w sa).run stack =
        .ok (some (w + WORD * (groupWords gs sa).length, sa + stringsSize gs.flatten))
          (Bytes.overwrite (Bytes.overwrite stack (w - base) (wordBytes (groupWords gs sa)))
            (sa - base) (stringArea gs.flatten))
  | [], w, sa, stack, _, _, _, _ => by
    simp only [putGroups, groupWords, wordBytes_nil, List.flatten_nil, stringArea_nil,
      Bytes.overwrite_nil, List.length_nil, Nat.mul_zero, Nat.add_zero, stringsSize_nil]
    rfl
  | g :: gs, w, sa, stack, hw, hws, hsa, hlen => by
    have hW : WORD = 8 := rfl
    simp only [groupWords, List.length_append, length_stringAddrs, List.length_cons, hW,
      List.flatten_cons, stringsSize_append] at hws hsa
    -- the group's strings, then its null word
    have hL₁ : (Bytes.overwrite (Bytes.overwrite stack (w - base) (wordBytes (stringAddrs g sa)))
        (sa - base) (stringArea g)).length = top - base := by
      rw [Bytes.length_overwrite (by rw [Bytes.length_overwrite (by simp [hW]; omega)]; simp; omega),
        Bytes.length_overwrite (by simp [hW]; omega), hlen]
    rw [putGroups, run_bind_of_run_ok (putStrings_run htop g hw (by rw [hW]; omega) (by omega) hlen)]
    dsimp only
    rw [run_bind_of_run_ok (putWord_run_of_le (by omega) (by rw [hL₁, hW]; omega) (by omega))]
    dsimp only
    rw [checkedAdd_of_lt (by rw [hW]; omega)]
    dsimp only
    have e₁ : w + WORD * g.length - base = w - base + (wordBytes (stringAddrs g sa)).length := by
      rw [length_wordBytes, length_stringAddrs]
      omega
    have hA₀ : w - base + (wordBytes (stringAddrs g sa) ++ Bytes.encodeLE WORD 0).length ≤ stack.length := by
      simp only [List.length_append, length_wordBytes, length_stringAddrs, Bytes.length_encodeLE, hW]
      omega
    have hA : (Bytes.overwrite stack (w - base)
        (wordBytes (stringAddrs g sa) ++ Bytes.encodeLE WORD 0)).length = top - base := by
      rw [Bytes.length_overwrite hA₀, hlen]
    rw [e₁, Bytes.overwrite_overwrite_append_left (by simp [hW]; omega)
        (by rw [length_stringArea, hlen]; omega),
      putGroups_run htop gs (by omega) (by rw [hW]; omega) (by omega)
        (by rw [Bytes.length_overwrite (by rw [hA, length_stringArea]; omega), hA])]
    -- the later groups write right after this one's words and strings
    have e₂ : w + WORD * g.length + WORD - base = w - base +
        (wordBytes (stringAddrs g sa) ++ Bytes.encodeLE WORD 0).length := by
      simp only [List.length_append, length_wordBytes, length_stringAddrs, Bytes.length_encodeLE]
      omega
    have e₃ : sa + stringsSize g - base = sa - base + (stringArea g).length := by
      rw [length_stringArea]
      omega
    rw [e₂, e₃, Bytes.overwrite_overwrite_append (by simp [hW]; omega)
      (by simp only [length_stringArea, hlen]; omega)]
    simp only [groupWords, wordBytes_append, wordBytes_cons, List.flatten_cons, stringArea_append,
      List.length_append, List.length_cons, length_stringAddrs, stringsSize_append, List.append_assoc,
      hW]
    congr 3 <;> omega

/-- The first loop adds up the strings' sizes, and returns `None` exactly when the sum
    overflows. -/
theorem stringsLength_eq : ∀ (ss : List (List Nat)) {acc : Nat}, acc < U64_LIMIT →
    stringsLength ss acc =
      if acc + stringsSize ss < U64_LIMIT then some (acc + stringsSize ss) else none
  | [], acc, hacc => by simp [stringsLength, stringsSize_nil, hacc]
  | s :: ss, acc, _ => by
    rw [stringsLength, stringsSize_cons]
    unfold checkedAdd
    -- the partial sums only grow, so the whole sum overflows as soon as one of them does
    by_cases h₁ : acc + s.length < U64_LIMIT
    · by_cases h₂ : acc + s.length + 1 < U64_LIMIT
      · simp only [h₁, h₂, if_true, Option.bind_eq_bind, Option.bind_some]
        rw [stringsLength_eq ss h₂]
        split_ifs <;> first | rfl | omega | (congr 1; omega)
      · simp only [h₁, h₂, if_true, if_false, Option.bind_eq_bind, Option.bind_some, Option.bind_none]
        rw [if_neg (by omega)]
    · simp only [h₁, if_false, Option.bind_eq_bind, Option.bind_none]
      rw [if_neg (by omega)]

/-- The arithmetic before the first write succeeds exactly when the payload fits, and gives the
    slice's base, the stack pointer and the address of the first string. -/
theorem initialLayout_eq {len top : Nat} {argv envp : List (List Nat)} (hlen : len ≤ top)
    (htop : top < U64_LIMIT) :
    initialLayout len top argv envp =
      if InitialStackFits len top argv envp then
        some (top - len, initialRsp top argv envp, top - stringsSize (argv ++ envp))
      else none := by
  have hW : WORD = 8 := rfl
  by_cases hfit : InitialStackFits len top argv envp
  · rw [if_pos hfit]
    obtain ⟨h₁, h₂⟩ := hfit
    unfold initialRsp pointersSize at h₂ ⊢
    unfold pointersSize at h₁
    rw [hW] at h₁ h₂ ⊢
    unfold initialLayout
    rw [stringsLength_eq _ (by decide), Nat.zero_add, if_pos (by omega)]
    simp only [Option.bind_eq_bind, Option.bind_some, checkedAdd_of_lt (show argv.length + envp.length < U64_LIMIT by omega),
      checkedAdd_of_lt (show argv.length + envp.length + 5 < U64_LIMIT by omega), hW,
      checkedMul_of_lt (show (argv.length + envp.length + 5) * 8 < U64_LIMIT by omega), checkedSub_of_le hlen,
      checkedSub_of_le (show stringsSize (argv ++ envp) ≤ top by omega),
      checkedSub_of_le (show (argv.length + envp.length + 5) * 8 ≤ top - stringsSize (argv ++ envp) by omega)]
    rw [Nat.mul_comm _ 8, if_neg (by omega)]
    rfl
  · rw [if_neg hfit]
    unfold InitialStackFits initialRsp pointersSize at hfit
    rw [hW] at hfit
    unfold initialLayout
    rw [stringsLength_eq _ (by decide), Nat.zero_add]
    by_cases hS : stringsSize (argv ++ envp) < U64_LIMIT
    swap
    · rw [if_neg hS]
      rfl
    have hwords : (checkedAdd argv.length envp.length).bind (fun x => checkedAdd x 5) =
        checkedAdd argv.length (envp.length + 5) := by
      by_cases h₁ : argv.length + envp.length < U64_LIMIT
      · rw [checkedAdd_of_lt h₁, Option.bind_some]
        unfold checkedAdd
        rw [Nat.add_assoc]
      · have h₂ : ¬ argv.length + (envp.length + 5) < U64_LIMIT := by omega
        simp only [checkedAdd, if_neg h₁, if_neg h₂, Option.bind_none]
    rw [if_pos hS, hwords]
    simp only [Option.bind_eq_bind, Option.bind_some, checkedAdd, checkedMul, checkedSub_of_le hlen, hW]
    by_cases hn : argv.length + (envp.length + 5) < U64_LIMIT
    swap
    · rw [if_neg hn]
      rfl
    by_cases hP : (argv.length + (envp.length + 5)) * 8 < U64_LIMIT
    swap
    · rw [if_pos hn]
      simp only [Option.bind_some, if_neg hP, Option.bind_none]
    rw [if_pos hn]
    simp only [Option.bind_some, if_pos hP, checkedSub]
    -- the payload does not fit below `top`, or the stack pointer falls below the slice
    by_cases hb : stringsSize (argv ++ envp) ≤ top
    swap
    · simp only [if_neg hb, Option.bind_none]
    by_cases hb' : (argv.length + (envp.length + 5)) * 8 ≤ top - stringsSize (argv ++ envp)
    swap
    · simp only [if_pos hb, if_neg hb', Option.bind_some, Option.bind_none]
    simp only [if_pos hb, if_pos hb', Option.bind_some]
    rw [show (argv.length + (envp.length + 5)) * 8 = 8 * (argv.length + envp.length + 5) by omega,
      if_pos (by omega)]
    rfl

/-! ## A run of `build_initial_stack` -/

/-- The words split as the writes make them: `argc`, the two groups, the auxiliary vector. -/
theorem initialWords_eq (argv envp : List (List Nat)) (start : Nat) :
    initialWords argv envp start = argv.length :: groupWords [argv, envp] start ++ [0, 0] := by
  simp [initialWords, groupWords]

/-- The run of `build_initial_stack` on a slice ending below `top`: when the payload fits, it
    returns the stack pointer and leaves `initialStackImage`; otherwise it returns `None` and the
    slice as it was. No inner write fails and no checked addition overflows. -/
theorem buildInitialStack_run {top : Nat} {argv envp : List (List Nat)} {stack : List Nat}
    (hlen : stack.length ≤ top) (htop : top < U64_LIMIT) :
    (buildInitialStack top argv envp).run stack =
      if InitialStackFits stack.length top argv envp then
        .ok (some (initialRsp top argv envp)) (initialStackImage stack top argv envp)
      else .ok none stack := by
  have hW : WORD = 8 := rfl
  unfold buildInitialStack
  rw [run_get_bind, initialLayout_eq hlen htop]
  by_cases hfit : InitialStackFits stack.length top argv envp
  swap
  · rw [if_neg hfit, if_neg hfit]
    rfl
  rw [if_pos hfit, if_pos hfit]
  dsimp only
  obtain ⟨hSP, hbase⟩ := hfit
  -- the stack pointer lies below the strings and the words
  have hrsp : initialRsp top argv envp ≤ top - stringsSize (argv ++ envp) - pointersSize argv envp :=
    Nat.and_le_left
  have hgw : (groupWords [argv, envp] (top - stringsSize (argv ++ envp))).length =
      argv.length + envp.length + 2 := by
    simp only [length_groupWords, List.map_cons, List.map_nil, List.sum_cons, List.sum_nil]
    omega
  have hflat : [argv, envp].flatten = argv ++ envp := by simp
  unfold pointersSize at hSP hrsp
  rw [hW] at hSP hrsp
  rw [run_bind_of_run_ok (putWord_run_of_le hbase (by rw [hW]; omega) (by omega))]
  dsimp only
  rw [checkedAdd_of_lt (by rw [hW]; omega)]
  dsimp only
  rw [run_bind_of_run_ok (putGroups_run htop [argv, envp] (by omega) (by rw [hgw, hW]; omega)
    (by rw [hflat]; omega) (by rw [Bytes.length_overwrite (by simp [hW]; omega)]; omega))]
  dsimp only
  rw [hflat]
  unfold initialStackImage
  rw [initialWords_eq]
  generalize initialRsp top argv envp = rsp at *
  generalize groupWords [argv, envp] (top - stringsSize (argv ++ envp)) = gw at *
  have hL₀ : (Bytes.overwrite stack (rsp - (top - stack.length)) (Bytes.encodeLE WORD argv.length)).length =
      stack.length :=
    Bytes.length_overwrite (by simp [hW]; omega)
  have hL₁ : (Bytes.overwrite (Bytes.overwrite stack (rsp - (top - stack.length)) (Bytes.encodeLE WORD argv.length))
      (rsp + WORD - (top - stack.length)) (wordBytes gw)).length = stack.length := by
    rw [Bytes.length_overwrite (by rw [hL₀, length_wordBytes, hgw, hW]; omega), hL₀]
  have hL₂ : (Bytes.overwrite (Bytes.overwrite (Bytes.overwrite stack (rsp - (top - stack.length))
      (Bytes.encodeLE WORD argv.length)) (rsp + WORD - (top - stack.length)) (wordBytes gw))
      (top - stringsSize (argv ++ envp) - (top - stack.length)) (stringArea (argv ++ envp))).length = stack.length := by
    rw [Bytes.length_overwrite (by rw [hL₁, length_stringArea]; omega), hL₁]
  rw [run_bind_of_run_ok (putWord_run_of_le (by omega) (by rw [hL₂, hgw, hW]; omega) (by omega))]
  dsimp only
  rw [checkedAdd_of_lt (by rw [hgw, hW]; omega)]
  dsimp only
  have hL₃ : (Bytes.overwrite (Bytes.overwrite (Bytes.overwrite (Bytes.overwrite stack
      (rsp - (top - stack.length)) (Bytes.encodeLE WORD argv.length)) (rsp + WORD - (top - stack.length))
      (wordBytes gw)) (top - stringsSize (argv ++ envp) - (top - stack.length)) (stringArea (argv ++ envp)))
      (rsp + WORD + WORD * gw.length - (top - stack.length)) (Bytes.encodeLE WORD 0)).length = stack.length := by
    rw [Bytes.length_overwrite (by rw [hL₂, Bytes.length_encodeLE, hgw, hW]; omega), hL₂]
  rw [run_bind_of_run_ok (putWord_run_of_le (by omega) (by rw [hL₃, hgw, hW]; omega) (by omega))]
  dsimp only
  -- the five writes of words join into one range from `rsp`, the strings into one at the top
  have hs : top - stringsSize (argv ++ envp) - (top - stack.length) = stack.length - stringsSize (argv ++ envp) := by
    omega
  have e₁ : rsp + WORD - (top - stack.length) =
      rsp - (top - stack.length) + (Bytes.encodeLE WORD argv.length).length := by
    rw [Bytes.length_encodeLE]
    omega
  have e₂ : rsp + WORD + WORD * gw.length - (top - stack.length) =
      rsp - (top - stack.length) + (Bytes.encodeLE WORD argv.length ++ wordBytes gw).length := by
    simp only [List.length_append, Bytes.length_encodeLE, length_wordBytes]
    omega
  have e₃ : rsp + WORD + WORD * gw.length + WORD - (top - stack.length) = rsp - (top - stack.length) +
      (Bytes.encodeLE WORD argv.length ++ wordBytes gw ++ Bytes.encodeLE WORD 0).length := by
    simp only [List.length_append, Bytes.length_encodeLE, length_wordBytes]
    omega
  have hfit₁ : rsp - (top - stack.length) + (Bytes.encodeLE WORD argv.length).length +
      (wordBytes gw).length ≤ stack.length := by
    simp only [Bytes.length_encodeLE, length_wordBytes, hgw, hW]
    omega
  have hfit₂ : rsp - (top - stack.length) + (Bytes.encodeLE WORD argv.length ++ wordBytes gw).length +
      (Bytes.encodeLE WORD 0).length ≤ top - stringsSize (argv ++ envp) - (top - stack.length) := by
    simp only [List.length_append, Bytes.length_encodeLE, length_wordBytes, hgw, hW]
    omega
  have hfit₃ : rsp - (top - stack.length) +
      (Bytes.encodeLE WORD argv.length ++ wordBytes gw ++ Bytes.encodeLE WORD 0).length +
      (Bytes.encodeLE WORD 0).length ≤ top - stringsSize (argv ++ envp) - (top - stack.length) := by
    simp only [List.length_append, Bytes.length_encodeLE, length_wordBytes, hgw, hW]
    omega
  have hstr : top - stringsSize (argv ++ envp) - (top - stack.length) +
      (stringArea (argv ++ envp)).length ≤ stack.length := by
    rw [length_stringArea]
    omega
  rw [e₁, ← Bytes.overwrite_append hfit₁, e₂, Bytes.overwrite_overwrite_append_left hfit₂ hstr, e₃,
    Bytes.overwrite_overwrite_append_left hfit₃ hstr, hs]
  simp only [wordBytes_cons, wordBytes_append, wordBytes_nil, List.append_assoc, List.cons_append,
    List.append_nil]
  rfl

/-! ## The layout a run that fits leaves -/

/-- String `i` is copied right after the strings before it. -/
theorem getElem?_stringAddrs : ∀ (ss : List (List Nat)) (start : Nat) {i : Nat}, i < ss.length →
    (stringAddrs ss start)[i]? = some (start + stringsSize (ss.take i))
  | [], _, _, hi => absurd hi (Nat.not_lt_zero _)
  | _ :: _, _, 0, _ => by simp [stringAddrs]
  | s :: ss, start, i + 1, hi => by
    rw [stringAddrs, List.getElem?_cons_succ,
      getElem?_stringAddrs ss _ (Nat.lt_of_succ_lt_succ hi), List.take_succ_cons, stringsSize_cons]
    congr 1
    omega

/-- The string area holds string `i` and its NUL after the strings before it. -/
theorem slice_stringArea : ∀ {ss : List (List Nat)} {i : Nat} (hi : i < ss.length),
    Bytes.slice (stringArea ss) (stringsSize (ss.take i)) (ss[i].length + 1) = ss[i] ++ [0]
  | [], _, hi => absurd hi (Nat.not_lt_zero _)
  | s :: ss, 0, _ => by
    simp only [stringArea_cons, List.take_zero, stringsSize_nil, List.getElem_cons_zero]
    unfold Bytes.slice
    rw [List.drop_zero, List.take_left' (by simp)]
  | s :: ss, i + 1, hi => by
    simp only [stringArea_cons, List.take_succ_cons, stringsSize_cons, List.getElem_cons_succ]
    unfold Bytes.slice
    rw [show s.length + 1 + stringsSize (ss.take i) = (s ++ [0]).length + stringsSize (ss.take i) by simp,
      List.drop_length_add_append]
    exact slice_stringArea (Nat.lt_of_succ_lt_succ hi)

/-- String `i` and its NUL lie inside the string area. -/
theorem stringsSize_take_add_le : ∀ (ss : List (List Nat)) {i : Nat} (hi : i < ss.length),
    stringsSize (ss.take i) + (ss[i].length + 1) ≤ stringsSize ss
  | [], _, hi => absurd hi (Nat.not_lt_zero _)
  | _ :: _, 0, _ => by simp
  | s :: ss, i + 1, hi => by
    have hrest := stringsSize_take_add_le ss (Nat.lt_of_succ_lt_succ hi)
    simp only [List.take_succ_cons, stringsSize_cons, List.getElem_cons_succ]
    omega

@[simp] theorem length_initialWords (argv envp : List (List Nat)) (start : Nat) :
    (initialWords argv envp start).length = argv.length + envp.length + 5 := by
  simp only [initialWords, List.length_cons, List.length_append, length_stringAddrs, List.length_nil]
  omega

theorem initialRsp_le (top : Nat) (argv envp : List (List Nat)) :
    initialRsp top argv envp ≤ top - stringsSize (argv ++ envp) - pointersSize argv envp :=
  Nat.and_le_left

/-- Rounding down moves the stack pointer by less than `STACK_ALIGN`. -/
theorem le_initialRsp {top : Nat} (argv envp : List (List Nat)) (htop : top < U64_LIMIT) :
    top - stringsSize (argv ++ envp) - pointersSize argv envp - (STACK_ALIGN - 1) ≤ initialRsp top argv envp := by
  have hround := @and_bitNot_two_pow_sub_one (top - stringsSize (argv ++ envp) - pointersSize argv envp) 4
    (by decide) (by omega)
  unfold initialRsp
  rw [show STACK_ALIGN - 1 = 2 ^ 4 - 1 from rfl, hround]
  have hmod := Nat.mod_lt (top - stringsSize (argv ++ envp) - pointersSize argv envp) (Nat.two_pow_pos 4)
  omega

/-- Rounding down clears the low four bits. -/
theorem initialRsp_mod {top : Nat} (argv envp : List (List Nat)) (htop : top < U64_LIMIT) :
    initialRsp top argv envp % STACK_ALIGN = 0 := by
  have hround := @and_bitNot_two_pow_sub_one (top - stringsSize (argv ++ envp) - pointersSize argv envp) 4
    (by decide) (by omega)
  unfold initialRsp
  rw [show STACK_ALIGN - 1 = 2 ^ 4 - 1 from rfl, hround]
  show (_ - _ % 16) % 16 = 0
  omega

/-- What a run of `build_initial_stack` that returned `rsp` leaves in the slice `stack'`, for
    a slice `stack` ending below `top`: `rsp` is the rounded-down stack pointer; from it, the
    words `argc`, the `argv` pointers, a null word, the `envp` pointers, a null word and `AT_NULL`;
    each pointer to a NUL-terminated copy of its string; the copies one after the other up to
    `top`; and every other byte as it was. -/
structure InitialStackLayout (stack : List Nat) (top : Nat) (argv envp : List (List Nat))
    (rsp : Nat) (stack' : List Nat) : Prop where
  rsp_eq : rsp = initialRsp top argv envp
  aligned : rsp % STACK_ALIGN = 0
  length_eq : stack'.length = stack.length
  words : Bytes.slice stack' (rsp - (top - stack.length)) (pointersSize argv envp) =
    wordBytes (initialWords argv envp (top - stringsSize (argv ++ envp)))
  string : ∀ (i : Nat) (hi : i < (argv ++ envp).length) (addr : Nat),
    (stringAddrs (argv ++ envp) (top - stringsSize (argv ++ envp)))[i]? = some addr →
    Bytes.slice stack' (addr - (top - stack.length)) ((argv ++ envp)[i].length + 1) = (argv ++ envp)[i] ++ [0]
  strings : Bytes.slice stack' (stack.length - stringsSize (argv ++ envp)) (stringsSize (argv ++ envp)) =
    stringArea (argv ++ envp)
  untouched : ∀ j, j < rsp - (top - stack.length) ∨
    rsp - (top - stack.length) + pointersSize argv envp ≤ j ∧ j < stack.length - stringsSize (argv ++ envp) →
    stack'[j]? = stack[j]?

section Layout

variable {stack : List Nat} {top : Nat} {argv envp : List (List Nat)}

/-- The image has the layout: the words and the strings are two overwrites of ranges that do
    not meet. -/
theorem initialStackLayout_image (hlen : stack.length ≤ top) (htop : top < U64_LIMIT)
    (hfit : InitialStackFits stack.length top argv envp) :
    InitialStackLayout stack top argv envp (initialRsp top argv envp) (initialStackImage stack top argv envp) := by
  obtain ⟨hSP, hbase⟩ := hfit
  have hrsp := initialRsp_le top argv envp
  have hW : (wordBytes (initialWords argv envp (top - stringsSize (argv ++ envp)))).length =
      pointersSize argv envp := by
    rw [length_wordBytes, length_initialWords]
    rfl
  have hA := length_stringArea (argv ++ envp)
  -- the words end below the strings
  have hinner : initialRsp top argv envp - (top - stack.length) +
      (wordBytes (initialWords argv envp (top - stringsSize (argv ++ envp)))).length ≤ stack.length := by
    omega
  have hL := Bytes.length_overwrite hinner
  refine ⟨rfl, initialRsp_mod argv envp htop, ?_, ?_, ?_, ?_, ?_⟩ <;> unfold initialStackImage
  · rw [Bytes.length_overwrite (by rw [hL]; omega), hL]
  · rw [Bytes.slice_overwrite_of_disjoint (by rw [hL]; omega) (.inl (by omega)),
      Bytes.slice_overwrite_of_length hW (by omega)]
  · intro i hi addr haddr
    rw [getElem?_stringAddrs _ _ hi, Option.some_inj] at haddr
    have hsub := stringsSize_take_add_le (argv ++ envp) hi
    subst haddr
    rw [show top - stringsSize (argv ++ envp) + stringsSize ((argv ++ envp).take i) - (top - stack.length) =
        stack.length - stringsSize (argv ++ envp) + stringsSize ((argv ++ envp).take i) by omega,
      Bytes.slice_overwrite_of_le (by rw [hL]; omega) (by rw [hA]; omega), slice_stringArea hi]
  · exact Bytes.slice_overwrite_of_length hA (by rw [hL]; omega)
  · intro j hj
    rw [Bytes.getElem?_overwrite_of_not_mem (by rw [hL]; omega) (.inl (by omega)),
      Bytes.getElem?_overwrite_of_not_mem (by omega) (by rw [hW]; omega)]

end Layout

section Run

variable {stack : List Nat} {top : Nat} {argv envp : List (List Nat)}

/-- `build_initial_stack` returns `Some` exactly when the payload fits. -/
theorem buildInitialStack_eq_some_iff (hlen : stack.length ≤ top) (htop : top < U64_LIMIT) :
    (∃ rsp stack', (buildInitialStack top argv envp).run stack = .ok (some rsp) stack') ↔
      InitialStackFits stack.length top argv envp := by
  rw [buildInitialStack_run hlen htop]
  split_ifs with hfit
  · exact iff_of_true ⟨_, _, rfl⟩ hfit
  · simp [hfit]

/-- A run that returned `Some` left the layout. -/
theorem layout_of_buildInitialStack {rsp : Nat} {stack' : List Nat} (hlen : stack.length ≤ top)
    (htop : top < U64_LIMIT) (h : (buildInitialStack top argv envp).run stack = .ok (some rsp) stack') :
    InitialStackLayout stack top argv envp rsp stack' := by
  rw [buildInitialStack_run hlen htop] at h
  split_ifs at h with hfit
  · cases h
    exact initialStackLayout_image hlen htop hfit
  · cases h

end Run

end Muffin.Syscall
