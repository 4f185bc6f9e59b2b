-- SUMMARY: `sys_lseek` on an open file description, the `isize` that `dispatch_syscall` writes to the return register, and `minilib::ret`, which reads that register back in user space.
import Muffin.Abi.Errno
import Muffin.Lib.Rust
import Muffin.Lib.EStateM

/-!
# `lseek`, from user space to the kernel and back

`sys_lseek` takes its base from `whence` (zero, the position or the size), adds
the `i64` offset with `u64::checked_add_signed`, stores the target as the new
position and returns it. A result crosses back to user space in one register:
`dispatch_syscall` writes `Ok(v)` as `v as isize` and `Err(e)` as `-e`, and
`minilib::ret` reads a negative `isize` as an error.

`checked_add_signed` accepts every target below `2 ^ 64`, while the register
reads as non-negative only below `2 ^ 63`. A target between the two moves the
position and is returned as `Ok`, and user space reads an error for it
(`userLseek_past_i64_max`).

The registers are `BitVec 64`, the offset an `Int` in the range of `i64`, and
the position and the size `u64`s. How the kernel finds the open file for a
descriptor is not modelled: the call runs on the file description itself.
-/

namespace Muffin.Syscall

open Muffin.Abi Rust EStateM

/-- `kernel_abi::Whence`. -/
inductive Whence where
  | set
  | cur
  | «end»
  deriving DecidableEq, Repr

/-- The discriminant of a `Whence`, the POSIX `SEEK_*` number. -/
def Whence.toNat : Whence → Nat
  | .set => 0
  | .cur => 1
  | .«end» => 2

/-- `Whence::try_from(usize)`. -/
def Whence.tryFrom (n : Nat) : Except Errno Whence :=
  match n with
  | 0 => .ok .set
  | 1 => .ok .cur
  | 2 => .ok .«end»
  | _ => .error EINVAL

/-- An open file description as `sys_lseek` reaches it through `FileAccess`: the position that
    `position` returns and `set_position` stores, and the size that `fstat` reports, both
    `u64`s. -/
structure OpenFile where
  position : Nat
  size : Nat
  position_lt : position < U64_LIMIT
  size_lt : size < U64_LIMIT
  deriving DecidableEq

/-- `cx.set_position(fildes, position)`. -/
def OpenFile.setPosition (f : OpenFile) (position : Nat) (h : position < U64_LIMIT) : OpenFile :=
  { f with position, position_lt := h }

/-- `i64::MAX`. -/
def I64_MAX : Int := 2 ^ 63 - 1

/-- `u64::checked_add_signed`. -/
def checkedAddSigned (base : Nat) (offset : Int) : Option Nat :=
  if 0 ≤ (base : Int) + offset ∧ (base : Int) + offset < U64_LIMIT then
    some ((base : Int) + offset).toNat
  else none

theorem checkedAddSigned_eq_some {base t : Nat} {offset : Int} :
    checkedAddSigned base offset = some t ↔ (base : Int) + offset = t ∧ t < U64_LIMIT := by
  unfold checkedAddSigned
  split_ifs with h
  · rw [Option.some_inj]
    omega
  · simp only [false_iff]
    omega

theorem checkedAddSigned_lt {base t : Nat} {offset : Int} (h : checkedAddSigned base offset = some t) :
    t < U64_LIMIT :=
  (checkedAddSigned_eq_some.1 h).2

/-- The base of a seek: `0`, `cx.position(fildes)` or `cx.fstat(fildes)?.size`. -/
def OpenFile.base (f : OpenFile) : Whence → Nat
  | .set => 0
  | .cur => f.position
  | .«end» => f.size

/-- `sys_lseek`. The final `usize::try_from(target)` cannot fail on x86-64, where `usize` is
    `u64`. -/
def sysLseek (offset : Int) (whence : Whence) : EStateM Errno OpenFile Nat := do
  let base := (← get).base whence
  match h : checkedAddSigned base offset with
  | some target =>
    modify fun f => f.setPosition target (checkedAddSigned_lt h)
    pure target
  | none => throw (if offset < 0 then EINVAL else EOVERFLOW)

/-- `dispatch_sys_lseek`: the whence from its register, and the offset register as an `i64`. -/
def dispatchSysLseek (offset whence : BitVec 64) : EStateM Errno OpenFile Nat := do
  let whence ← liftExcept (Whence.tryFrom whence.toNat)
  sysLseek offset.toInt whence
where
  liftExcept {α : Type} : Except Errno α → EStateM Errno OpenFile α
    | .ok a => pure a
    | .error e => throw e

/-- The return register of `dispatch_syscall`: `Ok(ret)` as `ret as isize`, `Err(e)` as
    `-isize::from(e)`. -/
def dispatchReturn : Except Errno Nat → BitVec 64
  | .ok v => BitVec.ofNat 64 v
  | .error e => BitVec.ofInt 64 (-e.code)

/-- `Errno::from(isize)`: `errno as c_int` keeps the low 32 bits. -/
def Errno.ofIsize (n : Int) : Errno := ⟨(BitVec.ofInt 32 n).toInt⟩

/-- `minilib::ret`: the register as an `isize`, an error when negative. Negating `isize::MIN`
    overflows. -/
def ret (raw : BitVec 64) : Except Panic (Except Errno Nat) :=
  if raw.toInt < 0 then
    if raw.toInt = -2 ^ 63 then .error ⟨"attempt to negate with overflow"⟩
    else .ok (.error (Errno.ofIsize (-raw.toInt)))
  else .ok (.ok raw.toNat)

/-- `minilib::lseek` and the system call it makes: the offset and the whence passed in their
    registers, the kernel's `dispatch_sys_lseek` on the file, and `ret` on the register it
    writes back. What user space reads, and the file after the call. -/
def userLseek (offset : Int) (whence : Whence) (f : OpenFile) :
    Except Panic (Except Errno Nat) × OpenFile :=
  match (dispatchSysLseek (BitVec.ofInt 64 offset) (BitVec.ofNat 64 whence.toNat)).run f with
  | .ok v f' => (ret (dispatchReturn (.ok v)), f')
  | .error e f' => (ret (dispatchReturn (.error e)), f')

/-! ## The kernel side -/

theorem checkedAddSigned_eq_none {base : Nat} {offset : Int} :
    checkedAddSigned base offset = none ↔
      (base : Int) + offset < 0 ∨ (U64_LIMIT : Int) ≤ (base : Int) + offset := by
  unfold checkedAddSigned
  split_ifs with h <;> simp only [false_iff, true_iff] <;> omega

theorem OpenFile.base_lt (f : OpenFile) (whence : Whence) : f.base whence < U64_LIMIT := by
  cases whence with
  | set => exact Nat.two_pow_pos 64
  | cur => exact f.position_lt
  | «end» => exact f.size_lt

theorem sysLseek_run_of_eq_some {f : OpenFile} {offset : Int} {whence : Whence} {t : Nat}
    (h : checkedAddSigned (f.base whence) offset = some t) :
    (sysLseek offset whence).run f = .ok t (f.setPosition t (checkedAddSigned_lt h)) := by
  unfold sysLseek
  rw [run_get_bind]
  dsimp only
  split
  · rename_i target htarget
    obtain rfl : target = t := Option.some_inj.1 (htarget.symm.trans h)
    rfl
  · rename_i hnone
    rw [h] at hnone
    cases hnone

theorem sysLseek_run_of_eq_none {f : OpenFile} {offset : Int} {whence : Whence}
    (h : checkedAddSigned (f.base whence) offset = none) :
    (sysLseek offset whence).run f = .error (if offset < 0 then EINVAL else EOVERFLOW) f := by
  unfold sysLseek
  rw [run_get_bind]
  dsimp only
  split
  · rename_i target htarget
    rw [h] at htarget
    cases htarget
  · rfl

/-- A target below `2 ^ 64` becomes the position and is returned. -/
theorem sysLseek_run_of_target {f : OpenFile} {offset : Int} {whence : Whence} {t : Nat}
    (ht : (f.base whence : Int) + offset = t) (hfit : t < U64_LIMIT) :
    (sysLseek offset whence).run f = .ok t (f.setPosition t hfit) :=
  sysLseek_run_of_eq_some (checkedAddSigned_eq_some.2 ⟨ht, hfit⟩)

/-- A target before the start of the file is refused with `EINVAL`, and the position stays. -/
theorem sysLseek_run_of_neg {f : OpenFile} {offset : Int} {whence : Whence}
    (hneg : (f.base whence : Int) + offset < 0) :
    (sysLseek offset whence).run f = .error EINVAL f := by
  have hoff : offset < 0 := by omega
  rw [sysLseek_run_of_eq_none (checkedAddSigned_eq_none.2 (.inl hneg)), if_pos hoff]

/-- A target past `u64::MAX` is refused with `EOVERFLOW`, and the position stays: the base is a
    `u64`, so the offset was positive. -/
theorem sysLseek_run_of_overflow {f : OpenFile} {offset : Int} {whence : Whence}
    (hover : (U64_LIMIT : Int) ≤ (f.base whence : Int) + offset) :
    (sysLseek offset whence).run f = .error EOVERFLOW f := by
  have hbase := f.base_lt whence
  have hoff : ¬ offset < 0 := by omega
  rw [sysLseek_run_of_eq_none (checkedAddSigned_eq_none.2 (.inr hover)), if_neg hoff]

/-! ## The register and user space -/

/-- The `isize` a `u64` reads as: itself below `2 ^ 63`, and `v - 2 ^ 64` from there. -/
theorem toInt_ofNat_of_lt {v : Nat} (hv : v < U64_LIMIT) :
    (BitVec.ofNat 64 v).toInt = if v < 2 ^ 63 then (v : Int) else (v : Int) - 2 ^ 64 := by
  unfold U64_LIMIT at hv
  rw [BitVec.toInt_eq_toNat_cond, BitVec.toNat_ofNat, Nat.mod_eq_of_lt hv]
  split_ifs <;> omega

theorem toNat_ofNat_of_lt {v : Nat} (hv : v < U64_LIMIT) : (BitVec.ofNat 64 v).toNat = v := by
  unfold U64_LIMIT at hv
  rw [BitVec.toNat_ofNat, Nat.mod_eq_of_lt hv]

theorem lt_of_le_i64_max {t : Nat} (h : (t : Int) ≤ I64_MAX) : t < U64_LIMIT := by
  unfold I64_MAX at h
  unfold U64_LIMIT
  omega

/-- A result up to `i64::MAX` reads back as itself. -/
theorem ret_dispatchReturn_ok {v : Nat} (hv : (v : Int) ≤ I64_MAX) :
    ret (dispatchReturn (.ok v)) = .ok (.ok v) := by
  have hlt : v < 2 ^ 63 := by unfold I64_MAX at hv; omega
  have hfit : v < U64_LIMIT := by unfold U64_LIMIT; omega
  have hint := toInt_ofNat_of_lt hfit
  rw [if_pos hlt] at hint
  unfold ret dispatchReturn
  rw [hint, if_neg (by omega), toNat_ofNat_of_lt hfit]

/-- A result past `i64::MAX` reads as an error, the low 32 bits of `2 ^ 64 - v`, or panics at
    `2 ^ 63`, whose negation overflows. -/
theorem ret_dispatchReturn_ok_of_gt {v : Nat} (hv : I64_MAX < v) (hfit : v < U64_LIMIT) :
    ret (dispatchReturn (.ok v)) =
      if v = 2 ^ 63 then .error ⟨"attempt to negate with overflow"⟩
      else .ok (.error (Errno.ofIsize (2 ^ 64 - v))) := by
  have hge : ¬ v < 2 ^ 63 := by unfold I64_MAX at hv; omega
  have hint := toInt_ofNat_of_lt hfit
  rw [if_neg hge] at hint
  unfold U64_LIMIT at hfit
  unfold ret dispatchReturn
  rw [hint, if_pos (by omega)]
  by_cases hmin : v = 2 ^ 63
  · rw [if_pos (by omega), if_pos hmin]
  · rw [if_neg (by omega), if_neg hmin, Int.neg_sub]

/-- An error number of the ABI, positive and a `c_int`, reads back as itself. -/
theorem ret_dispatchReturn_error {e : Errno} (hpos : 0 < e.code) (hlt : e.code < 2 ^ 31) :
    ret (dispatchReturn (.error e)) = .ok (.error e) := by
  have hint : (BitVec.ofInt 64 (-e.code)).toInt = -e.code :=
    BitVec.toInt_ofInt_eq_self (by decide) (by omega) (by omega)
  have herrno : Errno.ofIsize e.code = e := by
    unfold Errno.ofIsize
    rw [BitVec.toInt_ofInt_eq_self (by decide) (by omega) (by omega)]
  unfold ret dispatchReturn
  rw [hint, if_pos (by omega), if_neg (by omega), Int.neg_neg, herrno]

/-- The kernel's side of a call from `minilib::lseek`: the offset register reads back as the
    `i64`, and the whence as itself. -/
theorem dispatchSysLseek_run {offset : Int} (hlo : -2 ^ 63 ≤ offset) (hhi : offset ≤ I64_MAX)
    (whence : Whence) (f : OpenFile) :
    (dispatchSysLseek (BitVec.ofInt 64 offset) (BitVec.ofNat 64 whence.toNat)).run f =
      (sysLseek offset whence).run f := by
  have hoff : (BitVec.ofInt 64 offset).toInt = offset :=
    BitVec.toInt_ofInt_eq_self (by decide) hlo (by unfold I64_MAX at hhi; omega)
  have hwhence : Whence.tryFrom (BitVec.ofNat 64 whence.toNat).toNat = .ok whence := by
    cases whence <;> rfl
  unfold dispatchSysLseek
  rw [hwhence, hoff]
  rfl

section UserLseek

variable {f : OpenFile} {offset : Int} {whence : Whence}

/-- A seek to a target in `[0, i64::MAX]` moves the position there, and user space reads the
    target. -/
theorem userLseek_of_le_i64_max {t : Nat} (hlo : -2 ^ 63 ≤ offset) (hhi : offset ≤ I64_MAX)
    (ht : (f.base whence : Int) + offset = t) (hle : (t : Int) ≤ I64_MAX) :
    userLseek offset whence f = (.ok (.ok t), f.setPosition t (lt_of_le_i64_max hle)) := by
  unfold userLseek
  rw [dispatchSysLseek_run hlo hhi, sysLseek_run_of_target ht (lt_of_le_i64_max hle)]
  dsimp only
  rw [ret_dispatchReturn_ok hle]

/-- A seek before the start of the file leaves the position, and user space reads `EINVAL`. -/
theorem userLseek_of_neg (hlo : -2 ^ 63 ≤ offset) (hhi : offset ≤ I64_MAX)
    (hneg : (f.base whence : Int) + offset < 0) :
    userLseek offset whence f = (.ok (.error EINVAL), f) := by
  unfold userLseek
  rw [dispatchSysLseek_run hlo hhi, sysLseek_run_of_neg hneg]
  dsimp only
  rw [ret_dispatchReturn_error (by decide) (by decide)]

/-- A seek past `u64::MAX` leaves the position, and user space reads `EOVERFLOW`. -/
theorem userLseek_of_overflow (hlo : -2 ^ 63 ≤ offset) (hhi : offset ≤ I64_MAX)
    (hover : (U64_LIMIT : Int) ≤ (f.base whence : Int) + offset) :
    userLseek offset whence f = (.ok (.error EOVERFLOW), f) := by
  unfold userLseek
  rw [dispatchSysLseek_run hlo hhi, sysLseek_run_of_overflow hover]
  dsimp only
  rw [ret_dispatchReturn_error (by decide) (by decide)]

/-- A seek to a target past `i64::MAX` and below `2 ^ 64` succeeds in the kernel and moves the
    position, and user space does not read it as a success. -/
theorem userLseek_past_i64_max {t : Nat} (hlo : -2 ^ 63 ≤ offset) (hhi : offset ≤ I64_MAX)
    (ht : (f.base whence : Int) + offset = t) (hover : I64_MAX < t) (hfit : t < U64_LIMIT) :
    (sysLseek offset whence).run f = .ok t (f.setPosition t hfit) ∧
      (userLseek offset whence f).2.position = t ∧
      ∀ r, (userLseek offset whence f).1 ≠ .ok (.ok r) := by
  have hkernel := sysLseek_run_of_target ht hfit
  have huser : userLseek offset whence f = (ret (dispatchReturn (.ok t)), f.setPosition t hfit) := by
    unfold userLseek
    rw [dispatchSysLseek_run hlo hhi, hkernel]
  refine ⟨hkernel, by rw [huser]; rfl, fun r => ?_⟩
  rw [huser, ret_dispatchReturn_ok_of_gt hover hfit]
  split_ifs <;> simp

end UserLseek

/-- From position `i64::MAX`, a `SEEK_CUR` by `2 ^ 63 - 26` moves the position to `2 ^ 64 - 27`,
    and user space reads `EINVAL`. -/
theorem userLseek_cur_reads_einval :
    (sysLseek (2 ^ 63 - 26) .cur).run ⟨2 ^ 63 - 1, 0, by decide, by decide⟩ =
        .ok (2 ^ 64 - 27) ⟨2 ^ 64 - 27, 0, by decide, by decide⟩ ∧
      (userLseek (2 ^ 63 - 26) .cur ⟨2 ^ 63 - 1, 0, by decide, by decide⟩).2.position = 2 ^ 64 - 27 ∧
      (∀ r, (userLseek (2 ^ 63 - 26) .cur ⟨2 ^ 63 - 1, 0, by decide, by decide⟩).1 ≠ .ok (.ok r)) ∧
      (userLseek (2 ^ 63 - 26) .cur ⟨2 ^ 63 - 1, 0, by decide, by decide⟩).1 = .ok (.error EINVAL) :=
  have h := @userLseek_past_i64_max ⟨2 ^ 63 - 1, 0, by decide, by decide⟩ (2 ^ 63 - 26) .cur
    (2 ^ 64 - 27) (by decide) (by decide) (by decide) (by decide) (by decide)
  ⟨h.1, h.2.1, h.2.2, rfl⟩

end Muffin.Syscall
