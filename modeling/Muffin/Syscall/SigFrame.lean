-- SUMMARY: Building a signal frame on the user stack as `write_sigframe` does: where the frame goes, the checks made on that address, and the writes that follow.
import Muffin.Syscall.UserAccess
import Muffin.Abi.Signal

/-!
# The signal frame

When a signal with a handler is delivered, `write_sigframe` places a `SigFrame`
128 bytes below the interrupted stack pointer, aligned down to 16 bytes, and the
handler's return address, the restorer, in the 8 bytes below it. The frame's
base is computed with wrapping arithmetic, the restorer slot with an ordinary
`base - 8`, which the kernel, built with overflow checks, turns into a panic when
`base` is 0. Only then come the checks: bit 63 of the slot's address, and the end
of the range against the upper half.
-/

namespace Muffin.Syscall

open Rust X86 Mem ProcessMemory Abi

/-- `size_of::<SigFrame>()`: a 512-byte FPU image, nine saved registers, `rip`, `rflags`, `rsp`,
    the old mask, the signal number, `fx_valid` and the magic, padded to 16 bytes. -/
def SIGFRAME_SIZE : Nat := 640

/-- `!0xF` as a `u64`. -/
def ALIGN_16_MASK : Nat := 0xFFFF_FFFF_FFFF_FFF0

/-- `write_sigframe`: the frame's base, or the signal that `terminate_current` kills the process
    with. `frame` stands for the bytes of the `SigFrame` the kernel fills in. -/
def writeSigframe (userRsp restorer : Nat) (frame : List Nat) :
    EStateM Panic ProcessMemory (Except Signal Nat) := do
  let base := wrappingSub (wrappingSub userRsp 128) SIGFRAME_SIZE &&& ALIGN_16_MASK
  let some start := checkedSub base 8 | throw ⟨"attempt to subtract with overflow"⟩
  let .ok uptr := tryFromUsizeMut start | return .error .segfault
  let .ok () := validateRange uptr (SIGFRAME_SIZE + 8) | return .error .segfault
  writeBytes start (toLeBytes restorer)
  writeBytes (start + 8) frame
  return .ok base

/-- For a stack pointer within 16 bytes above `128 + size_of::<SigFrame>()` the frame's base is 0,
    and `base - 8` panics before any check has run. -/
theorem writeSigframe_underflow {userRsp : Nat} (hlo : 128 + SIGFRAME_SIZE ≤ userRsp)
    (hhi : userRsp < 128 + SIGFRAME_SIZE + 16) (restorer : Nat) (frame : List Nat)
    (s : ProcessMemory) :
    (writeSigframe userRsp restorer frame).run s = .error ⟨"attempt to subtract with overflow"⟩ s := by
  -- neither wrapping subtraction wraps, and what is left is below 16
  have h₁ : wrappingSub userRsp 128 = userRsp - 128 := wrappingSub_of_le (by omega)
  have h₂ : wrappingSub (userRsp - 128) SIGFRAME_SIZE = userRsp - 128 - SIGFRAME_SIZE :=
    wrappingSub_of_le (by omega)
  have hbase : (userRsp - 128 - SIGFRAME_SIZE) &&& ALIGN_16_MASK = 0 := by
    have hr : userRsp - 128 - SIGFRAME_SIZE < 16 := by omega
    generalize userRsp - 128 - SIGFRAME_SIZE = r at hr
    interval_cases r <;> decide
  rw [writeSigframe, h₁, h₂, hbase]
  rfl

/-- A signal with a handler delivered to a task whose stack pointer is `0x300`. -/
theorem writeSigframe_underflow_at_0x300 :
    (128 + SIGFRAME_SIZE ≤ 0x300 ∧ 0x300 < 128 + SIGFRAME_SIZE + 16) ∧
      (writeSigframe 0x300 0 []).run unmappedMemory =
        .error ⟨"attempt to subtract with overflow"⟩ unmappedMemory :=
  ⟨by decide, writeSigframe_underflow (by decide) (by decide) 0 [] unmappedMemory⟩

end Muffin.Syscall
