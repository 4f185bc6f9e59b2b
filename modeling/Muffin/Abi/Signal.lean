-- SUMMARY: The signal ABI: signal numbers and their bits, handler, flags and action records, mask operations and the default-action table.
import Muffin.Abi.Errno
import Muffin.Lib.BitSet

/-!
# Signals in the ABI

The 27 signals of `kernel_abi::signal`, numbered from 1, and the records a
process exchanges with the kernel about them. A signal set `SigSet` is a
64-bit mask in which signal `n` owns bit `n - 1`.
-/

namespace Muffin.Abi

/-- `pub type SigSet = u64`. -/
abbrev SigSet := BitVec 64

/-- The signals, in the order of their numbers 1 to 27. -/
inductive Signal where
  | abort | alarm | bus | child | «continue» | fpe | hangup | illegalInstruction | interrupt
  | kill | pipe | quit | segfault | stop | terminate | terminalStop | terminalInput
  | terminalOutput | usr1 | usr2 | windowChanged | badSyscall | trap | urgent
  | virtualTimerAlarm | exceededCpuLimit | exceededFileSizeLimit
  deriving DecidableEq, Repr

namespace Signal

/-- `Signal::COUNT`. -/
def COUNT : Nat := 27

/-- The signal number, `self as i32`. -/
def number : Signal → Nat
  | abort => 1 | alarm => 2 | bus => 3 | child => 4 | .continue => 5 | fpe => 6
  | hangup => 7 | illegalInstruction => 8 | interrupt => 9 | kill => 10 | pipe => 11
  | quit => 12 | segfault => 13 | stop => 14 | terminate => 15 | terminalStop => 16
  | terminalInput => 17 | terminalOutput => 18 | usr1 => 19 | usr2 => 20
  | windowChanged => 21 | badSyscall => 22 | trap => 23 | urgent => 24
  | virtualTimerAlarm => 25 | exceededCpuLimit => 26 | exceededFileSizeLimit => 27

/-- `TryFrom<i32> for Signal`: the numbers 1 to 27, `EINVAL` for anything else. -/
def tryFrom : Int → Except Errno Signal
  | 1 => .ok abort | 2 => .ok alarm | 3 => .ok bus | 4 => .ok child | 5 => .ok .continue
  | 6 => .ok fpe | 7 => .ok hangup | 8 => .ok illegalInstruction | 9 => .ok interrupt
  | 10 => .ok kill | 11 => .ok pipe | 12 => .ok quit | 13 => .ok segfault | 14 => .ok stop
  | 15 => .ok terminate | 16 => .ok terminalStop | 17 => .ok terminalInput
  | 18 => .ok terminalOutput | 19 => .ok usr1 | 20 => .ok usr2 | 21 => .ok windowChanged
  | 22 => .ok badSyscall | 23 => .ok trap | 24 => .ok urgent | 25 => .ok virtualTimerAlarm
  | 26 => .ok exceededCpuLimit | 27 => .ok exceededFileSizeLimit
  | _ => .error EINVAL

/-- `Signal::bit`: `1 << (self as i32 - 1)`. -/
def bit (s : Signal) : SigSet := 1#64 <<< (s.number - 1)

theorem number_pos (s : Signal) : 0 < s.number := by
  cases s <;> decide

theorem number_le_COUNT (s : Signal) : s.number ≤ COUNT := by
  cases s <;> decide

theorem number_injective : Function.Injective number := by
  intro s t h
  cases s <;> cases t <;> first | rfl | (simp [number] at h)

@[simp] theorem tryFrom_number (s : Signal) : tryFrom (s.number : Int) = .ok s := by
  cases s <;> rfl

/-- A number that `tryFrom` accepts is a signal number. -/
theorem number_of_tryFrom {n : Int} {s : Signal} (h : tryFrom n = .ok s) :
    (s.number : Int) = n := by
  unfold tryFrom at h
  split at h <;> first | (cases h; rfl) | cases h

/-- `tryFrom` accepts exactly the numbers 1 to `COUNT`. -/
theorem tryFrom_ok_iff {n : Int} : (∃ s, tryFrom n = .ok s) ↔ 1 ≤ n ∧ n ≤ COUNT := by
  constructor
  · rintro ⟨s, h⟩
    have hn := number_of_tryFrom h
    have h1 := number_pos s
    have h2 := number_le_COUNT s
    omega
  · rintro ⟨h1, h2⟩
    obtain ⟨k, rfl⟩ : ∃ k : Nat, n = (k : Int) := ⟨n.toNat, by omega⟩
    have hk : k ∈ List.range' 1 27 := by simp [COUNT] at *; omega
    simp only [List.range', List.mem_cons, List.not_mem_nil, or_false] at hk
    rcases hk with rfl | rfl | rfl | rfl | rfl | rfl | rfl | rfl | rfl | rfl | rfl | rfl | rfl |
      rfl | rfl | rfl | rfl | rfl | rfl | rfl | rfl | rfl | rfl | rfl | rfl | rfl | rfl <;>
      exact ⟨_, rfl⟩

theorem bit_eq_twoPow (s : Signal) : s.bit = BitVec.twoPow 64 (s.number - 1) := rfl

/-- The bit of a signal is the singleton of its position `number - 1`. -/
@[simp] theorem bitSet_bit (s : Signal) : s.bit.bitSet = {s.number - 1} := by
  rw [bit_eq_twoPow, BitVec.bitSet_twoPow]
  have := number_le_COUNT s
  simp only [COUNT] at this
  omega

end Signal

/-- `STOP_SIGNALS_MASK`: the stop family `Stop`, `TerminalStop`, `TerminalInput` and
    `TerminalOutput`. -/
def STOP_SIGNALS_MASK : SigSet :=
  Signal.stop.bit ||| Signal.terminalStop.bit ||| Signal.terminalInput.bit |||
    Signal.terminalOutput.bit

/-- `SigHandler(usize)`: an address, with 0 and 1 reserved for `SIG_DFL` and `SIG_IGN`. -/
structure SigHandler where
  addr : BitVec 64
  deriving DecidableEq, Repr

namespace SigHandler

def DEFAULT : SigHandler := ⟨0⟩
def IGNORE : SigHandler := ⟨1⟩

instance : Inhabited SigHandler := ⟨DEFAULT⟩

def isDefault (h : SigHandler) : Bool := h == DEFAULT
def isIgnore (h : SigHandler) : Bool := h == IGNORE

end SigHandler

/-- `SaFlags(u32)`. -/
structure SaFlags where
  bits : BitVec 32
  deriving DecidableEq, Repr

namespace SaFlags

def RESTART : SaFlags := ⟨1 <<< 0⟩
def SIGINFO : SaFlags := ⟨1 <<< 1⟩
def NODEFER : SaFlags := ⟨1 <<< 2⟩
def RESETHAND : SaFlags := ⟨1 <<< 3⟩

instance : Inhabited SaFlags := ⟨⟨0⟩⟩

/-- `self.0 & other.0 == other.0`. -/
def contains (self other : SaFlags) : Bool := self.bits &&& other.bits == other.bits

end SaFlags

/-- `SigAction`, with `SigAction::default()` the all-zero record. -/
structure SigAction where
  handler : SigHandler
  mask : SigSet
  flags : SaFlags
  restorer : BitVec 64
  deriving DecidableEq, Repr

instance : Inhabited SigAction := ⟨⟨SigHandler.DEFAULT, 0, ⟨0⟩, 0⟩⟩

@[simp] theorem SigAction.default_handler : (default : SigAction).handler = SigHandler.DEFAULT :=
  rfl

/-- `SigMaskHow`, the first argument of `sigprocmask`. -/
inductive SigMaskHow where
  | block | unblock | setMask
  deriving DecidableEq, Repr

/-- `TryFrom<usize> for SigMaskHow`. -/
def SigMaskHow.tryFrom : Nat → Except Errno SigMaskHow
  | 0 => .ok .block
  | 1 => .ok .unblock
  | 2 => .ok .setMask
  | _ => .error EINVAL

inductive DefaultAction where
  | terminate | ignore | stop
  deriving DecidableEq, Repr

/-- `default_action`: the POSIX default of each signal. -/
def defaultAction : Signal → DefaultAction
  | .child | .windowChanged | .urgent | .continue => .ignore
  | .stop | .terminalStop | .terminalInput | .terminalOutput => .stop
  | .abort | .alarm | .bus | .fpe | .hangup | .illegalInstruction | .interrupt | .kill
  | .pipe | .quit | .segfault | .terminate | .usr1 | .usr2 | .badSyscall | .trap
  | .virtualTimerAlarm | .exceededCpuLimit | .exceededFileSizeLimit => .terminate

end Muffin.Abi
