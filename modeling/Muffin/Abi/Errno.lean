-- SUMMARY: The kernel ABI's error numbers, as `kernel_abi::Errno` defines them.
import Mathlib

/-!
# Error numbers

`Errno` wraps the C integer that a failing system call returns negated. Only
the numbers that the modelled code produces are listed; their values are the
ones of `kernel_abi::errno`.
-/

namespace Muffin.Abi

/-- An error number, `kernel_abi::Errno(c_int)`. -/
structure Errno where
  code : Int
  deriving DecidableEq, Repr

def E2BIG : Errno := ⟨1⟩
def EBADF : Errno := ⟨8⟩
def EFAULT : Errno := ⟨20⟩
def EINTR : Errno := ⟨26⟩
def EINVAL : Errno := ⟨27⟩
def EIO : Errno := ⟨28⟩
def ENAMETOOLONG : Errno := ⟨36⟩
def ENODEV : Errno := ⟨42⟩
def ENOENT : Errno := ⟨43⟩
def ENOEXEC : Errno := ⟨44⟩
def ENOMEM : Errno := ⟨47⟩
def EOVERFLOW : Errno := ⟨61⟩
def EPERM : Errno := ⟨63⟩
def ERANGE : Errno := ⟨68⟩
def ESRCH : Errno := ⟨72⟩

end Muffin.Abi
