import Mathlib.Algebra.Ring.Nat

/-! # Error codes and device numbers

`Errno` names the error codes that the framework returns itself; `kernel n` is any code a kernel
function may hand back. A device number `dev_t` is 32 bits wide with 20 minor bits. A C string is a
`String`, of which the code sees the bytes. -/

namespace LinuxDriverFramework
set_option autoImplicit false

inductive Errno
  | EPERM | EFAULT | EBUSY | EEXIST | ENODEV | EINVAL | ENOTTY | ENOSYS | ENOMEM | ENOENT
  | kernel (code : ℕ)
  deriving DecidableEq, Repr

/-- The result of a function that returns 0 or a negative error code. -/
abbrev Ret := Except Errno Unit

def minorBits : ℕ := 20

/-- `MKDEV(ma, mi)`, kept in the 32 bits of `dev_t`. -/
def mkdev (ma mi : ℕ) : ℕ := ((ma <<< minorBits) ||| mi) % 2 ^ 32

def major (dev : ℕ) : ℕ := dev >>> minorBits

def minor (dev : ℕ) : ℕ := dev &&& (2 ^ minorBits - 1)

/-- What `strscpy` puts into an array of `size` bytes, in front of the terminating NUL. -/
def strscpy (src : String) (size : ℕ) : List UInt8 := src.toUTF8.data.toList.take (size - 1)

end LinuxDriverFramework
