import LinuxDriverFramework.Kernel.Base

/-! # The file operation wrappers of a character device

Every wrapper of `nv_char_fops` first looks at `dev->removing` and then picks what to do from the
callbacks in `dev->ops`. `Outcome` is that choice: an error code, a fixed value, a kernel default,
or the call of a callback. What the callback does is not part of the choice.

* `Callback`, `Ops`: the members of `struct nv_char_ops`, and which of them a device provides.
* `read` .. `fsync`: one wrapper each, under its source name without the `nv_char_` prefix.
* `FileOp.outcome`: the wrapper the VFS reaches through `nv_char_fops`.
* `FileOp.outcome_removing`: no wrapper calls anything once `removing` is set.
-/

namespace LinuxDriverFramework.NvChar
set_option autoImplicit false

/-- The members of `struct nv_char_ops`. -/
inductive Callback
  | opsOpen | opsRelease
  | read | write | readIter | writeIter | unlockedIoctl | compatIoctl | poll | llseek | mmap | fsync
  deriving DecidableEq, Repr

/-- A `struct nv_char_ops`, as the set of its non-NULL members. -/
abbrev Ops := Callback → Bool

/-- `dev->ops && dev->ops->cb`. -/
def provides (ops : Option Ops) (cb : Callback) : Bool :=
  match ops with
  | some o => o cb
  | none => false

/-- What a wrapper does after its checks. -/
inductive Outcome
  | fail (e : Errno)
  | done                       -- return 0
  | hangup                     -- return EPOLLERR | EPOLLHUP
  | defaultLlseek              -- return default_llseek(filp, offset, whence)
  | call (cb : Callback)
  deriving DecidableEq, Repr

/-- The shape all wrappers share: nothing but `blocked` once the device is being removed. -/
def gated (removing : Bool) (blocked body : Outcome) : Outcome :=
  if removing then blocked else body

def callOr (ops : Option Ops) (cb : Callback) (otherwise : Outcome) : Outcome :=
  if provides ops cb then .call cb else otherwise

/-! ## The wrappers -/

def read (removing : Bool) (ops : Option Ops) : Outcome :=
  gated removing (.fail .ENODEV) (callOr ops .read (.fail .ENOSYS))

def write (removing : Bool) (ops : Option Ops) : Outcome :=
  gated removing (.fail .ENODEV) (callOr ops .write (.fail .ENOSYS))

/-- `count` is `iov_iter_count(iter)` and `kbuf` tells whether `kvmalloc` succeeds. Without a
`read_iter` member the call goes to `read` with the bounce buffer. -/
def readIter (count : ℕ) (kbuf : Bool) (removing : Bool) (ops : Option Ops) : Outcome :=
  gated removing (.fail .ENODEV) <|
    callOr ops .readIter <|
      if !provides ops .read then .fail .ENOSYS
      else if count = 0 then .done
      else if !kbuf then .fail .ENOMEM
      else .call .read

/-- As `readIter`; `copied` is what `copy_from_iter` moved into the bounce buffer. -/
def writeIter (count : ℕ) (kbuf : Bool) (copied : ℕ) (removing : Bool) (ops : Option Ops) : Outcome :=
  gated removing (.fail .ENODEV) <|
    callOr ops .writeIter <|
      if !provides ops .write then .fail .ENOSYS
      else if count = 0 then .done
      else if !kbuf then .fail .ENOMEM
      else if copied = 0 then .fail .EFAULT
      else .call .write

def unlockedIoctl (removing : Bool) (ops : Option Ops) : Outcome :=
  gated removing (.fail .ENODEV) (callOr ops .unlockedIoctl (.fail .ENOTTY))

/-- `configCompat` is `CONFIG_COMPAT`, under which the native handler is the fallback. -/
def compatIoctl (configCompat : Bool) (removing : Bool) (ops : Option Ops) : Outcome :=
  gated removing (.fail .ENODEV) <|
    callOr ops .compatIoctl <|
      if configCompat then callOr ops .unlockedIoctl (.fail .ENOTTY) else .fail .ENOTTY

def poll (removing : Bool) (ops : Option Ops) : Outcome :=
  gated removing .hangup (callOr ops .poll .done)

def llseek (removing : Bool) (ops : Option Ops) : Outcome :=
  gated removing (.fail .ENODEV) (callOr ops .llseek .defaultLlseek)

def mmap (removing : Bool) (ops : Option Ops) : Outcome :=
  gated removing (.fail .ENODEV) (callOr ops .mmap (.fail .ENODEV))

def fsync (removing : Bool) (ops : Option Ops) : Outcome :=
  gated removing (.fail .ENODEV) (callOr ops .fsync .done)

/-! ## The operations the VFS may invoke on a descriptor -/

inductive FileOp
  | read | write
  | readIter (count : ℕ) (kbuf : Bool)
  | writeIter (count : ℕ) (kbuf : Bool) (copied : ℕ)
  | unlockedIoctl
  | compatIoctl (configCompat : Bool)
  | poll | llseek | mmap | fsync
  deriving DecidableEq, Repr

/-- `NV_CHAR_FOPS_COMMON`, less `.release`. -/
def FileOp.outcome : FileOp → Bool → Option Ops → Outcome
  | .read => NvChar.read
  | .write => NvChar.write
  | .readIter count kbuf => NvChar.readIter count kbuf
  | .writeIter count kbuf copied => NvChar.writeIter count kbuf copied
  | .unlockedIoctl => NvChar.unlockedIoctl
  | .compatIoctl configCompat => NvChar.compatIoctl configCompat
  | .poll => NvChar.poll
  | .llseek => NvChar.llseek
  | .mmap => NvChar.mmap
  | .fsync => NvChar.fsync

@[simp] theorem gated_true (blocked body : Outcome) : gated true blocked body = blocked := rfl

/-- Every wrapper has its gate: once `removing` is seen set, no callback is called. -/
theorem FileOp.outcome_removing (op : FileOp) (ops : Option Ops) (cb : Callback) :
    op.outcome true ops ≠ .call cb := by
  cases op <;>
    simp [FileOp.outcome, NvChar.read, NvChar.write, NvChar.readIter, NvChar.writeIter,
      NvChar.unlockedIoctl, NvChar.compatIoctl, NvChar.poll, NvChar.llseek, NvChar.mmap,
      NvChar.fsync]

theorem FileOp.provides_of_call {op : FileOp} {removing : Bool} {ops : Option Ops} {cb : Callback}
    (h : op.outcome removing ops = .call cb) : provides ops cb = true := by
  have hr : removing = false := by
    cases removing with
    | false => rfl
    | true => exact absurd h (op.outcome_removing ops cb)
  subst hr
  cases op <;>
    simp only [FileOp.outcome, NvChar.read, NvChar.write, NvChar.readIter, NvChar.writeIter,
      NvChar.unlockedIoctl, NvChar.compatIoctl, NvChar.poll, NvChar.llseek, NvChar.mmap,
      NvChar.fsync, gated] at h <;>
    grind [callOr]

end LinuxDriverFramework.NvChar
