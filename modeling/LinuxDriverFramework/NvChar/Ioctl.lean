import LinuxDriverFramework.NvChar.MessageDevices

/-! # Ioctls and polling

`nv_char_ioctl_dispatch`, and `nv_char_unlocked_ioctl` and `nv_char_poll` with their callbacks at
hand; then `demo_ioctl` and `demo_poll` of `nv_char_demo.c`.

* `IoctlEntry`: an entry of the table that a driver hands to the dispatcher.
* `ioctlDispatch`: the entry that answers a command.
* `demoIoctls`: the table of the demo device.
* `demoPoll`: its event mask. -/

namespace LinuxDriverFramework.NvChar.Io
open Foundations
set_option autoImplicit false

variable {σ : Type}

/-! ## The dispatcher -/

/-- Return value, private state, and the memory behind `arg`. -/
structure IoctlResult (σ : Type) where
  ret : Except Errno ℕ
  state : σ
  arg : Mem

abbrev IoctlHandler (σ : Type) := σ → Mem → IoctlResult σ

structure IoctlEntry (σ : Type) where
  cmd : UInt32
  handler : Option (IoctlHandler σ)
  capable : ℤ

/-- The loop over the table; `holds` are the capabilities of the caller. -/
def ioctlLoop (holds : ℤ → Bool) (cmd : UInt32) (s : σ) (arg : Mem) :
    List (IoctlEntry σ) → IoctlResult σ
  | [] => ⟨.error .ENOTTY, s, arg⟩
  | e :: table =>
    if e.cmd ≠ cmd then ioctlLoop holds cmd s arg table
    else if e.capable ≠ 0 ∧ holds e.capable = false then ⟨.error .EPERM, s, arg⟩
    else
      match e.handler with
      | some handler => handler s arg
      | none => ⟨.error .ENOTTY, s, arg⟩

/-- `nv_char_ioctl_dispatch`; the table has as many entries as `nent` says. -/
def ioctlDispatch (holds : ℤ → Bool) (cmd : UInt32) (s : σ) (arg : Mem)
    (table : Option (List (IoctlEntry σ))) : IoctlResult σ :=
  match table with
  | none => ⟨.error .ENOTTY, s, arg⟩
  | some table => ioctlLoop holds cmd s arg table

/-! ## The wrappers -/

def unlockedIoctl (removing : Bool) (cb : Option (UInt32 → IoctlHandler σ)) (cmd : UInt32) (s : σ)
    (arg : Mem) : IoctlResult σ :=
  if removing then ⟨.error .ENODEV, s, arg⟩
  else
    match cb with
    | some cb => cb cmd s arg
    | none => ⟨.error .ENOTTY, s, arg⟩

def epollIn : UInt32 := 0x001
def epollOut : UInt32 := 0x004
def epollErr : UInt32 := 0x008
def epollHup : UInt32 := 0x010
def epollRdNorm : UInt32 := 0x040
def epollWrNorm : UInt32 := 0x100

def poll (removing : Bool) (cb : Option (σ → UInt32)) (s : σ) : UInt32 :=
  if removing then epollErr ||| epollHup
  else
    match cb with
    | some cb => cb s
    | none => 0

/-! ## Demo -/

def ioc (dir type nr size : UInt32) : UInt32 := dir <<< 30 ||| size <<< 16 ||| type <<< 8 ||| nr

/-- `NV_DEMO_IOC_GET_LEN`, which is `_IOR('v', 0x01, int)`. -/
def nvDemoIocGetLen : UInt32 := ioc 2 0x76 1 4

/-- `NV_DEMO_IOC_CLEAR`, which is `_IO('v', 0x02)`. -/
def nvDemoIocClear : UInt32 := ioc 0 0x76 2 0

/-- The four bytes of an `int`, lowest first. -/
def intBytes (n : ℕ) : List UInt8 := (List.range 4).map fun i => UInt8.ofNat (n >>> (8 * i))

def demoIoctlGetLen : IoctlHandler (Option DemoPriv) := fun priv arg =>
  match priv with
  | none => ⟨.error .EINVAL, priv, arg⟩
  | some p =>
    let (arg, left) := copyToUser arg (intBytes p.len)
    if left ≠ 0 then ⟨.error .EFAULT, priv, arg⟩ else ⟨.ok 0, priv, arg⟩

def demoIoctlClear : IoctlHandler (Option DemoPriv) := fun priv arg =>
  match priv with
  | none => ⟨.error .EINVAL, priv, arg⟩
  | some p =>
    ⟨.ok 0, some ⟨p.toMsgPriv.setLen 0 (Nat.zero_le demoBufSize), false⟩, arg⟩

def demoIoctls : List (IoctlEntry (Option DemoPriv)) :=
  [⟨nvDemoIocGetLen, some demoIoctlGetLen, 0⟩, ⟨nvDemoIocClear, some demoIoctlClear, 0⟩]

def demoIoctl (holds : ℤ → Bool) (cmd : UInt32) : IoctlHandler (Option DemoPriv) := fun priv arg =>
  ioctlDispatch holds cmd priv arg (some demoIoctls)

def demoPoll (priv : Option DemoPriv) : UInt32 :=
  match priv with
  | none => epollErr
  | some p =>
    let mask := if p.dataReady && p.len != 0 then epollIn ||| epollRdNorm else 0
    mask ||| (epollOut ||| epollWrNorm)

theorem demoPoll_epollIn (p : DemoPriv) :
    (demoPoll (some p) &&& epollIn != 0) = (p.dataReady && p.len != 0) := by
  simp only [demoPoll]
  cases p.dataReady && p.len != 0 <;> decide

theorem demoIoctl_state (holds : ℤ → Bool) (cmd : UInt32) (p : DemoPriv) (arg : Mem) :
    (demoIoctl holds cmd (some p) arg).state = some p ∨
      (demoIoctl holds cmd (some p) arg).state =
        some ⟨p.toMsgPriv.setLen 0 (Nat.zero_le demoBufSize), false⟩ := by
  simp only [demoIoctl, ioctlDispatch, demoIoctls, ioctlLoop]
  by_cases hget : nvDemoIocGetLen = cmd
  · simp only [hget, ne_eq, not_true_eq_false, false_and, if_false, demoIoctlGetLen]
    split <;> exact .inl rfl
  · by_cases hclear : nvDemoIocClear = cmd
    · simp only [hget, hclear, ne_eq, not_true_eq_false, not_false_eq_true, false_and, if_false,
        if_true]
      exact .inr rfl
    · simp only [hget, hclear, ne_eq, not_false_eq_true, if_true]
      exact .inl trivial

end LinuxDriverFramework.NvChar.Io
