import LinuxDriverFramework.NvChar.Io
import Mathlib.Algebra.Ring.Int.Defs
import Mathlib.Order.Basic

/-! # The example devices that store one message

`nv_char_echo`, `nv_char_misc_echo`, `nv_char_plat` and `nv_char_demo` keep the last message that
was written in a buffer of fixed size.

* `MsgPriv cap`: buffer and length, with the bounds that every write keeps.
* `storedRead`, `storedWrite`: the bodies that the first three devices share; `echoRead`,
  `miscRead`, `platRead` and their writes are these at the size of each device.
* `demoRead`, `demoWrite`: with the `data_ready` flag, and a write that resets the position.
* `MessageDevice`: the four devices together. -/

namespace LinuxDriverFramework.NvChar.Io
open Foundations
set_option autoImplicit false

/-- `struct echo_priv`, `struct misc_echo_priv`, `struct plat_priv`. -/
structure MsgPriv (cap : ℕ) where
  buf : List UInt8
  len : ℕ
  size : buf.length = cap
  bound : len ≤ cap

def MsgPriv.zero (cap : ℕ) : MsgPriv cap where
  buf := List.replicate cap 0
  len := 0
  size := List.length_replicate
  bound := Nat.zero_le cap

/-- Bytes arrive at the front of the buffer. -/
def MsgPriv.overwrite {cap : ℕ} (p : MsgPriv cap) (data : List UInt8) (h : data.length ≤ cap) :
    MsgPriv cap :=
  { p with
    buf := overlay data p.buf
    size := (length_overlay (h.trans_eq p.size.symm)).trans p.size }

def MsgPriv.setLen {cap : ℕ} (p : MsgPriv cap) (n : ℕ) (h : n ≤ cap) : MsgPriv cap :=
  { p with len := n, bound := h }

/-- A `loff_t` where it is compared with a `size_t`. -/
def asSize (pos : ℤ) : ℕ := (pos % 2 ^ 64).toNat

/-! ## Echo, misc echo and platform -/

def storedRead {cap : ℕ} (priv : Option (MsgPriv cap)) (buf : Mem) (count : ℕ) (pos : ℤ) :
    IoResult (Option (MsgPriv cap)) :=
  match priv with
  | none => ⟨.error .EINVAL, priv, buf, pos⟩
  | some p =>
    if pos < 0 then ⟨.error .EINVAL, priv, buf, pos⟩
    else if p.len ≤ asSize pos then ⟨.ok 0, priv, buf, pos⟩
    else
      let n := min count (p.len - asSize pos)
      let (buf, left) := copyToUser buf ((p.buf.drop (asSize pos)).take n)
      if left ≠ 0 then ⟨.error .EFAULT, priv, buf, pos⟩ else ⟨.ok n, priv, buf, pos + n⟩

def storedWrite {cap : ℕ} (priv : Option (MsgPriv cap)) (buf : Mem) (count : ℕ) (pos : ℤ) :
    IoResult (Option (MsgPriv cap)) :=
  match priv with
  | none => ⟨.error .EINVAL, priv, buf, pos⟩
  | some p =>
    let n := min count cap
    let moved := copyFromUser buf n
    let p := p.overwrite moved.1 ((copyFromUser_length buf n).trans_le (min_le_right count cap))
    if moved.2 ≠ 0 then ⟨.error .EFAULT, some p, buf, pos⟩
    else ⟨.ok n, some (p.setLen n (min_le_right count cap)), buf, n⟩

def echoBufSize : ℕ := 4096

/-- `PAGE_SIZE`, which is `1 << PAGE_SHIFT`. -/
def pageSize (pageShift : ℕ) : ℕ := 2 ^ pageShift

def echoRead : RwCallback (Option (MsgPriv echoBufSize)) := storedRead
def echoWrite : RwCallback (Option (MsgPriv echoBufSize)) := storedWrite

def miscRead (pageShift : ℕ) : RwCallback (Option (MsgPriv (pageSize pageShift))) := storedRead
def miscWrite (pageShift : ℕ) : RwCallback (Option (MsgPriv (pageSize pageShift))) := storedWrite

def platRead (pageShift : ℕ) : RwCallback (Option (MsgPriv (pageSize pageShift))) := storedRead
def platWrite (pageShift : ℕ) : RwCallback (Option (MsgPriv (pageSize pageShift))) := storedWrite

/-! ## Demo -/

def demoBufSize : ℕ := 256

structure DemoPriv extends MsgPriv demoBufSize where
  dataReady : Bool

/-- No check of the sign of `*ppos`: as a `size_t` a negative position is past every message. -/
def demoRead : RwCallback (Option DemoPriv) := fun priv buf count pos =>
  match priv with
  | none => ⟨.error .EINVAL, priv, buf, pos⟩
  | some p =>
    if !p.dataReady || p.len == 0 then ⟨.ok 0, priv, buf, pos⟩
    else if p.len ≤ asSize pos then ⟨.ok 0, priv, buf, pos⟩
    else
      let n := min count (p.len - asSize pos)
      let (buf, left) := copyToUser buf ((p.buf.drop (asSize pos)).take n)
      if left ≠ 0 then ⟨.error .EFAULT, priv, buf, pos⟩ else ⟨.ok n, priv, buf, pos + n⟩

def demoWrite : RwCallback (Option DemoPriv) := fun priv buf count pos =>
  match priv with
  | none => ⟨.error .EINVAL, priv, buf, pos⟩
  | some p =>
    let n := min count demoBufSize
    let moved := copyFromUser buf n
    let msg := p.toMsgPriv.overwrite moved.1
      ((copyFromUser_length buf n).trans_le (min_le_right count demoBufSize))
    if moved.2 ≠ 0 then ⟨.error .EFAULT, some { p with toMsgPriv := msg }, buf, pos⟩
    else
      let msg := msg.setLen n (min_le_right count demoBufSize)
      ⟨.ok n, some { toMsgPriv := msg, dataReady := true }, buf, 0⟩

/-! ## The four devices -/

inductive MessageDevice
  | echo | miscEcho | plat | demo
  deriving DecidableEq, Repr

def MessageDevice.Priv (pageShift : ℕ) : MessageDevice → Type
  | .echo => MsgPriv echoBufSize
  | .miscEcho | .plat => MsgPriv (pageSize pageShift)
  | .demo => DemoPriv

/-- `echo_ops`, `misc_ops`, `plat_ops` and `demo_ops`: no device has `read_iter` or `write_iter`. -/
def MessageDevice.ops (pageShift : ℕ) : (d : MessageDevice) → DevOps (Option (d.Priv pageShift))
  | .echo => ⟨some echoRead, some echoWrite, none, none⟩
  | .miscEcho => ⟨some (miscRead pageShift), some (miscWrite pageShift), none, none⟩
  | .plat => ⟨some (platRead pageShift), some (platWrite pageShift), none, none⟩
  | .demo => ⟨some demoRead, some demoWrite, none, none⟩

def MessageDevice.nothingToRead (pageShift : ℕ) :
    (d : MessageDevice) → d.Priv pageShift → ℤ → Bool
  | .echo, p, pos | .miscEcho, p, pos | .plat, p, pos => pos < 0 || p.len ≤ asSize pos
  | .demo, p, pos => !p.dataReady || p.len == 0 || p.len ≤ asSize pos

end LinuxDriverFramework.NvChar.Io
