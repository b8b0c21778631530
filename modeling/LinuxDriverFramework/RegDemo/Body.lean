import LinuxDriverFramework.Foundations.Programs
import LinuxDriverFramework.Kernel.Text

/-! # The register attribute of the demo drivers

`nv_i2c_demo` and `nv_spi_demo` keep one byte register of their chip in a private structure and
show it in sysfs. Their functions differ in the message that goes over the bus; here they are
programs with that message as a parameter.

* `BusOp`: the messages of the two buses, and what the chip takes from them.
* `Call`, `Code`: what the programs call on; each call is one step among other calls.
* `regShowBody`, `regStoreBody`, `demoProbeBody`. -/

namespace LinuxDriverFramework.RegDemo
open Foundations
set_option autoImplicit false

inductive BusOp
  | smbusWriteByteData (command value : UInt8)
  | spiWrite (tx : List UInt8)
  deriving DecidableEq, Repr

/-- What a message stores in register 0x00 of the chip. -/
def BusOp.value : BusOp → Option UInt8
  | .smbusWriteByteData command value => if command = 0 then some value else none
  | .spiWrite [command, value] => if command = 0 then some value else none
  | .spiWrite _ => none

/-- `priv->reg`, and register 0x00 of the chip. -/
structure Data where
  reg : UInt8
  chip : UInt8
  deriving DecidableEq, Repr

inductive Call
  | kzalloc
  | addGroup
  | setReg (val : UInt8)
  | readReg
  | bus (op : BusOp)
  deriving DecidableEq, Repr

abbrev Call.Answer : Call → Type
  | .kzalloc => Bool
  | .addGroup => Ret
  | .setReg _ => Unit
  | .readReg => UInt8
  | .bus _ => Ret

abbrev Code (α : Type) : Type := Program Call Call.Answer α

def call (c : Call) : Code c.Answer := Program.request c

/-- `struct nv_i2c_dev` or `struct nv_spi_dev`: whether `client` or `spi`, and whether `priv`, is not
NULL. -/
structure BusDev where
  bus : Bool
  priv : Bool
  deriving DecidableEq, Repr

/-- Sends the value of the register to the chip. -/
abbrev Send := Option BusDev → UInt8 → Code Ret

/-- `idev ? idev->priv : NULL` is not NULL. -/
def hasPriv (dev : Option BusDev) : Bool := dev.any BusDev.priv

def regShowBody (dev : Option BusDev) : Code (Except Errno String) :=
  if !hasPriv dev then return .error .ENODEV
  else do
    let reg ← call .readReg
    return .ok (formatReg reg)

/-- The end of `reg_store`: the result of the bus write decides. -/
def storeResult (count : ℕ) : Ret → Code (Except Errno ℕ)
  | .error e => return .error e
  | .ok () => return .ok count

/-- `reg_store` once the register is set: it is read back for the message. -/
def storeSend (send : Send) (dev : Option BusDev) (count : ℕ) : Code (Except Errno ℕ) := do
  let reg ← call .readReg
  let ret ← send dev reg
  storeResult count ret

def regStoreBody (send : Send) (dev : Option BusDev) (buf : List UInt8) (count : ℕ) :
    Code (Except Errno ℕ) :=
  if !hasPriv dev then return .error .ENODEV
  else
    match kstrtouint buf with
    | .error e => return .error e
    | .ok val =>
      if 0xff < val then return .error .EINVAL
      else do
        call (.setReg (UInt8.ofNat val))
        storeSend send dev count

/-- Returns the device with `dev->priv`; a failed first write is only logged. -/
def demoProbeBody (send : Send) (dev : BusDev) : Code (BusDev × Ret) := do
  if !(← call .kzalloc) then return (dev, .error .ENOMEM)
  else do
    let dev := { dev with priv := true }
    match ← call .addGroup with
    | .error e => return (dev, .error e)
    | .ok () => do
      let _ ← send (some dev) 0
      return (dev, .ok ())

/-- How the calls go when nothing but the bus may fail, and no other call is under way. -/
def perform (fails : Option Errno) (d : Data) : (c : Call) → Data × c.Answer
  | .kzalloc => ({ d with reg := 0 }, true)
  | .addGroup => (d, .ok ())
  | .setReg val => ({ d with reg := val }, ())
  | .readReg => (d, d.reg)
  | .bus op =>
    match fails with
    | some e => (d, .error e)
    | none => ({ d with chip := op.value.getD d.chip }, .ok ())

end LinuxDriverFramework.RegDemo
