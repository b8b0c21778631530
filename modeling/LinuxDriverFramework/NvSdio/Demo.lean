import LinuxDriverFramework.Foundations.Programs
import LinuxDriverFramework.Kernel.Text

/-! # `nv_sdio` and its demo driver

The wrappers of `nv_sdio.c` and the entry points of `nv_sdio_demo.c`, as programs whose calls go to
the kernel, to the card or to the memory of the driver.

* `BusOp`: the operations on the SDIO bus.
* `Data`: the driver data of one SDIO function.
* `Call`, `Code`: what the programs call on.
* `probe`, `remove`: the callbacks of the bus; `regShow`, `regStore`: those of the sysfs file. -/

namespace LinuxDriverFramework.NvSdio
open Foundations
set_option autoImplicit false

def demoReg : ℕ := 0x00

def demoBlksz : ℕ := 512

inductive BusOp
  | enableFunc
  | disableFunc
  | setBlockSize (blksz : ℕ)
  | readb (addr : ℕ)
  | writeb (addr : ℕ) (val : UInt8)
  deriving DecidableEq, Repr

/-- `sdio_get_drvdata`, the `nv_sdio_dev` and the `demo_priv`; a pointer is true where it is not
NULL. -/
structure Data where
  drvdata : Bool
  func : Bool
  blockSize : ℕ
  priv : Bool
  reg : UInt8
  deriving DecidableEq, Repr

inductive Call
  | claimHost
  | releaseHost
  | bus (op : BusOp)
  | kzalloc
  | addGroup
  | load
  | update (f : Data → Data)

abbrev Call.Answer : Call → Type
  | .claimHost => Unit
  | .releaseHost => Unit
  | .bus _ => Except Errno UInt8
  | .kzalloc => Bool
  | .addGroup => Ret
  | .load => Data
  | .update _ => Unit

abbrev Code (α : Type) : Type := Program Call Call.Answer α

def call (c : Call) : Code c.Answer := Program.request c

/-! ## `nv_sdio.c` -/

/-- `nv_sdio_dev_from_func` of the function that is not NULL. -/
def devFromFunc : Code Bool := do
  let d ← call .load
  return d.drvdata

/-- The check `!dev || !dev->func`. -/
def withFunc {α : Type} (dev : Bool) (otherwise : α) (body : Code α) : Code α :=
  if dev then do
    let d ← call .load
    if d.func then body else return otherwise
  else return otherwise

def claimHost (dev : Bool) : Code Unit := withFunc dev () (call .claimHost)

def releaseHost (dev : Bool) : Code Unit := withFunc dev () (call .releaseHost)

/-- A bus operation whose value is not used. -/
def busOp (op : BusOp) : Code Ret := do
  let r ← call (.bus op)
  return r.map fun _ => ()

def enableFunc (dev : Bool) : Code Ret := withFunc dev (.error .EINVAL) (busOp .enableFunc)

def disableFunc (dev : Bool) : Code Ret := withFunc dev (.error .EINVAL) (busOp .disableFunc)

def setBlockSize (dev : Bool) (blksz : ℕ) : Code Ret :=
  withFunc dev (.error .EINVAL)
    (if blksz = 0 then return .error .EINVAL
    else do
      match ← busOp (.setBlockSize blksz) with
      | .error e => return .error e
      | .ok () => do
        call (.update fun d => { d with blockSize := blksz })
        return .ok ())

def readb (dev : Bool) (addr : ℕ) : Code (Except Errno UInt8) :=
  withFunc dev (.error .EINVAL) (call (.bus (.readb addr)))

def writeb (dev : Bool) (addr : ℕ) (val : UInt8) : Code Ret :=
  withFunc dev (.error .EINVAL) (busOp (.writeb addr val))

/-- `struct nv_sdio_ops`. -/
structure Ops where
  probe : Option (Bool → Code Ret)
  remove : Option (Bool → Code Unit)

/-- `nv_sdio_probe` for a function with this block size; `ops` are those of its driver. -/
def probe (ops : Option Ops) (curBlksize : ℕ) : Code Ret :=
  match ops.bind Ops.probe with
  | none => return .error .ENODEV
  | some op => do
    if !(← call .kzalloc) then return .error .ENOMEM
    else do
      call (.update fun d => { d with func := true, priv := false, blockSize := curBlksize })
      call (.update fun d => { d with drvdata := true })
      match ← op true with
      | .error e => do
        call (.update fun d => { d with drvdata := false })
        return .error e
      | .ok () => return .ok ()

def remove (ops : Option Ops) : Code Unit := do
  let dev ← devFromFunc
  if !dev then return ()
  else do
    match ops.bind Ops.remove with
    | some op => op dev
    | none => pure ()
    call (.update fun d => { d with drvdata := false })

/-! ## `nv_sdio_demo.c` -/

/-- `sdev ? sdev->priv : NULL`. -/
def demoPriv (sdev : Bool) : Code Bool :=
  if sdev then do
    let d ← call .load
    return d.priv
  else return false

def regShow : Code (Except Errno String) := do
  let sdev ← devFromFunc
  let priv ← demoPriv sdev
  if !priv then return .error .ENODEV
  else do
    match ← readb sdev demoReg with
    | .error e => return .error e
    | .ok val => do
      call (.update fun d => { d with reg := val })
      let d ← call .load
      return .ok (formatReg d.reg)

/-- `parsed` is what `kstrtouint` makes of the text, `count` its length. -/
def regStore (parsed : Except Errno ℕ) (count : ℕ) : Code (Except Errno ℕ) := do
  let sdev ← devFromFunc
  let priv ← demoPriv sdev
  if !priv then return .error .ENODEV
  else
    match parsed with
    | .error e => return .error e
    | .ok val =>
      if 0xff < val then return .error .EINVAL
      else do
        match ← writeb sdev demoReg (UInt8.ofNat val) with
        | .error e => return .error e
        | .ok () => do
          call (.update fun d => { d with reg := UInt8.ofNat val })
          return .ok count

/-- The error exits of `demo_probe` after `nv_sdio_enable_func`. -/
def demoProbeFails (dev : Bool) (e : Errno) : Code Ret := do
  let _ ← disableFunc dev
  return .error e

def demoProbe (dev : Bool) : Code Ret := do
  match ← enableFunc dev with
  | .error e => return .error e
  | .ok () => do
    match ← setBlockSize dev demoBlksz with
    | .error e => demoProbeFails dev e
    | .ok () => do
      if !(← call .kzalloc) then demoProbeFails dev .ENOMEM
      else do
        call (.update fun d => { d with priv := true, reg := 0 })
        match ← call .addGroup with
        | .error e => demoProbeFails dev e
        | .ok () => do
          -- a failed write is only logged
          let _ ← writeb dev demoReg 0
          return .ok ()

def demoRemove (dev : Bool) : Code Unit := do
  let _ ← disableFunc dev
  call (.update fun d => { d with priv := false })

def demoOps : Ops := ⟨some demoProbe, some demoRemove⟩

end LinuxDriverFramework.NvSdio
