import LinuxDriverFramework.Foundations.Runs
import LinuxDriverFramework.Kernel.Base
import Mathlib.Algebra.Order.Ring.Int

/-! # `nv_pci`: requesting and freeing the interrupt

`nv_pci_request_irq` and `nv_pci_free_irq` on one `nv_pci_dev`.

* `NvPciDev`: the device, with its own address, which `nv_pci_free_irq` uses as device id.
* `IrqAction`: a handler as `devm_request_irq` installs it.
* `World`: the device, the installed handlers and the calls of `pci_free_irq_vectors`. -/

namespace LinuxDriverFramework.NvPci
open Foundations
set_option autoImplicit false

/-- A pointer; `none` is NULL. -/
abbrev Ptr := Option ℕ

structure NvPciDev where
  self : ℕ
  pdev : Ptr
  driverName : String
  irq : ℤ
  numIrqVectors : ℕ
  deriving DecidableEq, Repr

structure IrqAction where
  irq : ℤ
  handler : ℕ
  flags : ℕ
  name : String
  devId : Ptr
  deriving DecidableEq, Repr

/-- What the last call was and what it returned. -/
inductive Done
  | requested (handler data : Ptr) (ret : Ret)
  | freed

structure World where
  dev : NvPciDev
  installed : List IrqAction
  /-- for each `pci_free_irq_vectors` whether no handler was installed, newest first -/
  vectorFrees : List Bool
  last : Option Done

structure RequestArgs where
  handler : Ptr
  name : Option String
  flags : ℕ
  data : Ptr

/-- The outcomes of `pci_alloc_irq_vectors` (one vector on success), `pci_irq_vector` (an interrupt
number or a negative error code) and `devm_request_irq`. -/
structure RequestOutcomes where
  allocVectors : Option Errno
  vector : {v : ℤ // v ≠ 0}
  request : Option Errno

def World.modDev (w : World) (f : NvPciDev → NvPciDev) : World := { w with dev := f w.dev }

/-! ## Kernel functions -/

def World.freeIrqVectors (w : World) : World :=
  { w with vectorFrees := w.installed.isEmpty :: w.vectorFrees }

def World.install (w : World) (a : IrqAction) : World := { w with installed := a :: w.installed }

/-- `devm_free_irq`: only a handler with this device id goes. -/
def World.devmFreeIrq (w : World) (irq : ℤ) (devId : Ptr) : World :=
  { w with installed := w.installed.eraseP fun a => a.irq == irq && a.devId == devId }

/-! ## `nv_pci.c` -/

/-- From `pci_alloc_irq_vectors` on. -/
def requestVector (w : World) (handler : ℕ) (a : RequestArgs) (o : RequestOutcomes) :
    World × Ret :=
  match o.allocVectors with
  | some e => (w, .error e)
  | none =>
    let w := w.modDev fun d => { d with numIrqVectors := 1, irq := o.vector.1 }
    if w.dev.irq < 0 then
      -- `dev->irq` keeps the error code
      (w.freeIrqVectors.modDev fun d => { d with numIrqVectors := 0 }, .error .ENOENT)
    else
      match o.request with
      | some e => (w.freeIrqVectors.modDev fun d => { d with irq := -1, numIrqVectors := 0 }, .error e)
      | none =>
        (w.install ⟨w.dev.irq, handler, a.flags, a.name.getD w.dev.driverName, a.data⟩, .ok ())

def requestIrq (w : World) (a : RequestArgs) (o : RequestOutcomes) : World × Ret :=
  match w.dev.pdev, a.handler with
  | some _, some handler =>
    if 0 < w.dev.irq then (w, .ok ())
    else requestVector w handler a o
  | _, _ => (w, .error .EINVAL)

def freeIrq (w : World) : World :=
  match w.dev.pdev with
  | none => w
  | some _ =>
    let w := if 0 < w.dev.irq then w.devmFreeIrq w.dev.irq (some w.dev.self) else w
    let w := if w.dev.numIrqVectors ≠ 0 then w.freeIrqVectors else w
    w.modDev fun d => { d with irq := -1, numIrqVectors := 0 }

/-! ## Runs -/

inductive Call
  | request (a : RequestArgs) (o : RequestOutcomes)
  | free

def step (w : World) : Call → World
  | .request a o =>
    let r := requestIrq w a o
    { r.1 with last := some (.requested a.handler a.data r.2) }
  | .free => { freeIrq w with last := some .freed }

/-- The device as `nv_pci_probe` sets it up. -/
def World.probed (self pdev : ℕ) (driverName : String) : World where
  dev := ⟨self, some pdev, driverName, -1, 0⟩
  installed := []
  vectorFrees := []
  last := none

end LinuxDriverFramework.NvPci
