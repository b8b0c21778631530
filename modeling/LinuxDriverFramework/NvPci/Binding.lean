import LinuxDriverFramework.Binding.Driver
import LinuxDriverFramework.NvPci.Irq

/-! # `nv_pci_probe` and `nv_pci_remove`

The driver-data pointer is set before the device is enabled. Neither the exit after a failed
`nv_pci_enable` nor the one after a failed `ops->probe` takes it back.

* `Context`, `PciDev`: the `nv_pci_dev`, and the bus device that refers to it.
* `enable`, `disable`, `probe`, `remove`: the functions of `nv_pci.c`.
* `leaks`: the attempts that take one of the two exits. -/

namespace LinuxDriverFramework.NvPci
open Foundations Binding
set_option autoImplicit false

/-- The bit of `NV_PCI_FLAG_SKIP_MWI`. -/
def flagSkipMwi : ℕ := 0

/-- The bit of `NV_PCI_FLAG_SKIP_SET_MASTER`. -/
def flagSkipSetMaster : ℕ := 1

/-- `struct nv_pci_dev`; `irqs` holds the members that the interrupt functions use. -/
structure Context where
  irqs : World
  driver : BusDriver
  priv : Option ℕ
  enabled : Bool

/-- `struct pci_dev`; `drvdata` is what the driver-data pointer refers to. -/
structure PciDev where
  self : ℕ
  drvdata : Option Context
  busMaster : Bool

/-- The outcomes of `pcim_enable_device` and `pcim_set_mwi`. -/
structure EnableOutcomes where
  enableDevice : Option Errno
  setMwi : Option Errno

/-! ## `nv_pci.c` -/

def enable (pdev : PciDev) (dev : Context) (o : EnableOutcomes) : PciDev × Context × Ret :=
  if dev.irqs.dev.pdev.isNone then (pdev, dev, .error .EINVAL)
  else if dev.enabled then (pdev, dev, .ok ())
  else
    match o.enableDevice with
    | some e => (pdev, dev, .error e)
    | none =>
      match if dev.driver.hasFlag flagSkipMwi then none else o.setMwi with
      | some e => (pdev, dev, .error e)
      | none =>
        let pdev :=
          if dev.driver.hasFlag flagSkipSetMaster then pdev else { pdev with busMaster := true }
        (pdev, { dev with enabled := true }, .ok ())

def disable (pdev : PciDev) (dev : Context) : PciDev × Context :=
  if dev.irqs.dev.pdev.isNone || !dev.enabled then (pdev, dev)
  else ({ pdev with busMaster := false }, { dev with enabled := false })

/-- `self` is the address that `devm_kzalloc` returns. -/
def Context.fresh (self pdev : ℕ) (drv : BusDriver) : Context :=
  ⟨.probed self pdev drv.name, drv, none, false⟩

structure ProbeOutcomes where
  self : ℕ
  enable : EnableOutcomes

/-- `nv_pci_probe` from the new context on. -/
def probeContext (pdev : PciDev) (a : Attempt Context ProbeOutcomes) (drv : BusDriver) :
    PciDev × Ret :=
  let dev := Context.fresh a.outcomes.self pdev.self drv
  let pdev := { pdev with drvdata := some dev }
  match enable pdev dev a.outcomes.enable with
  | (pdev, dev, .error e) => ({ pdev with drvdata := some dev }, .error e)
  | (pdev, dev, .ok ()) =>
    let dev := a.opsProbe dev
    let pdev := { pdev with drvdata := some dev }
    match a.opsResult with
    | .error e =>
      let (pdev, dev) := disable pdev dev
      ({ pdev with drvdata := some dev }, .error e)
    | .ok () => (pdev, .ok ())

def probe (pdev : PciDev) (a : Attempt Context ProbeOutcomes) : PciDev × Ret :=
  a.probe pdev (probeContext pdev a)

def remove (pdev : PciDev) (a : Removal Context) : PciDev :=
  match pdev.drvdata with
  | none => pdev
  | some dev =>
    let dev := { dev with irqs := freeIrq dev.irqs }
    let dev := if removing a.fromDev then a.opsRemove dev else dev
    let (pdev, _) := disable pdev dev
    { pdev with drvdata := none }

/-! ## The driver-data pointer -/

def binding : Binding PciDev (Attempt Context ProbeOutcomes) (Removal Context) Errno where
  probe := probe
  remove := remove
  held pdev := pdev.drvdata.isSome

/-- One of the kernel functions that `nv_pci_enable` calls for the driver fails. -/
def EnableOutcomes.fails (o : EnableOutcomes) (drv : BusDriver) : Bool :=
  o.enableDevice.isSome || !drv.hasFlag flagSkipMwi && o.setMwi.isSome

/-- `nv_pci_enable` or `ops->probe` fails. -/
def failing (_ : PciDev) (a : Attempt Context ProbeOutcomes) (drv : BusDriver) : Bool :=
  a.outcomes.enable.fails drv || !a.opsResult.isOk

def leaks (pdev : PciDev) (a : Attempt Context ProbeOutcomes) : Bool :=
  a.driver.any (failing pdev a)

theorem enable_fresh_isOk (pdev : PciDev) (self : ℕ) (drv : BusDriver) (o : EnableOutcomes) :
    (enable pdev (.fresh self pdev.self drv) o).2.2.isOk = !o.fails drv := by
  unfold enable EnableOutcomes.fails
  cases he : o.enableDevice with
  | some e => rfl
  | none =>
    cases hf : drv.hasFlag flagSkipMwi <;> cases hm : o.setMwi <;>
      simp [Context.fresh, World.probed, hf, Except.isOk, Except.toBool]

theorem held_remove (pdev : PciDev) (a : Removal Context) :
    binding.held (remove pdev a) = false := by
  unfold remove
  split
  · rename_i h
    simp [binding, h]
  · rfl

/-- The pointer stays set on every exit. -/
theorem held_probeContext (pdev : PciDev) (a : Attempt Context ProbeOutcomes) (drv : BusDriver) :
    binding.held (probeContext pdev a drv).1 = true := by
  simp only [binding, probeContext]
  split
  · rfl
  · cases a.opsResult <;> rfl

theorem probeContext_isOk (pdev : PciDev) (a : Attempt Context ProbeOutcomes) (drv : BusDriver) :
    (probeContext pdev a drv).2.isOk = !failing pdev a drv := by
  have hen := enable_fresh_isOk { pdev with
    drvdata := some (Context.fresh a.outcomes.self pdev.self drv) } a.outcomes.self drv
    a.outcomes.enable
  rw [failing, Bool.not_or, ← hen]
  simp only [probeContext]
  split
  · rename_i heq
    rw [heq]
    rfl
  · rename_i heq
    rw [heq]
    cases a.opsResult <;> rfl

theorem leaks_exactly : binding.LeaksExactly leaks := by
  apply leaksExactly_of (fun _ _ => rfl) _ _ held_remove
  · intro pdev a drv hr
    rw [probeContext_isOk, Bool.not_eq_eq_eq_not, Bool.not_false] at hr
    exact (held_probeContext pdev a drv).trans hr.symm
  · intro pdev a drv hr
    rwa [probeContext_isOk, Bool.not_eq_eq_eq_not, Bool.not_true] at hr

end LinuxDriverFramework.NvPci
