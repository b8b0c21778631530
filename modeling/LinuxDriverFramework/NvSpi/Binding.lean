import LinuxDriverFramework.Binding.Driver
import Mathlib.Data.UInt

/-! # `nv_spi_probe` and `nv_spi_remove`

The exit after a failed `ops->probe` takes the driver-data pointer back; the one after a failed
`nv_spi_setup` does not.

* `NvSpiDev`, `SpiDevice`: the context, and the bus device that refers to it.
* `setup`, `probe`, `remove`: the functions of `nv_spi.c`.
* `leaks`: the attempts that take the exit without it. -/

namespace LinuxDriverFramework.NvSpi
open Foundations Binding
set_option autoImplicit false

/-- The bit of `NV_SPI_FLAG_SKIP_SPI_SETUP`. -/
def flagSkipSpiSetup : ℕ := 0

/-- `struct nv_spi_dev`; `spi` is the address of the device. The mode is an octet here. -/
structure NvSpiDev where
  spi : Option ℕ
  driver : BusDriver
  priv : Option ℕ
  busNum : UInt32
  chipSelect : UInt32
  maxSpeedHz : UInt32
  mode : UInt8
  bitsPerWord : UInt8

structure SpiSettings where
  maxSpeedHz : UInt32
  mode : UInt32
  bitsPerWord : UInt8

/-- `struct spi_device`; `drvdata` is what the driver-data pointer refers to. -/
structure SpiDevice where
  self : ℕ
  busNum : UInt32
  chipSelect : UInt32
  settings : SpiSettings
  drvdata : Option NvSpiDev

/-- The context that `nv_spi_probe` fills in. -/
def SpiDevice.context (spi : SpiDevice) (drv : BusDriver) : NvSpiDev where
  spi := some spi.self
  driver := drv
  priv := none
  busNum := spi.busNum
  chipSelect := spi.chipSelect
  maxSpeedHz := spi.settings.maxSpeedHz
  mode := spi.settings.mode.toUInt8
  bitsPerWord := spi.settings.bitsPerWord

/-- What `spi_setup` returns, and the settings it leaves the device with. -/
structure SetupOutcome where
  ret : Ret
  settings : SpiSettings

def setup (spi : SpiDevice) (dev : NvSpiDev) (o : SetupOutcome) : SpiDevice × Ret :=
  match dev.spi with
  | none => (spi, .error .EINVAL)
  | some _ => ({ spi with settings := o.settings }, o.ret)

/-- `nv_spi_probe` from the new context on. -/
def probeContext (spi : SpiDevice) (a : Attempt NvSpiDev SetupOutcome) (drv : BusDriver) :
    SpiDevice × Ret :=
  let dev := spi.context drv
  let spi := { spi with drvdata := some dev }
  match if drv.hasFlag flagSkipSpiSetup then (spi, .ok ()) else setup spi dev a.outcomes with
  | (spi, .error e) => (spi, .error e)
  | (spi, .ok ()) =>
    let spi := { spi with drvdata := some (a.opsProbe dev) }
    match a.opsResult with
    | .error e => ({ spi with drvdata := none }, .error e)
    | .ok () => (spi, .ok ())

def probe (spi : SpiDevice) (a : Attempt NvSpiDev SetupOutcome) : SpiDevice × Ret :=
  a.probe spi (probeContext spi a)

/-- `ops->remove` has its last look at the context before the pointer is cleared. -/
def remove (spi : SpiDevice) (a : Removal NvSpiDev) : SpiDevice :=
  match spi.drvdata with
  | none => spi
  | some dev =>
    let spi := if removing a.fromDev then { spi with drvdata := some (a.opsRemove dev) } else spi
    { spi with drvdata := none }

/-! ## The driver-data pointer -/

def binding : Binding SpiDevice (Attempt NvSpiDev SetupOutcome) (Removal NvSpiDev) Errno where
  probe := probe
  remove := remove
  held spi := spi.drvdata.isSome

/-- The driver has the device set up, which fails. -/
def setupExit (_ : SpiDevice) (a : Attempt NvSpiDev SetupOutcome) (drv : BusDriver) : Bool :=
  !drv.hasFlag flagSkipSpiSetup && !a.outcomes.ret.isOk

def leaks (spi : SpiDevice) (a : Attempt NvSpiDev SetupOutcome) : Bool :=
  a.driver.any (setupExit spi a)

theorem held_remove (spi : SpiDevice) (a : Removal NvSpiDev) :
    binding.held (remove spi a) = false := by
  unfold remove
  split
  · rename_i h
    simp [binding, h]
  · rfl

section Context

variable {spi : SpiDevice} {a : Attempt NvSpiDev SetupOutcome} {drv : BusDriver}

/-- The exit without a setup leaves the pointer. -/
theorem probe_setupExit (hs : setupExit spi a drv = true) :
    binding.held (probeContext spi a drv).1 = true ∧ (probeContext spi a drv).2.isOk = false := by
  obtain ⟨hflag, hret⟩ := Bool.and_eq_true_iff.mp hs
  rw [Bool.not_eq_true'] at hflag hret
  simp only [binding, probeContext, hflag, setup, SpiDevice.context, Bool.false_eq_true, if_false]
  cases hr : a.outcomes.ret with
  | error e => exact ⟨rfl, rfl⟩
  | ok _ =>
    rw [hr] at hret
    cases hret

/-- Past the setup the pointer stays set just when the driver accepts the device. -/
theorem probe_past_setup (hs : setupExit spi a drv = false) :
    binding.held (probeContext spi a drv).1 = (probeContext spi a drv).2.isOk := by
  simp only [binding, probeContext, setup, SpiDevice.context]
  cases hflag : drv.hasFlag flagSkipSpiSetup with
  | true => cases ho : a.opsResult <;> simp [Except.isOk, Except.toBool]
  | false =>
    cases hr : a.outcomes.ret with
    | error e =>
      rw [setupExit, hflag, hr] at hs
      cases hs
    | ok _ => cases ho : a.opsResult <;> simp [Except.isOk, Except.toBool]

end Context

theorem leaks_exactly : binding.LeaksExactly leaks := by
  apply leaksExactly_of (fun _ _ => rfl) _ _ held_remove
  · intro spi a drv hr
    cases hs : setupExit spi a drv with
    | true => exact (probe_setupExit hs).1
    | false => exact (probe_past_setup hs).trans hr
  · intro spi a drv hr
    cases hs : setupExit spi a drv with
    | true => exact absurd ((probe_setupExit hs).2.symm.trans hr) Bool.false_ne_true
    | false => rfl

end LinuxDriverFramework.NvSpi
