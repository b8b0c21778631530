import LinuxDriverFramework.NvAdc.Registration
import LinuxDriverFramework.NvBlock.Custody
import LinuxDriverFramework.NvCan.Netdev
import LinuxDriverFramework.NvNet.Custody
import LinuxDriverFramework.NvPwm.Registration

/-! # The kernel objects behind the wrappers

`nv_net`, `nv_block`, `nv_can`, `nv_pwm` and `nv_adc` each wrap one kernel object for a device. The
custody of these objects is sound throughout every run of `nv_net`, `nv_can` and `nv_adc`. In
`nv_block` and `nv_pwm` it is as long as the allocation does not return an error pointer:
`nv_block` finds the error and leaves the pointer where it is, `nv_pwm` does not look for it. -/

namespace LinuxDriverFramework.WrappedObjects
open Foundations
set_option autoImplicit false

/-- Pointer, mark and object agree in all five wrappers, and every object is given back once,
exactly when no allocation of `nv_block` or `nv_pwm` that is got to returns an error pointer. -/
theorem wrapped_objects_kept_iff {σ : Type}
    (netCfg : ℕ → NvNet.DriverConfig) (netCalls : List NvNet.Call)
    (blockCfg : ℕ → NvBlock.DriverConfig) (blockCalls : List NvBlock.Call)
    (sizes : NvCan.Netdev.Sizes) (canCalls : List NvCan.Netdev.Call)
    (pwmOps : ℕ → Option (NvPwm.ChipOps σ)) (pwmCalls : List NvPwm.Registration.Call)
    (adcCfg : ℕ → NvAdc.DevConfig) (adcCalls : List NvAdc.Call) :
    (Throughout NvNet.step (fun w => (NvNet.custody w).Sound) (NvNet.init netCfg) netCalls ∧
      Throughout NvBlock.step (fun w => (NvBlock.custody w).Sound) (NvBlock.init blockCfg)
        blockCalls ∧
      Throughout (NvCan.Netdev.step sizes) (fun w => (NvCan.Netdev.custody w).Sound)
        NvCan.Netdev.init canCalls ∧
      Throughout NvPwm.Registration.step (fun w => (NvPwm.Registration.custody w).Sound)
        (NvPwm.Registration.init pwmOps) pwmCalls ∧
      Throughout NvAdc.step (fun w => (NvAdc.custody w).Sound) (NvAdc.init adcCfg) adcCalls) ↔
    Along NvBlock.step (fun w c => NvBlock.allocFails w c = false) (NvBlock.init blockCfg)
      blockCalls ∧
    Along NvPwm.Registration.step (fun w c => NvPwm.Registration.allocFails w c = false)
      (NvPwm.Registration.init pwmOps) pwmCalls := by
  have hblock := NvBlock.sound_throughout_iff blockCfg blockCalls
  have hpwm := NvPwm.Registration.sound_throughout_iff pwmOps pwmCalls
  constructor
  · rintro ⟨-, hb, -, hp, -⟩
    exact ⟨hblock.mp hb, hpwm.mp hp⟩
  · rintro ⟨hb, hp⟩
    exact ⟨NvNet.sound_throughout netCfg netCalls, hblock.mpr hb,
      NvCan.Netdev.sound_throughout sizes canCalls, hpwm.mpr hp,
      NvAdc.sound_throughout adcCfg adcCalls⟩

/-! ## Two allocations that fail -/

def blockDriver : ℕ → NvBlock.DriverConfig := fun _ =>
  { name := some "nv_block", owner := some 0, count := 1 }

def blockFailure : List NvBlock.Call :=
  [.driverRegister (some 0) true,
    .deviceRegister
      { drv := some 0
        dev := some 0
        index := 0
        name := some "nv0"
        ops := some fun _ => true
        priv := none
        capacitySectors := 8
        logicalBlockSize := 512 }
      { blkAllocDisk := some .ENOMEM, addDisk := none }]

def pwmFailure : List NvPwm.Registration.Call :=
  [.register { parent := some 0, nchip := some 0, npwm := 4 }
    { alloc := .err .ENOMEM, add := none }]

/-- The device of `nv_block` is not registered and has a pointer that is not NULL; `nv_pwm` writes
through the error pointer. -/
theorem error_pointer_kept :
    (∃ w, run NvBlock.step (NvBlock.init blockDriver) blockFailure = some w ∧
      (w.dev 0).registered = false ∧ (w.dev 0).disk ≠ .null ∧ ¬ (NvBlock.custody w).Sound) ∧
    (∃ w, run NvPwm.Registration.step (NvPwm.Registration.init fun _ => some NvPwm.demoOps)
        pwmFailure = some w ∧
      .setUp (.err .ENOMEM) false ∈ w.calls ∧ ¬ (NvPwm.Registration.custody w).Sound) := by
  constructor
  · have hend : (run NvBlock.step (NvBlock.init blockDriver) blockFailure).map (fun w =>
        ((w.dev 0).registered, (w.dev 0).disk)) = some (false, .err .ENOMEM) := by decide
    obtain ⟨w, hrun, hw⟩ := Option.map_eq_some_iff.mp hend
    obtain ⟨hreg, hdisk⟩ := Prod.mk.inj hw
    refine ⟨w, hrun, hreg, by simp [hdisk], Custody.not_sound_of_stray (x := 0) ?_⟩
    exact congrArg NvBlock.DiskPtr.pointer hdisk
  · refine ⟨_, rfl, by decide, Reading.not_sound_of_misuse (k := .setUp (.err .ENOMEM) false) ?_ rfl⟩
    decide

end LinuxDriverFramework.WrappedObjects
