import LinuxDriverFramework.NvBlock.SlotStores
import LinuxDriverFramework.NvNet.SlotStores

/-! # Registering a device with a driver that has no table

Neither wrapper looks at `drv->devices` before `nv_*_device_register` stores into it, while
`nv_*_device_unregister` does. The store comes last, when the interface or the disk is already
visible. -/

namespace LinuxDriverFramework.SlotStores
open Foundations
set_option autoImplicit false

/-- In both wrappers, every registration of a run keeps its promise exactly when each one that goes
all the way is for a driver that has its table. -/
theorem device_register_safe_iff (netCfg : ℕ → NvNet.DriverConfig) (netCalls : List NvNet.Call)
    (blockCfg : ℕ → NvBlock.DriverConfig) (blockCalls : List NvBlock.Call) :
    (Along NvNet.step NvNet.SafeCall (NvNet.init netCfg) netCalls ∧
      Along NvBlock.step NvBlock.SafeCall (NvBlock.init blockCfg) blockCalls) ↔
    Along NvNet.step (fun w c => NvNet.callTableThere w c = true) (NvNet.init netCfg) netCalls ∧
      Along NvBlock.step (fun w c => NvBlock.callTableThere w c = true) (NvBlock.init blockCfg)
        blockCalls :=
  and_congr (NvNet.safe_along_iff netCfg netCalls) (NvBlock.safe_along_iff blockCfg blockCalls)

/-! ## A driver that is gone -/

def netDriver : ℕ → NvNet.DriverConfig := fun _ =>
  { name := some "nv_net", owner := some 0, count := 1 }

/-- A driver is registered and unregistered, then an interface is registered with it. -/
def netRun : List NvNet.Call :=
  [.driverRegister (some 0) true, .driverUnregister (some 0),
    .deviceRegister
      { drv := some 0
        dev := some 0
        index := 0
        name := some "nv0"
        ops := some fun _ => true
        priv := none
        macAddr := none
        mtu := 1500 }
      { allocEtherdev := true, devAllocName := none, registerNetdev := none }]

def blockDriver : ℕ → NvBlock.DriverConfig := fun _ =>
  { name := some "nv_block", owner := some 0, count := 1 }

def blockRun : List NvBlock.Call :=
  [.driverRegister (some 0) true, .driverUnregister (some 0),
    .deviceRegister
      { drv := some 0
        dev := some 0
        index := 0
        name := some "nv0"
        ops := some fun _ => true
        priv := none
        capacitySectors := 8
        logicalBlockSize := 512 }
      { blkAllocDisk := none, addDisk := none }]

/-- In both wrappers the device is visible, and the store goes through NULL. -/
theorem store_through_null :
    (∃ w, run NvNet.step (NvNet.init netDriver) netRun = some w ∧
      (w.netdevs 0).map (·.visible) = some true ∧ .slotWrite 0 false true ∈ w.calls ∧
      ¬ Along NvNet.step NvNet.SafeCall (NvNet.init netDriver) netRun) ∧
    (∃ w, run NvBlock.step (NvBlock.init blockDriver) blockRun = some w ∧
      (w.disks 0).map (·.visible) = some true ∧ .slotWrite 0 false true ∈ w.calls ∧
      ¬ Along NvBlock.step NvBlock.SafeCall (NvBlock.init blockDriver) blockRun) := by
  constructor
  · refine ⟨_, rfl, by decide, by decide, fun h => ?_⟩
    exact absurd ((NvNet.safe_along_iff netDriver netRun).mp h) (by decide)
  · refine ⟨_, rfl, by decide, by decide, fun h => ?_⟩
    exact absurd ((NvBlock.safe_along_iff blockDriver blockRun).mp h) (by decide)

end LinuxDriverFramework.SlotStores
