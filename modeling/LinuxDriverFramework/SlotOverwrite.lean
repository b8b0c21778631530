import LinuxDriverFramework.NvBlock.Slots
import LinuxDriverFramework.NvNet.Slots

/-! # The slot tables of `nv_net` and `nv_block`

Both wrappers store a new device in `drv->devices[index]` without a look at what is there. Their
promise about the table, `TableExact`, holds throughout a run exactly when no registration takes a
slot that is in use: the statement about all runs, and a run of each wrapper that breaks it. -/

namespace LinuxDriverFramework.SlotOverwrite
open Foundations
set_option autoImplicit false

/-- For both wrappers, exactly the runs in which every successful registration goes to a free slot
keep the table and the registered flags in step. -/
theorem table_exact_iff_slots_free (netCfg : ℕ → NvNet.DriverConfig) (netCalls : List NvNet.Call)
    (blockCfg : ℕ → NvBlock.DriverConfig) (blockCalls : List NvBlock.Call)
    (hnet : Along NvNet.step (fun w c => NvNet.inDomain w c = true) (NvNet.init netCfg) netCalls)
    (hblock : Along NvBlock.step (fun w c => NvBlock.inDomain w c = true) (NvBlock.init blockCfg)
      blockCalls) :
    (Throughout NvNet.step NvNet.TableExact (NvNet.init netCfg) netCalls ↔
      Along NvNet.step (fun w c => (NvNet.opOf w c).SlotFree (NvNet.directory w))
        (NvNet.init netCfg) netCalls) ∧
    (Throughout NvBlock.step NvBlock.TableExact (NvBlock.init blockCfg) blockCalls ↔
      Along NvBlock.step (fun w c => (NvBlock.opOf w c).SlotFree (NvBlock.directory w))
        (NvBlock.init blockCfg) blockCalls) :=
  ⟨NvNet.tableExact_iff netCfg netCalls hnet, NvBlock.tableExact_iff blockCfg blockCalls hblock⟩

/-! ## Two devices -/

def netDriver : ℕ → NvNet.DriverConfig := fun _ =>
  { name := some "nv_net", owner := some 0, count := 2 }

def netDevice (x : ℕ) (name : String) (index : ℕ) : NvNet.Call :=
  .deviceRegister
    { drv := some 0
      dev := some x
      index := index
      name := some name
      ops := some fun _ => true
      priv := none
      macAddr := none
      mtu := 1500 }
    { allocEtherdev := true, devAllocName := none, registerNetdev := none }

/-- Two interfaces, the second at index `i`, then the driver is unregistered. -/
def netRun (i : ℕ) : List NvNet.Call :=
  [.driverRegister (some 0) true, netDevice 0 "nv0" 0, netDevice 1 "nv1" i,
    .driverUnregister (some 0)]

def blockDriver : ℕ → NvBlock.DriverConfig := fun _ =>
  { name := some "nv_block", owner := some 0, count := 2 }

def blockDevice (x : ℕ) (name : String) (index : ℕ) : NvBlock.Call :=
  .deviceRegister
    { drv := some 0
      dev := some x
      index := index
      name := some name
      ops := some fun _ => true
      priv := none
      capacitySectors := 8
      logicalBlockSize := 512 }
    { blkAllocDisk := none, addDisk := none }

def blockRun (i : ℕ) : List NvBlock.Call :=
  [.driverRegister (some 0) true, blockDevice 0 "nv0" 0, blockDevice 1 "nv1" i,
    .driverUnregister (some 0)]

/-- At different indices nothing is lost. -/
theorem table_exact_at_two_indices :
    Throughout NvNet.step NvNet.TableExact (NvNet.init netDriver) (netRun 1) ∧
    Throughout NvBlock.step NvBlock.TableExact (NvBlock.init blockDriver) (blockRun 1) := by
  obtain ⟨hnet, hblock⟩ := table_exact_iff_slots_free netDriver (netRun 1) blockDriver (blockRun 1)
    (by decide) (by decide)
  exact ⟨hnet.mpr (by decide), hblock.mpr (by decide)⟩

/-- At one index, in both wrappers, the first device outlives the driver: registered, and in no
table. -/
theorem registered_device_outlives_driver :
    (∃ w, run NvNet.step (NvNet.init netDriver) (netRun 0) = some w ∧
      Along NvNet.step (fun w c => NvNet.inDomain w c = true) (NvNet.init netDriver) (netRun 0) ∧
      (w.dev 0).registered = true ∧ ¬ NvNet.TableExact w) ∧
    (∃ w, run NvBlock.step (NvBlock.init blockDriver) (blockRun 0) = some w ∧
      Along NvBlock.step (fun w c => NvBlock.inDomain w c = true) (NvBlock.init blockDriver)
        (blockRun 0) ∧
      (w.dev 0).registered = true ∧ ¬ NvBlock.TableExact w) := by
  constructor
  · have hend : (run NvNet.step (NvNet.init netDriver) (netRun 0)).map (fun w =>
        ((w.dev 0).registered, (w.dev 0).driver, (w.drv 0).devices.isSome)) =
        some (true, some 0, false) := by decide
    obtain ⟨w, hrun, hw⟩ := Option.map_eq_some_iff.mp hend
    simp only [Prod.mk.injEq] at hw
    obtain ⟨hreg, hdriver, htable⟩ := hw
    refine ⟨w, hrun, by decide, hreg, fun h => ?_⟩
    obtain ⟨t, ht, -⟩ := (h.slot 0 0 hdriver).mp hreg
    simp [ht] at htable
  · have hend : (run NvBlock.step (NvBlock.init blockDriver) (blockRun 0)).map (fun w =>
        ((w.dev 0).registered, (w.dev 0).driver, (w.drv 0).devices.isSome)) =
        some (true, some 0, false) := by decide
    obtain ⟨w, hrun, hw⟩ := Option.map_eq_some_iff.mp hend
    simp only [Prod.mk.injEq] at hw
    obtain ⟨hreg, hdriver, htable⟩ := hw
    refine ⟨w, hrun, by decide, hreg, fun h => ?_⟩
    obtain ⟨t, ht, -⟩ := (h.slot 0 0 hdriver).mp hreg
    simp [ht] at htable

end LinuxDriverFramework.SlotOverwrite
