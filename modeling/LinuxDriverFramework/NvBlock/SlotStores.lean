import LinuxDriverFramework.Foundations.SlotPrograms
import LinuxDriverFramework.NvBlock.Registration

/-! # Stores into the table of an `nv_block` driver

`nv_block_device_register` checks its index against `drv->count`, which is there before the driver
is registered and after it is unregistered, and stores into `drv->devices`, which is not. -/

namespace LinuxDriverFramework.NvBlock
open Foundations
set_option autoImplicit false

/-- A store goes into a table that is there, below its end. -/
def KCall.safe : KCall → Bool
  | .slotWrite _ tableLive inRange => tableLive && inRange
  | _ => true

/-- What a registration promises: its stores are safe, and where the driver has no table it fails
and shows no disk to anyone. -/
structure SafeRegister (w : World) (a : DeviceArgs) (o : DeviceOutcomes) : Prop where
  stores : ∃ new, (deviceRegister w a o).1.calls = new ++ w.calls ∧ ∀ k ∈ new, k.safe = true
  closed : ∀ id, a.drv = some id → (w.drv id).devices = none →
    (∃ e, (deviceRegister w a o).2 = .error e) ∧
    ∀ n d, (deviceRegister w a o).1.disks n = some d → d.visible = true → w.disks n = some d

/-- A registration that goes all the way is for a driver with a table. -/
def tableThere (w : World) (a : DeviceArgs) (o : DeviceOutcomes) : Bool :=
  match accepted w a with
  | some (id, _) => !o.allSucceed || (w.drv id).devices.isSome
  | none => true

theorem slotWrite_calls (w : World) (id i : ℕ) (v : Option ℕ) :
    (w.slotWrite id i v).calls =
      .slotWrite id (w.drv id).devices.isSome (decide (i < (w.drv id).count)) :: w.calls := by
  unfold World.slotWrite
  cases ht : (w.drv id).devices <;> rfl

theorem deviceRegisterDisk_fails {o : DeviceOutcomes} (ho : o.allSucceed = false) (w : World)
    (id x : ℕ) (name : String) (a : DeviceArgs) :
    (∃ e, (deviceRegisterDisk w id x name a o).2 = .error e) ∧
    (∃ new, (deviceRegisterDisk w id x name a o).1.calls = new ++ w.calls ∧
      ∀ k ∈ new, k.safe = true) ∧
    ∀ n d, (deviceRegisterDisk w id x name a o).1.disks n = some d → w.disks n = some d := by
  let n := w.nextDisk
  let w₁ := (w.allocDisk (a.gendisk x name)).modDev x fun d => { d with disk := .obj n }
  have hptr : (w₁.dev x).disk = .obj n := by simp [w₁]
  unfold deviceRegisterDisk
  cases halloc : o.blkAllocDisk with
  | some e => exact ⟨⟨e, rfl⟩, ⟨[], rfl, by simp⟩, fun m d hm => hm⟩
  | none =>
    cases hadd : o.addDisk with
    | none => simp [DeviceOutcomes.allSucceed, halloc, hadd] at ho
    | some e =>
      refine ⟨⟨e, rfl⟩, ⟨[.putDisk (.obj n) true, .allocDisk n], ?_, by simp [KCall.safe]⟩,
        fun m d hm => ?_⟩
      · show (w₁.dropDisk x).calls = _
        simp [World.dropDisk, World.putDisk, World.setDisk, World.disk, w₁, n]
      · change (w₁.dropDisk x).disks m = some d at hm
        simp only [World.dropDisk, World.putDisk, hptr, World.setDisk, World.modDev_disks] at hm
        by_cases hmn : m = n
        · simp [hmn] at hm
        · simpa [w₁, n, Function.update_of_ne hmn] using hm

theorem deviceRegisterDisk_succeeds {o : DeviceOutcomes} (ho : o.allSucceed = true) (w : World)
    (id x : ℕ) (name : String) (a : DeviceArgs) :
    (deviceRegisterDisk w id x name a o).2 = .ok () ∧
    (deviceRegisterDisk w id x name a o).1.calls =
      .slotWrite id (w.drv id).devices.isSome (decide (a.index < (w.drv id).count)) ::
        .addDisk w.nextDisk :: .allocDisk w.nextDisk :: w.calls := by
  simp only [DeviceOutcomes.allSucceed, Bool.and_eq_true, Option.isNone_iff_eq_none] at ho
  obtain ⟨halloc, hadd⟩ := ho
  simp only [deviceRegisterDisk, halloc, hadd, World.modDev_calls, slotWrite_calls,
    World.addDisk_calls, World.allocDisk_calls, World.addDisk_drv, World.modDev_drv,
    World.allocDisk_drv, and_self]

theorem tableThere_iff {w : World} {a : DeviceArgs} {o : DeviceOutcomes} :
    tableThere w a o = true ↔ ∀ p, accepted w a = some p → o.allSucceed = true →
      (w.drv p.1).devices.isSome = true := by
  unfold tableThere
  cases accepted w a with
  | none => simp
  | some p => cases o.allSucceed <;> simp

/-- A registration that does not go all the way. -/
theorem deviceRegister_early {w : World} {a : DeviceArgs} {o : DeviceOutcomes}
    (h : accepted w a = none ∨ o.allSucceed = false) :
    (∃ new, (deviceRegister w a o).1.calls = new ++ w.calls ∧ ∀ k ∈ new, k.safe = true) ∧
    (∃ e, (deviceRegister w a o).2 = .error e) ∧
    ∀ n d, (deviceRegister w a o).1.disks n = some d → d.visible = true → w.disks n = some d := by
  cases ha : accepted w a with
  | none =>
    obtain ⟨e, he⟩ := deviceRegister_rejected ha o
    rw [he]
    exact ⟨⟨[], rfl, by simp⟩, ⟨e, rfl⟩, fun n d hd _ => hd⟩
  | some p =>
    obtain ⟨id, x⟩ := p
    have ho : o.allSucceed = false := h.resolve_left (by simp [ha])
    obtain ⟨name, hreg⟩ := deviceRegister_accepted ha o
    obtain ⟨herr, hnew, hobjects⟩ := deviceRegisterDisk_fails ho (w.storeArgs id x a) id x name a
    rw [hreg]
    exact ⟨hnew, herr, fun n d hd _ => hobjects n d hd⟩

/-- A registration keeps its promise exactly when it does not go all the way without a table. -/
theorem safeRegister_iff (w : World) (a : DeviceArgs) (o : DeviceOutcomes) :
    SafeRegister w a o ↔ tableThere w a o = true := by
  rw [tableThere_iff]
  refine Iff.trans ⟨fun h => ⟨h.stores, h.closed⟩, fun h => ⟨h.1, h.2⟩⟩
    (promise_iff (t := fun id => (w.drv id).devices) (fun _ ha => (accepted_some ha).1)
      deviceRegister_early fun p ha ho => ?_)
  obtain ⟨id, x⟩ := p
  obtain ⟨name, hreg⟩ := deviceRegister_accepted ha o
  obtain ⟨hok, hcalls⟩ := deviceRegisterDisk_succeeds ho (w.storeArgs id x a) id x name a
  rw [← hreg] at hok hcalls
  refine ⟨fun htable => ⟨[_, _, _], hcalls, ?_⟩, fun hfails => ?_⟩
  · have hindex := (accepted_some ha).2.1
    simp [KCall.safe, htable, hindex]
  · obtain ⟨⟨e, he⟩, -⟩ := hfails
    rw [hok] at he
    cases he

/-! ## Whole runs -/

def SafeCall (w : World) : Call → Prop
  | .deviceRegister a o => SafeRegister w a o
  | _ => True

def callTableThere (w : World) : Call → Bool
  | .deviceRegister a o => tableThere w a o
  | _ => true

theorem safeCall_iff (w : World) (c : Call) : SafeCall w c ↔ callTableThere w c = true := by
  cases c with
  | deviceRegister a o => exact safeRegister_iff w a o
  | _ => simp [SafeCall, callTableThere]

theorem safe_along_iff (cfg : ℕ → DriverConfig) (calls : List Call) :
    Along step SafeCall (init cfg) calls ↔
      Along step (fun w c => callTableThere w c = true) (init cfg) calls :=
  along_iff_of_invariant (I := fun _ => True) (fun _ _ _ _ _ => trivial)
    (fun w c _ => safeCall_iff w c) trivial

end LinuxDriverFramework.NvBlock
