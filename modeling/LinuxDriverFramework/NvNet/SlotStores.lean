import LinuxDriverFramework.Foundations.SlotPrograms
import LinuxDriverFramework.NvNet.Registration

/-! # Stores into the table of an `nv_net` driver

`nv_net_device_register` checks its index against `drv->count`, which is there before the driver is
registered and after it is unregistered, and stores into `drv->devices`, which is not. -/

namespace LinuxDriverFramework.NvNet
open Foundations
set_option autoImplicit false

/-- A store goes into a table that is there, below its end. -/
def KCall.safe : KCall → Bool
  | .slotWrite _ tableLive inRange => tableLive && inRange
  | _ => true

/-- What a registration promises: its stores are safe, and where the driver has no table it fails
and shows no interface to anyone. -/
structure SafeRegister (w : World) (a : DeviceArgs) (o : DeviceOutcomes) : Prop where
  stores : ∃ new, (deviceRegister w a o).1.calls = new ++ w.calls ∧ ∀ k ∈ new, k.safe = true
  closed : ∀ id, a.drv = some id → (w.drv id).devices = none →
    (∃ e, (deviceRegister w a o).2 = .error e) ∧
    ∀ n d, (deviceRegister w a o).1.netdevs n = some d → d.visible = true → w.netdevs n = some d

/-- A registration that goes all the way is for a driver with a table. -/
def tableThere (w : World) (a : DeviceArgs) (o : DeviceOutcomes) : Bool :=
  match accepted w a with
  | some (id, _) => !o.allSucceed || (w.drv id).devices.isSome
  | none => true

theorem slotWrite_calls (w : World) (id i : ℕ) (v : Option ℕ) :
    (w.slotWrite id i v).calls =
      .slotWrite id (w.drv id).devices.isSome (decide (i < (w.drv id).count)) :: w.calls := by
  unfold World.slotWrite
  cases ht : (w.drv id).devices <;> rfl

theorem deviceRegisterNetdev_fails {o : DeviceOutcomes} (ho : o.allSucceed = false) (w : World)
    (id x : ℕ) (a : DeviceArgs) :
    (∃ e, (deviceRegisterNetdev w id x a o).2 = .error e) ∧
    (∃ new, (deviceRegisterNetdev w id x a o).1.calls = new ++ w.calls ∧
      ∀ k ∈ new, k.safe = true) ∧
    ∀ n d, (deviceRegisterNetdev w id x a o).1.netdevs n = some d → w.netdevs n = some d := by
  let n := w.nextNetdev
  let w₁ := (w.allocNetdev (a.netDevice x)).modDev x fun d => { d with netdev := some n }
  have hdrop : (∃ new, (w₁.dropNetdev x n).calls = new ++ w.calls ∧ ∀ k ∈ new, k.safe = true) ∧
      ∀ m d, (w₁.dropNetdev x n).netdevs m = some d → w.netdevs m = some d := by
    refine ⟨⟨[.freeNetdev n true, .allocEtherdev n], ?_, by simp [KCall.safe]⟩, fun m d hm => ?_⟩
    · simp [World.dropNetdev, w₁, n]
    · by_cases hmn : m = n
      · simp [World.dropNetdev, hmn] at hm
      · simpa [World.dropNetdev, w₁, n, Function.update_of_ne hmn] using hm
  unfold deviceRegisterNetdev
  cases halloc : o.allocEtherdev with
  | false => exact ⟨⟨_, rfl⟩, ⟨[], rfl, by simp⟩, fun m d hm => hm⟩
  | true =>
    cases hname : o.devAllocName with
    | some e => exact ⟨⟨e, rfl⟩, hdrop⟩
    | none =>
      cases hreg : o.registerNetdev with
      | some e => exact ⟨⟨e, rfl⟩, hdrop⟩
      | none => simp [DeviceOutcomes.allSucceed, halloc, hname, hreg] at ho

theorem deviceRegisterNetdev_succeeds {o : DeviceOutcomes} (ho : o.allSucceed = true) (w : World)
    (id x : ℕ) (a : DeviceArgs) :
    (deviceRegisterNetdev w id x a o).2 = .ok () ∧
    (deviceRegisterNetdev w id x a o).1.calls =
      .slotWrite id (w.drv id).devices.isSome (decide (a.index < (w.drv id).count)) ::
        .registerNetdev w.nextNetdev :: .allocEtherdev w.nextNetdev :: w.calls := by
  simp only [DeviceOutcomes.allSucceed, Bool.and_eq_true, Option.isNone_iff_eq_none] at ho
  obtain ⟨⟨halloc, hname⟩, hreg⟩ := ho
  simp only [deviceRegisterNetdev, halloc, hname, hreg, Bool.not_true, Bool.false_eq_true, if_false,
    World.modDev_calls, slotWrite_calls, World.registerNetdev_calls, World.allocNetdev_calls,
    World.registerNetdev_drv, World.modDev_drv, World.allocNetdev_drv, and_self]

theorem tableThere_iff {w : World} {a : DeviceArgs} {o : DeviceOutcomes} :
    tableThere w a o = true ↔ ∀ p, accepted w a = some p → o.allSucceed = true →
      (w.drv p.1).devices.isSome = true := by
  unfold tableThere
  cases accepted w a with
  | none => simp
  | some p => cases o.allSucceed <;> simp

/-- A registration that does not go all the way. -/
theorem deviceRegister_early {w : World} {a : DeviceArgs} {o : DeviceOutcomes}
    (h : accepted w a = none ∨ o.allSucceed = false) :
    (∃ new, (deviceRegister w a o).1.calls = new ++ w.calls ∧ ∀ k ∈ new, k.safe = true) ∧
    (∃ e, (deviceRegister w a o).2 = .error e) ∧
    ∀ n d, (deviceRegister w a o).1.netdevs n = some d → d.visible = true →
      w.netdevs n = some d := by
  cases ha : accepted w a with
  | none =>
    obtain ⟨e, he⟩ := deviceRegister_rejected ha o
    rw [he]
    exact ⟨⟨[], rfl, by simp⟩, ⟨e, rfl⟩, fun n d hd _ => hd⟩
  | some p =>
    obtain ⟨id, x⟩ := p
    have ho : o.allSucceed = false := h.resolve_left (by simp [ha])
    have hreg := deviceRegister_accepted ha o
    obtain ⟨herr, hnew, hobjects⟩ := deviceRegisterNetdev_fails ho (w.storeArgs id x a) id x a
    rw [hreg]
    exact ⟨hnew, herr, fun n d hd _ => hobjects n d hd⟩

/-- A registration keeps its promise exactly when it does not go all the way without a table. -/
theorem safeRegister_iff (w : World) (a : DeviceArgs) (o : DeviceOutcomes) :
    SafeRegister w a o ↔ tableThere w a o = true := by
  rw [tableThere_iff]
  refine Iff.trans ⟨fun h => ⟨h.stores, h.closed⟩, fun h => ⟨h.1, h.2⟩⟩
    (promise_iff (t := fun id => (w.drv id).devices) (fun _ ha => (accepted_some ha).1)
      deviceRegister_early fun p ha ho => ?_)
  obtain ⟨id, x⟩ := p
  have hreg := deviceRegister_accepted ha o
  obtain ⟨hok, hcalls⟩ := deviceRegisterNetdev_succeeds ho (w.storeArgs id x a) id x a
  rw [← hreg] at hok hcalls
  refine ⟨fun htable => ⟨[_, _, _], hcalls, ?_⟩, fun hfails => ?_⟩
  · have hindex := (accepted_some ha).2.1
    simp [KCall.safe, htable, hindex]
  · obtain ⟨⟨e, he⟩, -⟩ := hfails
    rw [hok] at he
    cases he

/-! ## Whole runs -/

def SafeCall (w : World) : Call → Prop
  | .deviceRegister a o => SafeRegister w a o
  | _ => True

def callTableThere (w : World) : Call → Bool
  | .deviceRegister a o => tableThere w a o
  | _ => true

theorem safeCall_iff (w : World) (c : Call) : SafeCall w c ↔ callTableThere w c = true := by
  cases c with
  | deviceRegister a o => exact safeRegister_iff w a o
  | _ => simp [SafeCall, callTableThere]

theorem safe_along_iff (cfg : ℕ → DriverConfig) (calls : List Call) :
    Along step SafeCall (init cfg) calls ↔
      Along step (fun w c => callTableThere w c = true) (init cfg) calls :=
  along_iff_of_invariant (I := fun _ => True) (fun _ _ _ _ _ => trivial)
    (fun w c _ => safeCall_iff w c) trivial

end LinuxDriverFramework.NvNet
