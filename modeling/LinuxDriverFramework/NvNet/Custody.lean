import LinuxDriverFramework.Foundations.Custody
import LinuxDriverFramework.Foundations.Runs
import LinuxDriverFramework.NvNet.Slots

/-! # The `net_device`s of `nv_net`

`custody w` reads out of a world who holds which `net_device`: the holders are the
`nv_net_device`s, their pointer is `dev->netdev` and their mark `dev->registered`. Every call keeps
it sound.

A store through a NULL table is not counted here as misuse: it concerns no `net_device`. The run
goes on behind it with the table as it was, where the kernel would have faulted; `SlotStores` says
when there is none. -/

namespace LinuxDriverFramework.NvNet
open Foundations SlotProgram
set_option autoImplicit false

/-- `free_netdev` gives a `net_device` back; it and `unregister_netdev` need one that is there. -/
def reading : Reading NvNetDev KCall where
  pointer d := .ofOption d.netdev
  mark d := d.registered
  gives
    | .freeNetdev m _, n => n = m
    | _, _ => false
  misuse
    | .unregisterNetdev _ live => !live
    | .freeNetdev _ live => !live
    | _ => false

def custody (w : World) : Custody ℕ := reading.custody w.dev w.netdevs w.nextNetdev w.calls

theorem ptr_of_held {w : World} {x n : ℕ} (h : (custody w).held x = .object n) :
    (w.dev x).netdev = some n := Pointer.ofOption_eq_object.mp h

/-! ## The functions of the kernel and the assignments -/

theorem custody_modDev (w : World) (x : ℕ) (f : NvNetDev → NvNetDev) :
    custody (w.modDev x f) =
      (custody w).place x (.ofOption (f (w.dev x)).netdev) (f (w.dev x)).registered :=
  reading.custody_update w.dev w.netdevs w.nextNetdev w.calls x (f (w.dev x))

theorem custody_note (w : World) (id : ℕ) (there inRange : Bool) :
    custody (program.note w id there inRange) = custody w :=
  Reading.custody_skip _ _ _ _ (fun _ => rfl) rfl

theorem custody_slotWrite (w : World) (id i : ℕ) (v : Option ℕ) :
    custody (w.slotWrite id i v) = custody w := by
  rw [slotWrite_eq]
  exact store_keeps (I := fun w' => custody w' = custody w) (fun _ _ _ h => h)
    (fun w' id there inRange h => (custody_note w' id there inRange).trans h) rfl id i v

theorem custody_allocNetdev (w : World) (d : NetDevice) :
    custody (w.allocNetdev d) = (custody w).issue :=
  (Reading.custody_skip _ _ _ _ (fun _ => rfl) rfl).trans
    (reading.custody_issue w.dev w.netdevs w.nextNetdev w.calls d)

theorem custody_registerNetdev (w : World) (n : ℕ) : custody (w.registerNetdev n) = custody w :=
  (Reading.custody_skip _ _ _ _ (fun _ => rfl) rfl).trans
    (reading.custody_modify w.dev w.netdevs w.nextNetdev w.calls n _)

theorem custody_unregisterNetdev (w : World) (n : ℕ) :
    custody (w.unregisterNetdev n) = (custody w).use n :=
  (reading.custody_modify _ _ _ _ n _).trans
    (Reading.custody_use w.dev w.netdevs w.nextNetdev w.calls (fun _ => rfl) rfl)

theorem custody_freeNetdev (w : World) (n : ℕ) :
    custody (w.freeNetdev n) = (custody w).release n :=
  Reading.custody_release w.dev w.netdevs w.nextNetdev w.calls (fun _ => rfl) rfl

theorem custody_dropNetdev (w : World) (x n : ℕ) :
    custody (w.dropNetdev x n) =
      ((custody w).release n).place x .null (w.dev x).registered := by
  rw [World.dropNetdev, custody_modDev, custody_freeNetdev]
  rfl

theorem custody_clearSlot (w : World) (x : ℕ) : custody (w.clearSlot x) = custody w := by
  rw [clearSlot_eq]
  exact clearSlot_keeps (I := fun w' => custody w' = custody w) (fun _ _ _ h => h)
    (fun w' id there inRange h => (custody_note w' id there inRange).trans h) rfl x

/-! ## The functions of the source -/

theorem sound_deviceRegisterNetdev {w : World} {x : ℕ} (h : (custody w).Sound)
    (hx : (w.dev x).registered = false) (id : ℕ) (a : DeviceArgs) (o : DeviceOutcomes) :
    (custody (deviceRegisterNetdev w id x a o).1).Sound := by
  let n := w.nextNetdev
  let w₁ := (w.allocNetdev (a.netDevice x)).modDev x fun d => { d with netdev := some n }
  have h₁ : custody w₁ = (custody w).issue.place x (.object n) false := by
    rw [custody_modDev, custody_allocNetdev]
    exact congrArg ((custody w).issue.place x (.object n)) hx
  have hdrop : (custody (w₁.dropNetdev x n)).Sound := by
    have hx₁ : (w₁.dev x).registered = false := by simpa [w₁] using hx
    rw [custody_dropNetdev, hx₁, h₁, Custody.release_place, Custody.place_place]
    exact h.attempt hx
  unfold deviceRegisterNetdev
  cases o.allocEtherdev with
  | false => exact h
  | true =>
    cases o.devAllocName with
    | some e => exact hdrop
    | none =>
      cases o.registerNetdev with
      | some e => exact hdrop
      | none =>
        show (custody (((w₁.registerNetdev n).slotWrite id a.index (some x)).modDev x
          fun d => { d with registered := true })).Sound
        have hptr : (((w₁.registerNetdev n).slotWrite id a.index (some x)).dev x).netdev = some n := by
          rw [slotWrite_dev]
          simp [w₁]
        rw [custody_modDev, hptr, custody_slotWrite, custody_registerNetdev, h₁,
          Custody.place_place]
        exact h.take hx

theorem sound_deviceRegister {w : World} (h : (custody w).Sound) (a : DeviceArgs)
    (o : DeviceOutcomes) : (custody (deviceRegister w a o).1).Sound := by
  cases ha : accepted w a with
  | none =>
    obtain ⟨e, he⟩ := deviceRegister_rejected ha o
    rw [he]
    exact h
  | some p =>
    obtain ⟨id, x⟩ := p
    obtain ⟨-, -, hr⟩ := accepted_some ha
    have hstore : custody (w.storeArgs id x a) = custody w :=
      reading.custody_update_same w.dev w.netdevs w.nextNetdev w.calls x _ ⟨rfl, rfl⟩
    rw [deviceRegister_accepted ha o]
    exact sound_deviceRegisterNetdev (by rwa [hstore]) (by simpa using hr) id a o

theorem sound_deviceUnregister {w : World} (h : (custody w).Sound) (x : ℕ) :
    (custody (deviceUnregister w x)).Sound := by
  cases hx : (w.dev x).registered with
  | false => simpa only [deviceUnregister, hx, Bool.false_eq_true, if_false] using h
  | true =>
    obtain ⟨n, hn, -⟩ := h.held_of_marked hx
    have hptr : ((w.clearSlot x).dev x).netdev = some n := by
      rw [clearSlot_dev]
      exact ptr_of_held hn
    simp only [deviceUnregister, hx, if_true, hptr]
    rw [custody_modDev, custody_dropNetdev, custody_unregisterNetdev, custody_clearSlot,
      Custody.place_place]
    simpa [World.dropNetdev, Pointer.ofOption] using h.drop hn

theorem sound_driverRegister {w : World} (h : (custody w).Sound) (drv : Option ℕ)
    (kcalloc : Bool) : (custody (driverRegister w drv kcalloc).1).Sound := by
  unfold driverRegister
  split
  · exact h
  · split
    · exact h
    · split <;> exact h

theorem sound_driverUnregister {w : World} (h : (custody w).Sound) (drv : Option ℕ) :
    (custody (driverUnregister w drv)).Sound := by
  cases drv with
  | none => exact h
  | some id =>
    rw [driverUnregister_eq]
    exact closeTable_keeps (I := fun w => (custody w).Sound) (fun _ _ _ h => h)
      (fun _ x h => sound_deviceUnregister h x) h id

theorem sound_step {w w' : World} {c : Call} (h : (custody w).Sound) (hs : step w c = some w') :
    (custody w').Sound := by
  obtain rfl : (exec w c).1 = w' := Option.some.inj hs
  cases c with
  | driverRegister drv kcalloc => exact sound_driverRegister h drv kcalloc
  | driverUnregister drv => exact sound_driverUnregister h drv
  | deviceRegister a o => exact sound_deviceRegister h a o
  | deviceUnregister dev =>
    cases dev with
    | none => exact h
    | some x => exact sound_deviceUnregister h x

theorem sound_init (cfg : ℕ → DriverConfig) : (custody (init cfg)).Sound :=
  Custody.sound_initial rfl (fun _ => rfl) (fun _ => rfl) (fun _ => rfl) (fun _ => rfl) rfl

theorem sound_throughout (cfg : ℕ → DriverConfig) (calls : List Call) :
    Throughout step (fun w => (custody w).Sound) (init cfg) calls :=
  throughout_of_along (fun _ h => h) (fun _ _ _ h _ hs => sound_step h hs) calls (init cfg)
    (sound_init cfg) (along_true calls (init cfg))

end LinuxDriverFramework.NvNet
