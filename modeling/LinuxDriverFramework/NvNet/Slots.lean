import LinuxDriverFramework.Foundations.SlotPrograms
import LinuxDriverFramework.NvNet.Registration

/-! # `nv_net` refines the slot directory

`program` says where the slot tables and the interfaces are in a world, `directory w` reads them
out of it, `opOf w c` is the directory step that call `c` takes, and `refines` says that the
functions of `nv_net.c` take exactly these steps. `TableExact` is the promise about the tables. -/

namespace LinuxDriverFramework.NvNet
open Foundations SlotProgram
set_option autoImplicit false

def directory (w : World) : Directory ℕ ℕ :=
  .ofFlags (fun id => (w.drv id).devices) (fun x => (w.dev x).registered)
    (fun x => (w.dev x).driver) fun x => (w.dev x).index

def World.size (w : World) (id : ℕ) : ℕ := (w.drv id).count

def program : SlotProgram World ℕ ℕ NvNetDev where
  table w id := (w.drv id).devices
  size := World.size
  item := World.dev
  registered := NvNetDev.registered
  owner := NvNetDev.driver
  index := NvNetDev.index
  setTable w id t := w.modDrv id fun d => { d with devices := t }
  note w id there inRange := { w with calls := .slotWrite id there inRange :: w.calls }
  setItem := World.modDev
  table_setTable w id _ :=
    funext fun id' => Function.apply_update (fun _ => NvNetDriver.devices) w.drv id _ id'
  size_setTable w id _ := by
    funext id'
    by_cases h : id' = id
    · subst h; simp [World.size]
    · simp [World.size, h]
  item_setTable _ _ _ := rfl
  table_note _ _ _ _ := rfl
  size_note _ _ _ _ := rfl
  item_note _ _ _ _ := rfl
  table_setItem _ _ _ := rfl
  size_setItem _ _ _ := rfl
  item_setItem _ _ _ := rfl

theorem home_eq_some {w : World} {x id i : ℕ} : (directory w).home x = some (id, i) ↔
    (w.dev x).registered = true ∧ (w.dev x).driver = some id ∧ (w.dev x).index = i :=
  SlotProgram.home_eq_some (P := program)

/-! ## The functions of the source -/

theorem slotWrite_eq (w : World) (id i : ℕ) (v : Option ℕ) :
    w.slotWrite id i v = program.store w id i v := by
  have htable : program.table w id = (w.drv id).devices := rfl
  unfold World.slotWrite SlotProgram.store
  rw [htable]
  cases (w.drv id).devices <;> rfl

theorem clearSlot_eq (w : World) (x : ℕ) : w.clearSlot x = program.clearSlot w x := by
  have howner : program.owner (program.item w x) = (w.dev x).driver := rfl
  unfold World.clearSlot SlotProgram.clearSlot
  rw [howner]
  cases (w.dev x).driver with
  | none => rfl
  | some id => simp only [slotWrite_eq]; rfl

theorem unregisterSlot_eq (id : ℕ) (w : World) (i : ℕ) :
    unregisterSlot id w i = program.removeSlot deviceUnregister id w i := by
  have htable : program.table w id = (w.drv id).devices := rfl
  unfold unregisterSlot SlotProgram.removeSlot
  rw [htable]
  cases (w.drv id).devices with
  | none => rfl
  | some t => simp only; cases t i <;> rfl

theorem driverUnregister_eq (w : World) (id : ℕ) :
    driverUnregister w (some id) = program.closeTable deviceUnregister w id := by
  have hslot : unregisterSlot id = program.removeSlot deviceUnregister id :=
    funext fun w => funext (unregisterSlot_eq id w)
  simp only [driverUnregister, SlotProgram.closeTable, hslot]
  rfl

theorem directory_modDev {w : World} {x : ℕ} {f : NvNetDev → NvNetDev}
    (hf : (f (w.dev x)).registered = (w.dev x).registered)
    (h : (w.dev x).registered = true →
      (f (w.dev x)).driver = (w.dev x).driver ∧ (f (w.dev x)).index = (w.dev x).index) :
    directory (w.modDev x f) = directory w :=
  directory_setItem_same (P := program) hf h

theorem directory_dropNetdev (w : World) (x n : ℕ) :
    directory (w.dropNetdev x n) = directory w :=
  directory_modDev (w := w.freeNetdev n) rfl fun _ => ⟨rfl, rfl⟩

theorem deviceUnregister_takes (w : World) (x : ℕ) :
    program.Takes (.remove x) w (deviceUnregister w x) := by
  cases hr : (w.dev x).registered with
  | false =>
    rw [deviceUnregister, hr]
    exact takes_remove_of_not hr
  | true =>
    let w₁ := program.clearSlot w x
    obtain ⟨w₂, hw₂, hdir, hsize⟩ : ∃ w₂ : World, deviceUnregister w x =
        w₂.modDev x (fun d => { d with registered := false }) ∧
        directory w₂ = directory w₁ ∧ w₂.size = w₁.size := by
      cases hn : (w₁.dev x).netdev with
      | some n =>
        exact ⟨(w₁.unregisterNetdev n).dropNetdev x n, by
          simp [deviceUnregister, hr, clearSlot_eq, w₁, hn], directory_dropNetdev _ x _, rfl⟩
      | none => exact ⟨w₁, by simp [deviceUnregister, hr, clearSlot_eq, w₁, hn], rfl, rfl⟩
    rw [hw₂]
    exact takes_remove (P := program) (f := fun d => { d with registered := false }) hr hdir
      (hsize.trans (size_clearSlot (P := program) w x)) rfl

theorem deviceRegisterNetdev_takes {w : World} {id x : ℕ} {a : DeviceArgs}
    (hd : (w.dev x).driver = some id) (hi : (w.dev x).index = a.index) (o : DeviceOutcomes) :
    program.Takes (if o.allSucceed then .put id a.index x else .skip) w
      (deviceRegisterNetdev w id x a o).1 := by
  unfold deviceRegisterNetdev DeviceOutcomes.allSucceed
  cases ho : o.allocEtherdev with
  | false => exact takes_skip w
  | true =>
    let w₁ :=
      (w.allocNetdev (a.netDevice x)).modDev x fun d => { d with netdev := some w.nextNetdev }
    have h₁ : directory w₁ = directory w :=
      directory_modDev (w := w.allocNetdev (a.netDevice x)) rfl fun _ => ⟨rfl, rfl⟩
    have hfail : program.Takes .skip w (w₁.dropNetdev x w.nextNetdev) :=
      ⟨(directory_dropNetdev w₁ x _).trans h₁, rfl⟩
    cases o.devAllocName with
    | some e => exact hfail
    | none =>
      cases o.registerNetdev with
      | some e => exact hfail
      | none =>
        have hdev : (w₁.dev x).driver = some id ∧ (w₁.dev x).index = a.index := by
          simp [w₁, hd, hi]
        simp only [slotWrite_eq]
        exact takes_put (P := program) (m := w₁.registerNetdev w.nextNetdev)
          (f := fun d => { d with registered := true }) h₁ rfl ⟨rfl, hdev⟩

theorem deviceRegister_takes (w : World) (a : DeviceArgs) (o : DeviceOutcomes) :
    program.Takes
      (match accepted w a with
        | some (id, x) => if o.allSucceed then .put id a.index x else .skip
        | none => .skip) w (deviceRegister w a o).1 := by
  cases ha : accepted w a with
  | none =>
    obtain ⟨e, he⟩ := deviceRegister_rejected ha o
    rw [he]
    exact takes_skip w
  | some p =>
    obtain ⟨id, x⟩ := p
    obtain ⟨-, -, hr⟩ := accepted_some ha
    have h₁ : directory (w.storeArgs id x a) = directory w :=
      directory_modDev rfl fun h => absurd h (by simp [hr])
    rw [deviceRegister_accepted ha o]
    exact (deviceRegisterNetdev_takes (by simp) (by simp) o).after h₁ rfl

/-! ## The refinement -/

/-- The domain of the runs: a driver is registered only while its table is NULL, a device only
while the table is not. -/
def inDomain (w : World) : Call → Bool
  | .driverRegister drv _ => drv.all fun id => (w.drv id).devices.isNone
  | .deviceRegister a _ => a.drv.all fun id => (w.drv id).devices.isSome
  | _ => true

def opOf (w : World) : Call → Directory.Op ℕ ℕ
  | .driverRegister (some id) kcalloc =>
    if (w.drv id).invalid || !kcalloc then .skip else .openTable id
  | .driverUnregister (some id) => .closeTable id (w.drv id).count
  | .deviceRegister a o =>
    match accepted w a with
    | some (id, x) => if o.allSucceed then .put id a.index x else .skip
    | none => .skip
  | .deviceUnregister (some x) => .remove x
  | _ => .skip

theorem exec_takes {w : World} {c : Call} (hd : inDomain w c = true) :
    program.Takes (opOf w c) w (exec w c).1 := by
  cases c with
  | driverRegister drv kcalloc =>
    cases drv with
    | none => exact takes_skip w
    | some id =>
      have hnone : (w.drv id).devices = none := by simpa [inDomain] using hd
      have hopen := takes_openTable (P := program) hnone kcalloc
      simp only [exec, driverRegister, opOf]
      cases (w.drv id).invalid with
      | true => exact takes_skip w
      | false => cases kcalloc <;> exact hopen
  | driverUnregister drv =>
    cases drv with
    | none => exact takes_skip w
    | some id =>
      simp only [exec, driverUnregister_eq]
      exact takes_closeTable deviceUnregister_takes w id
  | deviceRegister a o => exact deviceRegister_takes w a o
  | deviceUnregister dev =>
    cases dev with
    | none => exact takes_skip w
    | some x => exact deviceUnregister_takes w x

theorem refines : Directory.Refines step directory World.size opOf
    (fun w c => inDomain w c = true) where
  total := fun w c _ => ⟨_, rfl⟩
  step := by
    intro w c w' hd hs
    obtain rfl := Option.some.inj hs
    exact ⟨(exec_takes hd).directory, (exec_takes hd).size⟩
  enabled := by
    intro w c hd
    cases c with
    | driverRegister drv kcalloc =>
      cases drv with
      | none => trivial
      | some id =>
        have hnone : (w.drv id).devices = none := by simpa [inDomain] using hd
        simp only [opOf]
        split
        · trivial
        · exact hnone
    | driverUnregister drv =>
      cases drv with
      | none => trivial
      | some id => rfl
    | deviceRegister a o =>
      simp only [opOf]
      cases ha : accepted w a with
      | none => trivial
      | some p =>
        obtain ⟨hdrv, hi, hr⟩ := accepted_some ha
        simp only
        split
        · have htable : (w.drv p.1).devices.isSome := by simpa [inDomain, hdrv] using hd
          exact ⟨home_of_not_registered (P := program) hr, htable, hi⟩
        · trivial
    | deviceUnregister dev =>
      cases dev <;> trivial

/-! ## The promise -/

/-- A device of a driver is registered exactly when it sits in the driver's table at its index;
unregistering a device keeps the others in, and unregistering the driver leaves none registered. -/
structure TableExact (w : World) : Prop where
  slot : ∀ x id, (w.dev x).driver = some id → ((w.dev x).registered = true ↔
    ∃ t, (w.drv id).devices = some t ∧ t (w.dev x).index = some x)
  keeps : ∀ x y id t i, y ≠ x → (w.drv id).devices = some t → t i = some y →
    ∃ t', ((deviceUnregister w x).drv id).devices = some t' ∧ t' i = some y
  afterUnregister : ∀ id x, ¬ (((driverUnregister w (some id)).dev x).registered = true ∧
    ((driverUnregister w (some id)).dev x).driver = some id)

theorem at_eq_some {w : World} {id i x : ℕ} : (directory w).at_ id i = some x ↔
    ∃ t, (w.drv id).devices = some t ∧ t i = some x := Option.bind_eq_some_iff

theorem tableExact_of_sound {w : World} (h : (directory w).Sound w.size) : TableExact w where
  slot := fun x id hd => by
    rw [← at_eq_some, ← h.coherent x id, home_eq_some]
    simp [hd]
  keeps := fun x y id t i hne ht hy => by
    rw [← at_eq_some, show directory _ = _ from (deviceUnregister_takes w x).directory]
    exact h.coherent.at_remove_of_ne (at_eq_some.mpr ⟨t, ht, hy⟩) hne
  afterUnregister := fun id x hx => by
    have hhome := home_eq_some.mpr ⟨hx.1, hx.2, rfl⟩
    have hclose := (takes_closeTable deviceUnregister_takes w id).directory
    rw [driverUnregister_eq, show directory _ = _ from hclose] at hhome
    exact Directory.removeBelow_vacant h.coherent (fun y i hy => h.bounded y id i hy) x _ hhome

theorem TableExact.home_at {w : World} (h : TableExact w) (y id i : ℕ)
    (hy : (directory w).home y = some (id, i)) : (directory w).at_ id i = some y := by
  obtain ⟨hr, hd, rfl⟩ := home_eq_some.mp hy
  exact at_eq_some.mpr ((h.slot y id hd).mp hr)

theorem init_sound (cfg : ℕ → DriverConfig) : (directory (init cfg)).Sound (init cfg).size :=
  ⟨fun x k i => by simp [directory, Directory.ofFlags, Directory.at_, init],
    fun x k i h => by simp [directory, Directory.ofFlags, init] at h⟩

/-- The run-long promise holds exactly when no registration takes a slot that is in use. -/
theorem tableExact_iff (cfg : ℕ → DriverConfig) (calls : List Call)
    (hd : Along step (fun w c => inDomain w c = true) (init cfg) calls) :
    Throughout step TableExact (init cfg) calls ↔
      Along step (fun w c => (opOf w c).SlotFree (directory w)) (init cfg) calls :=
  refines.throughout_iff (fun _ => tableExact_of_sound) (fun _ h => h.home_at) calls (init cfg)
    (init_sound cfg) hd

end LinuxDriverFramework.NvNet
