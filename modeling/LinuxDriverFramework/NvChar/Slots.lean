import LinuxDriverFramework.Foundations.SlotDirectory
import LinuxDriverFramework.NvChar.DriverFacts
import Mathlib.Data.Finset.Basic

/-! # The slot tables of `nv_char.c` as a directory

`directory w` reads the slot tables of the drivers and the slots that registered devices name out
of a world. The lemmas say which directory step each function of the source takes, and what it does
to cdevs, class devices and the calls about them. -/

namespace LinuxDriverFramework.NvChar
open Foundations
set_option autoImplicit false

def directory (w : World) : Directory DrvId DevId :=
  .ofFlags (fun id => (w.drv id).devices) (fun x => (w.dev x).registered)
    (fun x => (w.dev x).driver) fun x => (w.dev x).index

theorem home_eq_some {w : World} {x : DevId} {id : DrvId} {i : ℕ} :
    (directory w).home x = some (id, i) ↔
      (w.dev x).registered = true ∧ (w.dev x).driver = some id ∧ (w.dev x).index = i :=
  Directory.ofFlags_home

theorem home_of_not_registered {w : World} {x : DevId} (h : (w.dev x).registered = false) :
    (directory w).home x = none :=
  Directory.ofFlags_home_none h

/-! ## Steps that leave the directory alone -/

theorem directory_modDev (w : World) (x : DevId) (f : NvCharDev → NvCharDev)
    (hf : (f (w.dev x)).registered = (w.dev x).registered ∧
      ((w.dev x).registered = true →
        (f (w.dev x)).driver = (w.dev x).driver ∧ (f (w.dev x)).index = (w.dev x).index)) :
    directory (w.modDev x f) = directory w :=
  Directory.ofFlags_item_same NvCharDev.registered NvCharDev.driver NvCharDev.index w.dev x hf

theorem directory_modDrv (w : World) (id : DrvId) (f : NvCharDriver → NvCharDriver) :
    directory (w.modDrv id f) = (directory w).setTable id (f (w.drv id)).devices :=
  Directory.ofFlags_owner NvCharDriver.devices w.drv id _

@[simp] theorem directory_setK (w : World) (k : Kernel) : directory (w.setK k) = directory w := rfl

@[simp] theorem debugfsRemoveDevice_directory (w : World) (x : DevId) :
    directory (w.debugfsRemoveDevice x) = directory w := by
  unfold World.debugfsRemoveDevice
  split
  · exact directory_modDev _ x _ ⟨rfl, fun _ => ⟨rfl, rfl⟩⟩
  · rfl

@[simp] theorem destroyNode_directory (w : World) (x : DevId) :
    directory (w.destroyNode x) = directory w := by
  unfold World.destroyNode
  split
  · exact directory_modDev _ x _ ⟨rfl, fun _ => ⟨rfl, rfl⟩⟩
  · rfl

@[simp] theorem waitOpens_directory (w : World) (x : DevId) :
    directory (w.waitOpens x) = directory w := by
  unfold World.waitOpens
  split <;> rfl

theorem directory_clearFlag (w : World) (x : DevId) :
    directory (w.modDev x fun d => { d with registered := false }) =
      { directory w with home := Function.update (directory w).home x none } :=
  Directory.ofFlags_item NvCharDev.registered NvCharDev.driver NvCharDev.index w.dev x _

/-! ## Slot writes -/

theorem directory_slotWrite (w : World) (id : DrvId) (i : ℕ) (v : Option DevId) :
    directory (w.slotWrite id i v) = (directory w).write id i v := by
  unfold World.slotWrite
  cases ht : (w.drv id).devices with
  | none => exact (Directory.write_of_none (d := directory w) ht i v).symm
  | some t =>
    simp only [directory_modDrv, directory_setK, Directory.write]
    congr 1
    simp [directory, Directory.ofFlags, ht]

theorem directory_clearSlot {w : World} {x : DevId} {id : DrvId} (hd : (w.dev x).driver = some id) :
    directory (w.clearSlot x) = (directory w).write id (w.dev x).index none := by
  simp only [World.clearSlot, hd]
  split
  · exact directory_slotWrite w id _ none
  · rename_i ht
    have hnone : (w.drv id).devices = none := by simpa using ht
    exact (Directory.write_of_none (d := directory w) hnone _ none).symm

theorem slotWrite_k (w : World) (id : DrvId) (i : ℕ) (v : Option DevId) :
    (w.slotWrite id i v).k =
      w.k.log (.slotWrite id (w.drv id).devices.isSome (decide (i < (w.drv id).count))) := by
  unfold World.slotWrite
  cases ht : (w.drv id).devices <;> rfl

/-! ## Kernel records of the steps of an unregistration -/

theorem debugfsRemoveDevice_k (w : World) (x : DevId) :
    (w.debugfsRemoveDevice x).k.nodes = w.k.nodes ∧ (w.debugfsRemoveDevice x).k.cdevs = w.k.cdevs ∧
    (w.debugfsRemoveDevice x).k.deviceCalls = w.k.deviceCalls := by
  unfold World.debugfsRemoveDevice
  split <;> exact ⟨rfl, rfl, rfl⟩

theorem debugfsAddDevice_k (w : World) (x : DevId) (ok : Bool) :
    (w.debugfsAddDevice x ok).k = w.k ∧ (w.debugfsAddDevice x ok).drv = w.drv := by
  unfold World.debugfsAddDevice
  split <;> exact ⟨rfl, rfl⟩

theorem waitOpens_k (w : World) (x : DevId) :
    (w.waitOpens x).k.nodes = w.k.nodes ∧ (w.waitOpens x).k.cdevs = w.k.cdevs ∧
    (w.waitOpens x).k.deviceCalls = w.k.deviceCalls := by
  unfold World.waitOpens
  split <;> exact ⟨rfl, rfl, rfl⟩

/-- What unregistering device `x` of driver `id` with class `c` does. -/
structure DeviceUnregistered (x : DevId) (id : DrvId) (c : ℕ) (w w' : World) : Prop where
  slots : directory w' = (directory w).remove x
  nodes : w'.k.nodes = w.k.nodes.erase (c, (w.dev x).devt)
  cdevs : w'.k.cdevs = w.k.cdevs.erase x
  calls : w'.k.deviceCalls =
    .cdevDel x (decide (x ∈ w.k.cdevs)) ::
    .deviceDestroy x (w.k.classLive c) (decide ((c, (w.dev x).devt) ∈ w.k.nodes)) ::
    .slotWrite id true (decide ((w.dev x).index < (w.drv id).count)) :: w.k.deviceCalls

theorem deviceUnregister_directory {w : World} {x : DevId} {id : DrvId}
    (hr : (w.dev x).registered = true) (hd : (w.dev x).driver = some id) :
    directory (deviceUnregister w x) = (directory w).remove x := by
  have hhome := home_eq_some.mpr ⟨hr, hd, rfl⟩
  have hremoving : directory (w.modDev x fun d => { d with removing := true }) = directory w :=
    directory_modDev w x _ ⟨rfl, fun _ => ⟨rfl, rfl⟩⟩
  have hlast : ∀ w : World, directory (w.cdevGone x) =
      { directory w with home := Function.update (directory w).home x none } := by
    intro w
    rw [← directory_clearFlag]
    rfl
  simp only [deviceUnregister, hr, if_true, hlast, waitOpens_directory, destroyNode_directory,
    debugfsRemoveDevice_directory, Directory.remove, hhome]
  have hd' : ((w.modDev x fun d => { d with removing := true }).dev x).driver = some id := by
    simpa using hd
  rw [directory_clearSlot hd', hremoving]
  simp [Directory.write, Directory.setTable]

theorem deviceUnregister_effect {w : World} {x : DevId} {id : DrvId} {c : ℕ}
    (hr : (w.dev x).registered = true) (hd : (w.dev x).driver = some id)
    (hv : (w.dev x).device.isSome) (ht : (w.drv id).devices.isSome)
    (hc : (w.drv id).cls = .obj c) : DeviceUnregistered x id c w (deviceUnregister w x) := by
  obtain ⟨v, hv⟩ := Option.isSome_iff_exists.mp hv
  let w₁ := w.modDev x fun d => { d with removing := true }
  let w₂ := w₁.clearSlot x
  let w₃ := w₂.debugfsRemoveDevice x
  have hw : deviceUnregister w x = ((w₃.destroyNode x).waitOpens x).cdevGone x := by
    simp only [deviceUnregister, hr, if_true]
    rfl
  -- the slot is cleared through the driver's table
  have hk₂ : w₂.k = w.k.log (.slotWrite id true (decide ((w.dev x).index < (w.drv id).count))) := by
    have hclear : w₂ = w₁.slotWrite id (w.dev x).index none := by
      simp [w₂, w₁, World.clearSlot, hd, ht]
    rw [hclear, slotWrite_k]
    simp [w₁, ht]
  obtain ⟨hn₃, hc₃, hl₃⟩ := debugfsRemoveDevice_k w₂ x
  have hf₃ : DeviceFrame x w w₃ := (frame_modDev x w _).trans <|
    (frame_clearSlot x _).trans (frame_debugfsRemoveDevice x _)
  have hdev₃ : w₃.dev x = { w.dev x with removing := true, debugfsDir := none } := by
    simp [w₃, w₂, w₁, debugfsRemoveDevice_dev_self]
  have hcls₃ : (w₃.drv id).cls = .obj c := by rw [hf₃.drv id, hc]
  -- the class device is destroyed with the class of the driver
  have hk₄ : (w₃.destroyNode x).k = w₃.k.deviceDestroy x (.obj c) (w.dev x).devt := by
    simp [World.destroyNode, hdev₃, hv, hd, hcls₃]
  have hlive : w₃.k.classLive c = w.k.classLive c := by rw [Kernel.classLive, hf₃.classes]; rfl
  obtain ⟨hn₅, hc₅, hl₅⟩ := waitOpens_k (w₃.destroyNode x) x
  refine ⟨deviceUnregister_directory hr hd, ?_, ?_, ?_⟩
  · rw [hw]
    change ((w₃.destroyNode x).waitOpens x).k.nodes = _
    rw [hn₅, hk₄]
    simp [Kernel.deviceDestroy, w₃, hn₃, hk₂]
  · rw [hw]
    change ((w₃.destroyNode x).waitOpens x).k.cdevs.erase x = _
    rw [hc₅, hk₄]
    simp [Kernel.deviceDestroy, w₃, hc₃, hk₂]
  · rw [hw]
    change KCall.cdevDel x (decide (x ∈ ((w₃.destroyNode x).waitOpens x).k.cdevs)) ::
      ((w₃.destroyNode x).waitOpens x).k.deviceCalls = _
    rw [hc₅, hl₅, hk₄]
    simp only [Kernel.deviceDestroy, hlive]
    have hcalls : ∀ k : Kernel, ∀ s : Finset (ℕ × ℕ), ∀ b : KCall, b.ofDevice = true →
        Kernel.deviceCalls { k with nodes := s, calls := b :: k.calls } = b :: k.deviceCalls := by
      intro k s b hb
      simp [Kernel.deviceCalls, hb]
    rw [hcalls _ _ _ rfl, hl₃, hc₃, hn₃, hk₂]
    rfl

/-! ## Registering a device -/

/-- A registration of `x` that fails after its checks. -/
structure DeviceFailed (x : DevId) (id : DrvId) (w w' : World) : Prop where
  frame : DeviceFrame x w w'
  registered : (w'.dev x).registered = false
  drv : w'.drv = w.drv
  nodes : w'.k.nodes = w.k.nodes
  cdevs : x ∉ w.k.cdevs → w'.k.cdevs = w.k.cdevs
  calls : w'.k.deviceCalls = w.k.deviceCalls ∨
    w'.k.deviceCalls = .cdevDel x true :: .cdevAdd x :: w.k.deviceCalls ∨
    ∃ c, (w.drv id).cls = .obj c ∧ w'.k.deviceCalls =
      .cdevDel x true :: .deviceDestroy x (w.k.classLive c) true :: .cdevAdd x :: w.k.deviceCalls

/-- A registration of `x` in slot `i` of driver `id` that succeeds. -/
structure DeviceRegistered (x : DevId) (id : DrvId) (i : ℕ) (w w' : World) : Prop where
  frame : DeviceFrame x w w'
  slots : directory w' = (directory w).put id i x
  dev : (w'.dev x).registered = true ∧ (w'.dev x).driver = some id ∧ (w'.dev x).index = i ∧
    (w'.dev x).device.isSome ∧ (w'.dev x).devt = (w.drv id).slotDevt i
  node : ∃ c, (w.drv id).cls = .obj c ∧ (w.drv id).slotDevt i ∉ w.k.nodes.image Prod.snd ∧
    w'.k.nodes = insert (c, (w.drv id).slotDevt i) w.k.nodes
  cdevs : w'.k.cdevs = insert x w.k.cdevs
  calls : w'.k.deviceCalls =
    .slotWrite id (w.drv id).devices.isSome (decide (i < (w.drv id).count)) ::
    .cdevAdd x :: w.k.deviceCalls

theorem deviceCreateFile_undo {s : Finset (ℕ × ℕ)} {c devt : ℕ} (h : devt ∉ s.image Prod.snd) :
    (insert (c, devt) s).erase (c, devt) = s :=
  Finset.erase_insert fun hm => h (Finset.mem_image_of_mem Prod.snd hm)

/-- The part from `device_create` on, entered with the device bound and its cdev added. -/
theorem deviceRegisterNode_effect (w : World) (x : DevId) (id : DrvId) (a : DeviceArgs)
    (o : DeviceOutcomes) {k : Kernel} (hreg : (w.dev x).registered = false) (hk : w.k.cdevAdd x o.cdevAdd = .ok k) :
    let w₁ := (w.modDev x fun d => d.bind id (w.drv id) a).setK k
    (∀ e, (deviceRegisterNode w₁ id x o).2 = .error e →
      DeviceFailed x id w (deviceRegisterNode w₁ id x o).1) ∧
    ((deviceRegisterNode w₁ id x o).2 = .ok () →
      DeviceRegistered x id a.index w (deviceRegisterNode w₁ id x o).1) := by
  intro w₁
  have hframe : DeviceFrame x w w₁ := by
    refine (frame_modDev x w fun d => d.bind id (w.drv id) a).trans
      (frame_setK x _ k ?_ ?_ ?_ ?_ ?_) <;> rw [cdevAdd_ok hk] <;> rfl
  have hall := hframe.trans (deviceRegisterNode_frame x w₁ id o)
  have hdev : w₁.dev x = (w.dev x).bind id (w.drv id) a := by simp [w₁]
  have hk₁ : w₁.k = { w.k with cdevs := insert x w.k.cdevs, calls := .cdevAdd x :: w.k.calls } := by
    rw [← cdevAdd_ok hk]
    rfl
  cases hc : w₁.k.deviceCreate (w₁.drv id).cls (w₁.dev x).devt o.deviceCreate with
  | error e =>
    simp only [deviceRegisterNode, hc] at hall ⊢
    refine ⟨fun _ _ => ⟨hall, ?_, rfl, ?_, ?_, .inr (.inl ?_)⟩, fun h => by cases h⟩
    · simp [hdev, NvCharDev.bind, hreg]
    · simp [Kernel.cdevDel, hk₁]
    · simp [Kernel.cdevDel, hk₁]
    · simp [Kernel.cdevDel, hk₁, Kernel.deviceCalls, List.filter_cons, KCall.ofDevice]
  | ok k' =>
    obtain ⟨c, hcls, hfresh, hk'⟩ := deviceCreate_ok hc
    have hcls' : (w.drv id).cls = .obj c := hcls
    have hdevt : (w₁.dev x).devt = (w.drv id).slotDevt a.index := by simp [hdev, NvCharDev.bind]
    rw [hdevt] at hfresh hk'
    have hfresh' : (w.drv id).slotDevt a.index ∉ w.k.nodes.image Prod.snd := by
      simpa [hk₁] using hfresh
    cases hf : o.deviceCreateFile with
    | some e =>
      simp only [deviceRegisterNode, hc, hf] at hall ⊢
      refine ⟨fun _ _ => ⟨hall, ?_, rfl, ?_, ?_, .inr (.inr ⟨c, hcls', ?_⟩)⟩, fun h => by cases h⟩
      · simp [hdev, NvCharDev.bind, hreg]
      · simp only [World.setK_k, World.modDev_k, Kernel.cdevDel, hcls, hdevt, Kernel.deviceDestroy,
          hk', hk₁]
        exact deviceCreateFile_undo hfresh'
      · simp [Kernel.cdevDel, hcls, Kernel.deviceDestroy, hk', hk₁]
      · simp [Kernel.cdevDel, hcls, hdevt, Kernel.deviceDestroy, hk', hk₁, Kernel.deviceCalls,
          List.filter_cons, KCall.ofDevice, Kernel.classLive]
    | none =>
      simp only [deviceRegisterNode, hc, hf] at hall ⊢
      refine ⟨(fun e h => by cases h), fun _ => ?_⟩
      let w₂ := (w₁.setK k').modDev x fun d => { d with device := some (w₁.dev x).devt }
      let w₃ := w₂.debugfsAddDevice x o.debugfsDir
      have hk₃ : w₃.k = k' := (debugfsAddDevice_k w₂ x o.debugfsDir).1
      have hdrv₃ : w₃.drv = w.drv := (debugfsAddDevice_k w₂ x o.debugfsDir).2
      have hdir₃ : Foundations.Directory.table (directory w₃) = (directory w).table := by
        simp only [directory, Directory.ofFlags, hdrv₃]
      have hdev₃ : (w₃.dev x).driver = some id ∧ (w₃.dev x).index = a.index ∧
          (w₃.dev x).device.isSome ∧ (w₃.dev x).devt = (w.drv id).slotDevt a.index := by
        obtain ⟨v, -, hv⟩ := debugfsAddDevice_dev_self w₂ x o.debugfsDir
        simp only [w₃, hv]
        simp [w₂, hdev, NvCharDev.bind]
      have hindex : (w₁.dev x).index = a.index := by simp [hdev, NvCharDev.bind]
      rw [hindex] at hall ⊢
      refine ⟨hall, ?_, ?_, ⟨c, hcls', hfresh', ?_⟩, ?_, ?_⟩
      · refine Directory.ext ?_ (funext fun y => ?_)
        · change (directory (w₃.slotWrite id a.index (some x))).table = _
          rw [directory_slotWrite]
          simp [Directory.write, Directory.setTable, Directory.put, hdir₃]
        · by_cases hy : y = x
          · subst hy
            simp only [Directory.put, Function.update_self]
            exact home_eq_some.mpr ⟨by simp, by simpa using hdev₃.1, by simpa using hdev₃.2.1⟩
          · simp only [directory, Directory.ofFlags, Directory.put, hall.dev y hy,
              Function.update_of_ne hy]
      · simpa using hdev₃
      · change (w₃.slotWrite id a.index (some x)).k.nodes = _
        rw [slotWrite_k, Kernel.log_nodes, hk₃, hk', hk₁]
      · change (w₃.slotWrite id a.index (some x)).k.cdevs = _
        rw [slotWrite_k, Kernel.log_cdevs, hk₃, hk', hk₁]
      · change (w₃.slotWrite id a.index (some x)).k.deviceCalls = _
        rw [slotWrite_k, hk₃, hdrv₃]
        simp [Kernel.deviceCalls, List.filter_cons, KCall.ofDevice, hk', hk₁]

theorem deviceRegisterParent_cases (w : World) (a : DeviceArgs) (o : DeviceOutcomes) :
    ((deviceRegisterParent w a o).1 = w ∧ ∃ e, (deviceRegisterParent w a o).2 = .error e) ∨
    ∃ n id, (w.dev (.cdev n)).registered = false ∧ a.index < (w.drv id).count ∧
      ((∃ e, (deviceRegisterParent w a o).2 = .error e) ∧
          DeviceFailed (.cdev n) id w (deviceRegisterParent w a o).1 ∨
        (deviceRegisterParent w a o).2 = .ok () ∧
          DeviceRegistered (.cdev n) id a.index w (deviceRegisterParent w a o).1) := by
  obtain hrefused | ⟨id, n, hbinds, heq⟩ := deviceRegisterParent_inv w a o
  · exact .inl hrefused
  · refine .inr ⟨n, id, hbinds.free, hbinds.count, ?_⟩
    rw [heq]
    cases hk : (w.bound id n a).k.cdevAdd (.cdev n) o.cdevAdd with
    | error e =>
      simp only [registerBound, hk]
      refine .inl ⟨⟨e, rfl⟩, frame_modDev (.cdev n) w fun d => d.bind id (w.drv id) a, ?_, rfl,
        rfl, fun _ => rfl, .inl rfl⟩
      simp [World.bound, NvCharDev.bind, hbinds.free]
    | ok k =>
      simp only [registerBound, hk]
      obtain ⟨herr, hok⟩ := deviceRegisterNode_effect w (.cdev n) id a o hbinds.free hk
      cases hr : (deviceRegisterNode ((w.bound id n a).setK k) id (.cdev n) o).2 with
      | error e => exact .inl ⟨⟨e, rfl⟩, herr e hr⟩
      | ok u => exact .inr ⟨rfl, hok hr⟩

end LinuxDriverFramework.NvChar
