import LinuxDriverFramework.NvChar.ModuleLoads
import LinuxDriverFramework.NvChar.DeviceNumbers

/-! # A driver with one device, call by call

What the registration functions do to the kernel's objects for a driver with a dynamic major, one
slot and no devm.

* `KCall.proper`: a call that finds what it releases.
* `Same`: nothing is left behind.
* `driverRegister_spec`, `deviceRegister_spec`, `deviceUnregister_spec`, `driverUnregister_spec`. -/

namespace LinuxDriverFramework.NvChar.ModuleLoads
open Foundations
set_option autoImplicit false

/-- Debugfs directories are left out: their root may go before them (see `ModuleDirs`). -/
def KCall.proper : KCall → Bool
  | .regionRelease _ held => held
  | .classDestroy _ live => live
  | .cdevDel _ added => added
  | .deviceDestroy _ classLive nodeLive => classLive && nodeLive
  | .slotWrite _ tableLive inRange => tableLive && inRange
  | .prWarn _ _ => false
  | _ => true

def Proper (k : Kernel) : Prop := ∀ c ∈ k.calls, KCall.proper c = true

/-- The same objects are there; class numbers are not used twice. -/
structure Same (k k' : Kernel) : Prop where
  regions : k'.regions = k.regions
  classes : k'.classes = k.classes
  nodes : k'.nodes = k.nodes
  cdevs : k'.cdevs = k.cdevs
  refs : k'.refs = k.refs
  nextClass : k.nextClass ≤ k'.nextClass
  proper : Proper k → Proper k'

theorem Same.refl (k : Kernel) : Same k k := ⟨rfl, rfl, rfl, rfl, rfl, Nat.le_refl _, id⟩

theorem Same.trans {k₁ k₂ k₃ : Kernel} (h : Same k₁ k₂) (h' : Same k₂ k₃) : Same k₁ k₃ where
  regions := h'.regions.trans h.regions
  classes := h'.classes.trans h.classes
  nodes := h'.nodes.trans h.nodes
  cdevs := h'.cdevs.trans h.cdevs
  refs := h'.refs.trans h.refs
  nextClass := h.nextClass.trans h'.nextClass
  proper := h'.proper ∘ h.proper

/-- Nothing but the static variables of one module changes in the memory of the modules. -/
structure Outside (id : ℕ) (w w' : World) : Prop where
  files : w'.files = w.files
  miscRegistered : w'.miscRegistered = w.miscRegistered
  dev : ∀ y, y ≠ .cdev id → w'.dev y = w.dev y
  drv : ∀ i, i ≠ id → w'.drv i = w.drv i

theorem Outside.refl (id : ℕ) (w : World) : Outside id w w :=
  ⟨rfl, rfl, fun _ _ => rfl, fun _ _ => rfl⟩

theorem Outside.trans {id : ℕ} {w₁ w₂ w₃ : World} (h : Outside id w₁ w₂) (h' : Outside id w₂ w₃) :
    Outside id w₁ w₃ where
  files := h'.files.trans h.files
  miscRegistered := h'.miscRegistered.trans h.miscRegistered
  dev y hy := (h'.dev y hy).trans (h.dev y hy)
  drv i hi := (h'.drv i hi).trans (h.drv i hi)

theorem outside_of_driverFrame {id : ℕ} {w w' : World} (h : DriverFrame id w w') :
    Outside id w w' :=
  ⟨h.files, h.miscRegistered, fun y _ => by rw [h.dev], h.other⟩

theorem outside_of_deviceFrame {id : ℕ} {w w' : World} (h : DeviceFrame (.cdev id) w w')
    (hdrv : ∀ i, i ≠ id → w'.drv i = w.drv i) : Outside id w w' :=
  ⟨h.files, h.miscRegistered, h.dev, hdrv⟩

/-! ## `nv_char_driver_register` -/

/-- The driver is registered. -/
structure Reserved (w w' : World) (id : DrvId) (devt : ℕ) (root : Bool) : Prop where
  k : w'.k = { w.k with
    regions := ⟨.driver id, devt, 1⟩ :: w.k.regions
    classes := ⟨w.k.nextClass, (w.drv id).name⟩ :: w.k.classes
    nextClass := w.k.nextClass + 1
    calls := .classCreate w.k.nextClass :: .regionAcquire (.driver id) :: w.k.calls }
  free : w.k.regionFree devt 1 = true
  devt_ne : devt ≠ 0
  devt_eq : ∃ ma, devt = mkdev ma 0
  drv : w'.drv id = { w.drv id with
    devices := some emptyTable, tableMem := .own, devt := devt, cls := .obj w.k.nextClass }
  dfs : w'.dfs = w.dfs.init root

theorem releaseDriverRegion_head {k : Kernel} {id : DrvId} {drv : NvCharDriver} {r : Region}
    {l : List Region} (hk : k.regions = r :: l) (hr : r = ⟨.driver id, drv.devt, drv.count⟩)
    (hmajor : drv.major = 0) :
    k.releaseDriverRegion id drv =
      { k with regions := l, calls := .regionRelease (.driver id) true :: k.calls } := by
  simp only [Kernel.releaseDriverRegion, hmajor, ne_eq, not_true_eq_false, if_false,
    Kernel.unregisterRegion, hk, hr, List.mem_cons, true_or, decide_true]
  rw [List.eraseP_cons_of_pos (by simp)]

theorem driverRegister_spec (w : World) (id : DrvId) (o : RegisterOutcomes)
    (hcount : (w.drv id).count = 1) (hmajor : (w.drv id).major = 0) :
    (∃ e, (driverRegister w (some id) o).2 = .error e ∧
      Same w.k (driverRegister w (some id) o).1.k ∧
      (driverRegister w (some id) o).1.dfs = w.dfs) ∨
    ((driverRegister w (some id) o).2 = .ok () ∧
      ∃ devt, Reserved w (driverRegister w (some id) o).1 id devt o.debugfsRoot) := by
  rcases driverRegister_cases w id o with heq | ⟨e, heq⟩ | ⟨k, devt, hk, heq⟩
  · rw [heq]
    exact .inl ⟨_, rfl, .refl _, rfl⟩
  · rw [heq]
    exact .inl ⟨e, rfl, .refl _, rfl⟩
  · rw [heq]
    have hdevt : devt ≠ 0 ∧ ∃ ma, devt = mkdev ma 0 := by
      have halloc := hk
      rw [Kernel.acquireRegion, if_neg (by rw [hmajor]; exact not_not.mpr rfl)] at halloc
      obtain ⟨hd, hlt, heq, -⟩ := allocRegion_ok halloc
      exact ⟨heq ▸ mkdev_ne_zero hd hlt, o.dynMajor, heq⟩
    obtain ⟨-, hfree, hk'⟩ := acquireRegion_ok hk
    rw [hcount] at hfree hk'
    have hname : ((w.reserve id k devt).drv id).name = (w.drv id).name := by
      simp [World.reserve]
    unfold driverRegisterClass
    cases hc : (w.reserve id k devt).k.classCreate ((w.reserve id k devt).drv id).name
        o.classCreate with
    | error e =>
      left
      refine ⟨e, rfl, ?_, rfl⟩
      simp only [World.modDrv_k, World.setK_k]
      rw [releaseDriverRegion_head (r := ⟨.driver id, devt, 1⟩) (l := w.k.regions)
        (by simp [World.reserve, hk']) (by simp [World.reserve, hcount])
        (by simp [World.reserve, hmajor])]
      have hk'' : (w.reserve id k devt).k = k := rfl
      rw [hk'', hk']
      exact ⟨rfl, rfl, rfl, rfl, rfl, Nat.le_refl _, fun h =>
        List.forall_mem_cons.mpr ⟨rfl, List.forall_mem_cons.mpr ⟨rfl, h⟩⟩⟩
    | ok p =>
      obtain ⟨k₁, c⟩ := p
      obtain ⟨-, rfl, hk₁⟩ := classCreate_ok hc
      have hk'' : (w.reserve id k devt).k = k := rfl
      rw [hk'', hname, hk'] at hk₁
      refine .inr ⟨rfl, devt, ⟨?_, hfree, hdevt.1, hdevt.2, ?_, rfl⟩⟩
      · exact hk₁
      · rw [hk'', hk']
        simp [World.reserve]

/-! ## `nv_char_device_register` -/

/-- The device is registered in the only slot. -/
structure Added (k : Kernel) (drv : DrvId → NvCharDriver) (dev : NvCharDev) (w' : World) (id : DrvId)
    (n c : ℕ) : Prop where
  regions : w'.k.regions = k.regions
  classes : w'.k.classes = k.classes
  nextClass : w'.k.nextClass = k.nextClass
  refs : w'.k.refs = k.refs
  nodes : w'.k.nodes = insert (c, n) k.nodes
  node_free : (c, n) ∉ k.nodes
  cdevs : w'.k.cdevs = insert (.cdev id) k.cdevs
  proper : Proper k → Proper w'.k
  drv : w'.drv = Function.update drv id
    { drv id with devices := some (Function.update emptyTable 0 (some (.cdev id))) }
  dev : ∃ dir, w'.dev (.cdev id) =
    { dev with device := some n, debugfsDir := dir, registered := true }

theorem slotDevt_zero {drv : NvCharDriver} (h : ∃ ma, drv.devt = mkdev ma 0) :
    drv.slotDevt 0 = drv.devt := by
  obtain ⟨ma, hma⟩ := h
  rw [slotDevt_eq hma, Nat.or_zero]
  exact Nat.mod_eq_of_lt (hma ▸ mkdev_lt ma 0)

/-- The cdev is added, and deleted after steps that left nothing behind. -/
theorem same_cdevDel {k k₁ k₂ : Kernel} {x : DevId} (hx : x ∉ k.cdevs)
    (hk₁ : k₁ = { k with cdevs := insert x k.cdevs, calls := .cdevAdd x :: k.calls })
    (h : Same k₁ k₂) : Same k (k₂.cdevDel x) := by
  have hin : x ∈ k₂.cdevs := by
    rw [h.cdevs, hk₁]
    exact Finset.mem_insert_self x k.cdevs
  have hback : k₂.cdevs.erase x = k.cdevs := by
    rw [h.cdevs, hk₁]
    exact Finset.erase_insert hx
  subst hk₁
  exact ⟨h.regions, h.classes, h.nodes, hback, h.refs, h.nextClass, fun hp =>
    List.forall_mem_cons.mpr ⟨decide_eq_true hin, h.proper (List.forall_mem_cons.mpr ⟨rfl, hp⟩)⟩⟩

/-- The class device is created, and destroyed again. -/
theorem same_deviceDestroy {k k₁ : Kernel} {x : DevId} {c n : ℕ} (hlive : k.classLive c = true)
    (hn : (c, n) ∉ k.nodes) (hk₁ : k₁ = { k with nodes := insert (c, n) k.nodes }) :
    Same k (k₁.deviceDestroy x (.obj c) n) := by
  subst hk₁
  refine ⟨rfl, rfl, Finset.erase_insert hn, rfl, rfl, Nat.le_refl _, fun hp =>
    List.forall_mem_cons.mpr ⟨?_, hp⟩⟩
  exact Bool.and_eq_true_iff.mpr ⟨hlive, decide_eq_true (Finset.mem_insert_self _ _)⟩

theorem debugfsAddDevice_rest (w : World) (x : DevId) (ok : Bool) :
    (w.debugfsAddDevice x ok).drv = w.drv ∧ (w.debugfsAddDevice x ok).k = w.k := by
  unfold World.debugfsAddDevice
  split <;> exact ⟨rfl, rfl⟩

/-- The only slot of a fresh table takes the device. -/
theorem slotWrite_fresh {w : World} {id : DrvId} (hcount : (w.drv id).count = 1)
    (htable : (w.drv id).devices = some emptyTable) :
    w.slotWrite id 0 (some (.cdev id)) =
      ((w.touchTable id).setK (w.k.log (.slotWrite id true true))).modDrv id fun d =>
        { d with devices := some (Function.update emptyTable 0 (some (.cdev id))) } := by
  simp [World.slotWrite, htable, hcount]

/-- From `device_create` on, where nothing is refused. -/
theorem deviceRegisterNode_added {w : World} {id : DrvId} {o : DeviceOutcomes} {c n : ℕ}
    {k₁ : Kernel} (hcls : (w.drv id).cls = .obj c) (hn : (w.dev (.cdev id)).devt = n)
    (hindex : (w.dev (.cdev id)).index = 0) (hcount : (w.drv id).count = 1)
    (htable : (w.drv id).devices = some emptyTable)
    (hc : w.k.deviceCreate (.obj c) n o.deviceCreate = .ok k₁) (hf : o.deviceCreateFile = none) :
    (deviceRegisterNode w id (.cdev id) o).2 = .ok () ∧
    (deviceRegisterNode w id (.cdev id) o).1.k = k₁.log (.slotWrite id true true) ∧
    (deviceRegisterNode w id (.cdev id) o).1.drv = Function.update w.drv id
      { w.drv id with devices := some (Function.update emptyTable 0 (some (.cdev id))) } := by
  simp only [deviceRegisterNode, hcls, hn, hindex, hc, hf]
  generalize hw' : World.debugfsAddDevice _ _ _ = w'
  have hdrv' : w'.drv = w.drv := by
    rw [← hw', (debugfsAddDevice_rest _ _ _).1]
    rfl
  have hk' : w'.k = k₁ := by
    rw [← hw', (debugfsAddDevice_rest _ _ _).2]
    rfl
  rw [slotWrite_fresh (by rw [hdrv']; exact hcount) (by rw [hdrv']; exact htable)]
  refine ⟨trivial, ?_, ?_⟩
  · change w'.k.log _ = _
    rw [hk']
  · change Function.update w'.drv id { w'.drv id with devices := _ } = _
    rw [hdrv', ← hcls]

/-- From `device_create` on. -/
theorem registerNode_spec {w : World} {k : Kernel} {m : Mod} (o : DeviceOutcomes) {c n : ℕ}
    (hcdev : .cdev m.id ∉ k.cdevs)
    (hk : w.k = { k with
      cdevs := insert (.cdev m.id) k.cdevs, calls := .cdevAdd (.cdev m.id) :: k.calls })
    (hlive : k.classLive c = true) (hcls : (w.drv m.id).cls = .obj c)
    (hn : (w.dev (.cdev m.id)).devt = n) (hindex : (w.dev (.cdev m.id)).index = 0)
    (hcount : (w.drv m.id).count = 1) (htable : (w.drv m.id).devices = some emptyTable) :
    (∃ e, (deviceRegisterNode w m.id (.cdev m.id) o).2 = .error e ∧
      Same k (deviceRegisterNode w m.id (.cdev m.id) o).1.k ∧
      (deviceRegisterNode w m.id (.cdev m.id) o).1.drv = w.drv ∧
      (deviceRegisterNode w m.id (.cdev m.id) o).1.dfs = w.dfs) ∨
    ((deviceRegisterNode w m.id (.cdev m.id) o).2 = .ok () ∧
      Added k w.drv (w.dev (.cdev m.id)) (deviceRegisterNode w m.id (.cdev m.id) o).1 m.id n c ∧
      (deviceRegisterNode w m.id (.cdev m.id) o).1.dfs = w.dfs) := by
  have hlive' : w.k.classLive c = true := by
    rw [hk]
    exact hlive
  have hframe := deviceRegisterNode_frame (.cdev m.id) w m.id o
  have hdev := deviceRegisterNode_dev w m.id (.cdev m.id) o
  cases hc : w.k.deviceCreate (.obj c) n o.deviceCreate with
  | error e =>
    simp only [deviceRegisterNode, hcls, hn, hc]
    exact .inl ⟨e, rfl, same_cdevDel hcdev hk (.refl w.k), rfl, rfl⟩
  | ok k₁ =>
    obtain ⟨c', hc', hfree, hk₁⟩ := deviceCreate_ok hc
    obtain rfl := ClassPtr.obj.inj hc'
    have hfree' : (c, n) ∉ w.k.nodes := fun hin => hfree (Finset.mem_image_of_mem Prod.snd hin)
    cases hf : o.deviceCreateFile with
    | some e =>
      simp only [deviceRegisterNode, hcls, hn, hc, hf]
      have hsame := same_deviceDestroy (x := .cdev m.id) hlive' hfree' hk₁
      exact .inl ⟨e, rfl, same_cdevDel hcdev hk hsame, rfl, rfl⟩
    | none =>
      obtain ⟨hok, hk', hdrv'⟩ := deviceRegisterNode_added hcls hn hindex hcount htable hc hf
      rw [hok, World.nodeDev] at hdev
      refine .inr ⟨hok, ⟨?_, ?_, ?_, ?_, ?_, ?_, ?_, fun hp => ?_, hdrv',
        w.addedDir (.cdev m.id) o.debugfsDir, ?_⟩, hframe.dfs⟩
      · rw [hframe.regions, hk]
      · rw [hframe.classes, hk]
      · rw [hframe.nextClass, hk]
      · rw [hframe.refs, hk]
      · rw [hk', hk₁, hk]
        rfl
      · rw [hk] at hfree'
        exact hfree'
      · rw [hk', hk₁, hk]
        rfl
      · rw [hk', hk₁, hk]
        exact List.forall_mem_cons.mpr ⟨rfl, List.forall_mem_cons.mpr ⟨rfl, hp⟩⟩
      · rw [hdev, hn]

theorem deviceRegister_spec {w : World} {m : Mod} {v : CdevValues} (o : DeviceOutcomes) {c : ℕ}
    (hcount : (w.drv m.id).count = 1) (hdevt : ∃ ma, (w.drv m.id).devt = mkdev ma 0)
    (hcls : (w.drv m.id).cls = .obj c) (hlive : w.k.classLive c = true)
    (htable : (w.drv m.id).devices = some emptyTable)
    (hnew : (w.dev (.cdev m.id)).registered = false) (hcdev : .cdev m.id ∉ w.k.cdevs) :
    (∃ e, (deviceRegisterParent w (deviceArgs m v) o).2 = .error e ∧
      Same w.k (deviceRegisterParent w (deviceArgs m v) o).1.k ∧
      (deviceRegisterParent w (deviceArgs m v) o).1.drv = w.drv ∧
      (deviceRegisterParent w (deviceArgs m v) o).1.dfs = w.dfs) ∨
    ((deviceRegisterParent w (deviceArgs m v) o).2 = .ok () ∧
      Added w.k w.drv ((w.dev (.cdev m.id)).bind m.id (w.drv m.id) (deviceArgs m v))
        (deviceRegisterParent w (deviceArgs m v) o).1 m.id (w.drv m.id).devt c ∧
      (deviceRegisterParent w (deviceArgs m v) o).1.dfs = w.dfs) := by
  have hbinds : Binds w m.id 0 m.id (deviceArgs m v) :=
    ⟨rfl, rfl, rfl, rfl, by rw [hcount]; exact Nat.one_pos, hnew⟩
  rw [hbinds.register o, registerBound]
  have hdev : (w.bound m.id m.id (deviceArgs m v)).dev (.cdev m.id) =
      (w.dev (.cdev m.id)).bind m.id (w.drv m.id) (deviceArgs m v) := Function.update_self _ _ _
  have hslot := slotDevt_zero hdevt
  cases ha : (w.bound m.id m.id (deviceArgs m v)).k.cdevAdd (.cdev m.id) o.cdevAdd with
  | error e => exact .inl ⟨e, rfl, .refl w.k, rfl, rfl⟩
  | ok k₁ =>
    have hspec := registerNode_spec (w := (w.bound m.id m.id (deviceArgs m v)).setK k₁) (k := w.k)
      o (c := c) (n := (w.drv m.id).devt) hcdev (cdevAdd_ok ha) hlive hcls
      (by rw [World.setK_dev, hdev]; exact hslot) (by rw [World.setK_dev, hdev]; rfl) hcount htable
    rw [World.setK_dev, hdev] at hspec
    exact hspec

/-! ## `nv_char_device_unregister` and `nv_char_driver_unregister` -/

/-- A driver with its device, both registered. -/
structure Running (m : Mod) (devt c : ℕ) (w : World) : Prop where
  count : (w.drv m.id).count = 1
  major : (w.drv m.id).major = 0
  managed : (w.drv m.id).devmManaged = false
  drv_devt : (w.drv m.id).devt = devt
  cls : (w.drv m.id).cls = .obj c
  table : (w.drv m.id).devices = some (Function.update emptyTable 0 (some (.cdev m.id)))
  registered : (w.dev (.cdev m.id)).registered = true
  driver : (w.dev (.cdev m.id)).driver = some m.id
  index : (w.dev (.cdev m.id)).index = 0
  dev_devt : (w.dev (.cdev m.id)).devt = devt
  device : (w.dev (.cdev m.id)).device = some devt
  devt_ne : devt ≠ 0

theorem driverUnregister_spec (w : World) (id : DrvId) {c : ℕ} (devt : ℕ)
    (hcount : (w.drv id).count = 1) (hmajor : (w.drv id).major = 0) (hmanaged : (w.drv id).devmManaged = false)
    (hdevt : (w.drv id).devt = devt) (hne : devt ≠ 0) (hcls : (w.drv id).cls = .obj c)
    (htable : (w.drv id).devices = some emptyTable) :
    (driverUnregister w (some id)).k =
      (w.k.classDestroy c).unregisterRegion (.driver id) devt 1 ∧
    (driverUnregister w (some id)).dfs = w.dfs.exit ∧
    Outside id w (driverUnregister w (some id)) ∧
    (driverUnregister w (some id)).dev = w.dev := by
  have hloop : unregisterSlots w id = w.touchTable id := by
    simp [unregisterSlots, hcount, unregisterSlot, htable, emptyTable]
  have hdrop : w.dropTable id =
      (w.touchTable id).modDrv id fun d => { d with devices := none } := by
    rw [World.dropTable, if_pos (by rw [htable]; rfl), hloop]
  simp only [driverUnregister, hdrop, World.modDrv_drv, World.touchTable_drv, World.touchTable_k,
    Function.update_self, hmanaged, Bool.false_eq_true, if_false, World.modDrv_k, World.setK_k,
    Kernel.dropDriver, hcls, hdevt, hne, ne_eq, not_false_eq_true, if_true,
    Kernel.releaseDriverRegion, hmajor, not_true_eq_false, hcount]
  refine ⟨trivial, rfl, ⟨rfl, rfl, fun _ _ => rfl, fun i hi => ?_⟩, rfl⟩
  simp [Function.update_of_ne hi]

theorem debugfsRemoveDevice_k (w : World) (x : DevId) :
    ∃ l, (∀ c ∈ l, KCall.proper c = true) ∧
      (w.debugfsRemoveDevice x).k = { w.k with calls := l ++ w.k.calls } ∧
      (w.debugfsRemoveDevice x).drv = w.drv := by
  unfold World.debugfsRemoveDevice
  split
  · rename_i r _
    exact ⟨[.dirRemove x (decide (r ∉ w.dfs.removed))], List.forall_mem_singleton.mpr rfl, rfl, rfl⟩
  · exact ⟨[], fun c hc => absurd hc List.not_mem_nil, rfl, rfl⟩

/-- The device is gone, and the slot is empty again. -/
structure Removed (w w' : World) (m : Mod) (devt c : ℕ) : Prop where
  nodes : w'.k.nodes = w.k.nodes.erase (c, devt)
  cdevs : w'.k.cdevs = w.k.cdevs.erase (.cdev m.id)
  proper : Proper w.k → Proper w'.k
  drv : w'.drv = Function.update w.drv m.id { w.drv m.id with devices := some emptyTable }

theorem deviceUnregister_spec {w : World} {m : Mod} {devt c : ℕ} (h : Running m devt c w)
    (hopens : (w.dev (.cdev m.id)).opens = 0) (hlive : w.k.classLive c = true)
    (hnode : (c, devt) ∈ w.k.nodes) (hcdev : .cdev m.id ∈ w.k.cdevs) :
    Removed w (deviceUnregister w (.cdev m.id)) m devt c := by
  have hempty : Function.update (Function.update emptyTable 0 (some (DevId.cdev m.id))) 0 none =
      emptyTable := by
    rw [Function.update_idem]
    exact Function.update_eq_self 0 emptyTable
  have hslot : ((w.modDev (.cdev m.id) fun d => { d with removing := true }).clearSlot (.cdev m.id)) =
      (((w.modDev (.cdev m.id) fun d => { d with removing := true }).touchTable m.id).setK
        (w.k.log (.slotWrite m.id true true))).modDrv m.id fun d =>
          { d with devices := some emptyTable } := by
    simp [World.clearSlot, World.slotWrite, h.driver, h.table, h.index, h.count, hempty]
  simp only [deviceUnregister, h.registered, if_true, hslot]
  generalize hw₁ : World.modDrv _ m.id _ = w₁
  have hk₁ : w₁.k = w.k.log (.slotWrite m.id true true) := by rw [← hw₁]; rfl
  have hdrv₁ : w₁.drv =
      Function.update w.drv m.id { w.drv m.id with devices := some emptyTable } := by
    rw [← hw₁]
    rfl
  have hdev₁ : w₁.dev (.cdev m.id) = { w.dev (.cdev m.id) with removing := true } := by
    rw [← hw₁]
    exact Function.update_self _ _ _
  obtain ⟨l, hl, hk₂, hdrv₂⟩ := debugfsRemoveDevice_k w₁ (.cdev m.id)
  have hdev₂ := debugfsRemoveDevice_dev_self w₁ (.cdev m.id)
  generalize w₁.debugfsRemoveDevice (.cdev m.id) = w₂ at *
  rw [hk₁] at hk₂
  rw [hdev₁] at hdev₂
  have hlive₂ : w₂.k.classLive c = true := by
    rw [hk₂]
    exact hlive
  have hnode₂ : (c, devt) ∈ w₂.k.nodes := by
    rw [hk₂]
    exact hnode
  have hdestroy : w₂.destroyNode (.cdev m.id) =
      (w₂.setK (w₂.k.deviceDestroy (.cdev m.id) (.obj c) devt)).modDev (.cdev m.id) fun d =>
        { d with device := none } := by
    simp only [World.destroyNode, hdev₂, h.device, h.driver, hdrv₂, hdrv₁, Function.update_self,
      h.cls, h.dev_devt]
  have hwait : (w₂.destroyNode (.cdev m.id)).waitOpens (.cdev m.id) =
      w₂.destroyNode (.cdev m.id) := by
    rw [World.waitOpens, if_pos]
    rw [hdestroy]
    simp [hdev₂, hopens]
  rw [hwait, hdestroy]
  refine ⟨?_, ?_, fun hp => ?_, ?_⟩
  · simp [World.cdevGone, Kernel.cdevDel, Kernel.deviceDestroy, hk₂, Kernel.log]
  · simp [World.cdevGone, Kernel.cdevDel, Kernel.deviceDestroy, hk₂, Kernel.log]
  · refine List.forall_mem_cons.mpr ⟨?_, List.forall_mem_cons.mpr ⟨?_, ?_⟩⟩
    · exact decide_eq_true (by simpa [Kernel.deviceDestroy, hk₂] using hcdev)
    · exact Bool.and_eq_true_iff.mpr ⟨hlive₂, decide_eq_true hnode₂⟩
    · rw [hk₂]
      exact List.forall_mem_append.mpr ⟨hl, List.forall_mem_cons.mpr ⟨rfl, hp⟩⟩
  · exact hdrv₂.trans hdrv₁

/-! ## Both together -/

/-- The root is there as long as it is counted. -/
def Rooted (f : Debugfs) : Prop := f.root.isSome = true ↔ f.refcnt ≠ 0

theorem Rooted.init {f : Debugfs} (h : Rooted f) (ok : Bool) : Rooted (f.init ok) := by
  unfold Debugfs.init
  split
  · rename_i hne
    exact iff_of_true (h.mpr hne) (Nat.succ_ne_zero _)
  · split <;> simp [Rooted]

theorem Rooted.exit {f : Debugfs} (h : Rooted f) : Rooted f.exit := by
  unfold Debugfs.exit
  split
  · exact h
  · rename_i hne
    split
    · simp [Rooted]
    · rename_i hne'
      exact iff_of_true (h.mpr hne) hne'

theorem refcnt_init_le (f : Debugfs) (ok : Bool) : (f.init ok).refcnt ≤ f.refcnt + 1 := by
  unfold Debugfs.init
  split
  · exact Nat.le_refl _
  · split <;> simp

theorem refcnt_exit (f : Debugfs) : f.exit.refcnt = f.refcnt - 1 := by
  unfold Debugfs.exit
  split
  · omega
  · split
    · rename_i h
      exact h.symm
    · rfl

structure Both (m : Mod) (name : Option String) (root : Bool) (w w' : World) (devt : ℕ) : Prop where
  regions : w'.k.regions = ⟨.driver m.id, devt, 1⟩ :: w.k.regions
  free : w.k.regionFree devt 1 = true
  classes : w'.k.classes = ⟨w.k.nextClass, name⟩ :: w.k.classes
  nextClass : w'.k.nextClass = w.k.nextClass + 1
  nodes : w'.k.nodes = insert (w.k.nextClass, devt) w.k.nodes
  node_free : (w.k.nextClass, devt) ∉ w.k.nodes
  cdevs : w'.k.cdevs = insert (.cdev m.id) w.k.cdevs
  refs : w'.k.refs = w.k.refs
  proper : Proper w.k → Proper w'.k
  running : Running m devt w.k.nextClass w'
  owner : (w'.dev (.cdev m.id)).owner = some m.id
  dfs : w'.dfs = w.dfs.init root

/-- A driver whose device could not be added leaves nothing either. -/
theorem same_dropDriver {k k₁ : Kernel} {id : DrvId} {devt : ℕ} {name : Option String}
    (hbelow : ∀ c ∈ k.classes, c.id < k.nextClass)
    (h : Same { k with
      regions := ⟨.driver id, devt, 1⟩ :: k.regions
      classes := ⟨k.nextClass, name⟩ :: k.classes
      nextClass := k.nextClass + 1
      calls := .classCreate k.nextClass :: .regionAcquire (.driver id) :: k.calls } k₁) :
    Same k ((k₁.classDestroy k.nextClass).unregisterRegion (.driver id) devt 1) := by
  have hregions := h.regions
  have hclasses := h.classes
  have hlive : k₁.classLive k.nextClass = true := by
    simp [Kernel.classLive, hclasses]
  have hheld : (⟨.driver id, devt, 1⟩ : Region) ∈ k₁.regions := by
    rw [hregions]
    exact List.mem_cons_self
  have hback : k₁.classes.filter (·.id != k.nextClass) = k.classes := by
    rw [hclasses, List.filter_cons_of_neg (by simp), List.filter_eq_self]
    exact fun c hc => bne_iff_ne.mpr (hbelow c hc).ne
  refine ⟨?_, hback, h.nodes, h.cdevs, h.refs, Nat.le_of_succ_le h.nextClass, fun hp => ?_⟩
  · change k₁.regions.eraseP _ = k.regions
    rw [hregions, List.eraseP_cons_of_pos (by simp)]
  · refine List.forall_mem_cons.mpr ⟨decide_eq_true hheld, List.forall_mem_cons.mpr ⟨hlive, ?_⟩⟩
    exact h.proper (List.forall_mem_cons.mpr ⟨rfl, List.forall_mem_cons.mpr ⟨rfl, hp⟩⟩)

theorem fillDriver_drv {w : World} {m : Mod} (v : CdevValues) (hdrv : w.drv m.id = drvZero) :
    (fillDriver m v w).drv m.id = { drvZero with
      name := some v.drvName, owner := some m.id, count := 1, devMode := v.devMode } := by
  rw [← hdrv]
  exact Function.update_self _ _ _

theorem outside_fillDriver (w : World) (m : Mod) (v : CdevValues) :
    Outside m.id w (fillDriver m v w) :=
  ⟨rfl, rfl, fun _ _ => rfl, fun _ hi => Function.update_of_ne hi _ _⟩

/-- Unregistering a driver none of whose devices were added gives back all it reserved. -/
theorem Reserved.undone {w w₁ w₂ : World} {id : DrvId} {devt : ℕ} {root : Bool}
    (h : Reserved w w₁ id devt root) (hcount : (w.drv id).count = 1)
    (hmajor : (w.drv id).major = 0) (hmanaged : (w.drv id).devmManaged = false)
    (hbelow : ∀ c ∈ w.k.classes, c.id < w.k.nextClass)
    (hsame : Same w₁.k w₂.k) (hdrv : w₂.drv = w₁.drv) (hdfs : w₂.dfs = w₁.dfs) :
    Outside id w₂ (driverUnregister w₂ (some id)) ∧
    (driverUnregister w₂ (some id)).dev = w₂.dev ∧
    Same w.k (driverUnregister w₂ (some id)).k ∧
    (driverUnregister w₂ (some id)).dfs = (w.dfs.init root).exit := by
  have hd : w₂.drv id = { w.drv id with
      devices := some emptyTable, tableMem := .own, devt := devt, cls := .obj w.k.nextClass } := by
    rw [hdrv]
    exact h.drv
  obtain ⟨hk₃, hdfs₃, hout₃, hdev₃⟩ := driverUnregister_spec w₂ id (c := w.k.nextClass) devt
    (by rw [hd]; exact hcount) (by rw [hd]; exact hmajor) (by rw [hd]; exact hmanaged)
    (by rw [hd]) h.devt_ne (by rw [hd]) (by rw [hd])
  refine ⟨hout₃, hdev₃, ?_, ?_⟩
  · rw [hk₃]
    rw [h.k] at hsame
    exact same_dropDriver hbelow hsame
  · rw [hdfs₃, hdfs, h.dfs]

/-- A reserved driver and its added device are both there, and the driver is running. -/
theorem Reserved.both {w w₁ w₂ : World} {m : Mod} {v : CdevValues} {devt : ℕ} {root : Bool}
    (h : Reserved (fillDriver m v w) w₁ m.id devt root) (hdrv : w.drv m.id = drvZero)
    (hadd : Added w₁.k w₁.drv ((w₁.dev (.cdev m.id)).bind m.id (w₁.drv m.id) (deviceArgs m v)) w₂
      m.id (w₁.drv m.id).devt w.k.nextClass) (hdfs : w₂.dfs = w₁.dfs) :
    Both m (some v.drvName) root w w₂ devt := by
  have hdrv₁ := h.drv
  have hk₁ := h.k
  rw [fillDriver_drv v hdrv] at hdrv₁ hk₁
  have hdevt₁ : (w₁.drv m.id).devt = devt := by rw [hdrv₁]
  have hslot : (w₁.drv m.id).slotDevt 0 = devt :=
    (slotDevt_zero (hdevt₁ ▸ h.devt_eq)).trans hdevt₁
  obtain ⟨dir, hdev₂⟩ := hadd.dev
  have hd := congrFun hadd.drv m.id
  rw [Function.update_self, hdrv₁] at hd
  have hregions := hadd.regions
  have hclasses := hadd.classes
  have hnext := hadd.nextClass
  have hnodes := hadd.nodes
  have hfree := hadd.node_free
  have hcdevs := hadd.cdevs
  have hrefs := hadd.refs
  rw [hk₁] at hregions hclasses hnext hnodes hfree hcdevs hrefs
  rw [hdevt₁] at hnodes hfree
  refine ⟨hregions, h.free, hclasses, hnext, hnodes, hfree, hcdevs, hrefs,
    fun hp => hadd.proper ?_, ?_, ?_, hdfs.trans h.dfs⟩
  · rw [hk₁]
    exact List.forall_mem_cons.mpr ⟨rfl, List.forall_mem_cons.mpr ⟨rfl, hp⟩⟩
  · exact
      { count := by rw [hd]
        major := by rw [hd]; rfl
        managed := by rw [hd]; rfl
        drv_devt := by rw [hd]
        cls := by rw [hd]; rfl
        table := by rw [hd]
        registered := by rw [hdev₂]
        driver := by rw [hdev₂]; rfl
        index := by rw [hdev₂]; rfl
        dev_devt := by rw [hdev₂]; exact hslot
        device := by rw [hdev₂, hdevt₁]
        devt_ne := h.devt_ne }
  · rw [hdev₂]
    change (w₁.drv m.id).owner = _
    rw [hdrv₁]

theorem registerBoth_spec {w : World} {m : Mod} {v : CdevValues} (o : InitOutcomes)
    (hdrv : w.drv m.id = drvZero) (hdev : w.dev (.cdev m.id) = .zero)
    (hcdev : .cdev m.id ∉ w.k.cdevs) (hbelow : ∀ c ∈ w.k.classes, c.id < w.k.nextClass) :
    Outside m.id w (registerBoth m v w o).1 ∧
    ((registerBoth m v w o).1.dev (.cdev m.id)).opens = 0 ∧
    ((∃ e, (registerBoth m v w o).2 = .error e ∧ Same w.k (registerBoth m v w o).1.k ∧
        (registerBoth m v w o).1.dfs.refcnt ≤ w.dfs.refcnt ∧
        (Rooted w.dfs → Rooted (registerBoth m v w o).1.dfs)) ∨
      ((registerBoth m v w o).2 = .ok () ∧ ∃ devt,
        Both m (some v.drvName) o.driver.debugfsRoot w (registerBoth m v w o).1 devt)) := by
  have hfill := outside_fillDriver w m v
  have hfilled := fillDriver_drv v hdrv
  have hframe := driverRegister_frame (fillDriver m v w) m.id o.driver
  have hspec := driverRegister_spec (fillDriver m v w) m.id o.driver
    (by rw [hfilled]) (by rw [hfilled]; rfl)
  unfold registerBoth
  generalize driverRegister (fillDriver m v w) (some m.id) o.driver = r₁ at hframe hspec
  obtain ⟨w₁, ret₁⟩ := r₁
  have hout₁ := hfill.trans (outside_of_driverFrame hframe)
  have hdev₁ : w₁.dev (.cdev m.id) = .zero := by
    rw [hframe.dev]
    exact hdev
  rcases hspec with ⟨e, rfl, hsame, hdfs⟩ | ⟨rfl, devt, hres⟩
  · refine ⟨hout₁, ?_, .inl ⟨e, rfl, hsame, ?_, ?_⟩⟩
    · change (w₁.dev (.cdev m.id)).opens = 0
      rw [hdev₁]
      rfl
    · change w₁.dfs.refcnt ≤ _
      rw [hdfs]
      exact Nat.le_refl _
    · change _ → Rooted w₁.dfs
      rw [hdfs]
      exact id
  -- the driver is reserved: its device is added, or the driver is taken back
  · have hdrv₁ := hres.drv
    have hk₁ := hres.k
    rw [hfilled] at hdrv₁ hk₁
    have hcdev₁ : .cdev m.id ∉ w₁.k.cdevs := by
      rw [hk₁]
      exact hcdev
    have hlive₁ : w₁.k.classLive w.k.nextClass = true := by
      rw [hk₁]
      exact List.any_eq_true.mpr ⟨_, List.mem_cons_self, beq_self_eq_true _⟩
    have hdevt₁ : (w₁.drv m.id).devt = devt := by rw [hdrv₁]
    have hspec₂ := deviceRegister_spec (w := w₁) (m := m) (v := v) o.device (c := w.k.nextClass)
      (by rw [hdrv₁]) (hdevt₁ ▸ hres.devt_eq) (by rw [hdrv₁]; rfl) hlive₁ (by rw [hdrv₁])
      (by rw [hdev₁]; rfl) hcdev₁
    have hframe₂ := deviceRegisterParent_frame m.id w₁ (deviceArgs m v) o.device rfl
    have hrebind := (rebind_deviceRegister (w := w₁) (o := o.device) (x := .cdev m.id)
      (Binds.rebinds (i := 0) (a := deviceArgs m v)
        ⟨rfl, rfl, rfl, rfl, by rw [hdrv₁]; exact Nat.one_pos, by rw [hdev₁]; rfl⟩ o.device)).reset
    simp only
    generalize deviceRegisterParent w₁ (deviceArgs m v) o.device = r₂ at hspec₂ hframe₂ hrebind
    obtain ⟨w₂, ret₂⟩ := r₂
    rcases hspec₂ with ⟨e, rfl, hsame, hdrv₂, hdfs₂⟩ | ⟨rfl, hadd, hdfs₂⟩
    · have hout₂ := hout₁.trans (outside_of_deviceFrame hframe₂ fun i _ => congrFun hdrv₂ i)
      obtain ⟨hout₃, hdev₃, hsame₃, hdfs₃⟩ := hres.undone (by rw [hfilled]) (by rw [hfilled]; rfl)
        (by rw [hfilled]; rfl) hbelow hsame hdrv₂ hdfs₂
      refine ⟨hout₂.trans hout₃, by rw [hdev₃]; exact hrebind, .inl ⟨e, rfl, hsame₃, ?_, ?_⟩⟩
      · rw [hdfs₃, refcnt_exit]
        exact Nat.sub_le_of_le_add (refcnt_init_le w.dfs o.driver.debugfsRoot)
      · rw [hdfs₃]
        exact fun h => (h.init _).exit
    · have hout₂ := hout₁.trans (outside_of_deviceFrame hframe₂ fun i hi => by
        rw [hadd.drv, Function.update_of_ne hi])
      exact ⟨hout₂, hrebind, .inr ⟨rfl, devt, hres.both hdrv hadd hdfs₂⟩⟩

/-- What unregistering a running driver and its device takes away. -/
structure Gone (m : Mod) (devt c : ℕ) (w w' : World) : Prop where
  regions : w'.k.regions = w.k.regions.eraseP fun r => r.first == devt && r.count == 1
  classes : w'.k.classes = w.k.classes.filter (·.id != c)
  nextClass : w'.k.nextClass = w.k.nextClass
  nodes : w'.k.nodes = w.k.nodes.erase (c, devt)
  cdevs : w'.k.cdevs = w.k.cdevs.erase (.cdev m.id)
  refs : w'.k.refs = w.k.refs
  proper : Proper w.k → Proper w'.k
  dfs : w'.dfs = w.dfs.exit
  opens : (w'.dev (.cdev m.id)).opens = (w.dev (.cdev m.id)).opens

theorem unregisterBoth_spec {w : World} {m : Mod} {devt c : ℕ} (hdev : m.dev = .cdev m.id)
    (h : Running m devt c w) (hopens : (w.dev (.cdev m.id)).opens = 0)
    (hregion : ⟨.driver m.id, devt, 1⟩ ∈ w.k.regions) (hlive : w.k.classLive c = true)
    (hnode : (c, devt) ∈ w.k.nodes) (hcdev : .cdev m.id ∈ w.k.cdevs) :
    Outside m.id w (unregisterBoth m w) ∧ Gone m devt c w (unregisterBoth m w) := by
  have hrem := deviceUnregister_spec h hopens hlive hnode hcdev
  have hframe := deviceUnregister_frame (.cdev m.id) w
  have hkeeps := (deviceUnregister_keeps w (.cdev m.id) (.cdev m.id)).1
  unfold unregisterBoth
  rw [hdev]
  generalize deviceUnregister w (.cdev m.id) = w₁ at hrem hframe hkeeps
  have hout₁ := outside_of_deviceFrame hframe fun i hi => by
    rw [hrem.drv, Function.update_of_ne hi]
  have hd := congrFun hrem.drv m.id
  rw [Function.update_self] at hd
  obtain ⟨hk₂, hdfs₂, hout₂, hdev₂⟩ := driverUnregister_spec w₁ m.id (c := c) devt
    (by rw [hd]; exact h.count) (by rw [hd]; exact h.major)
    (by rw [hd]; exact h.managed) (by rw [hd]; exact h.drv_devt) h.devt_ne
    (by rw [hd]; exact h.cls) (by rw [hd])
  refine ⟨hout₁.trans hout₂, ⟨?_, ?_, ?_, ?_, ?_, ?_, fun hp => ?_, ?_, ?_⟩⟩
  · rw [hk₂, ← hframe.regions]
    rfl
  · rw [hk₂, ← hframe.classes]
    rfl
  · rw [hk₂, ← hframe.nextClass]
    rfl
  · rw [hk₂, ← hrem.nodes]
    rfl
  · rw [hk₂, ← hrem.cdevs]
    rfl
  · rw [hk₂, ← hframe.refs]
    rfl
  · rw [hk₂]
    refine List.forall_mem_cons.mpr ⟨?_, List.forall_mem_cons.mpr ⟨?_, hrem.proper hp⟩⟩
    · refine decide_eq_true ?_
      change _ ∈ w₁.k.regions
      rw [hframe.regions]
      exact hregion
    · change w₁.k.classLive c = true
      rw [Kernel.classLive, hframe.classes]
      exact hlive
  · rw [hdfs₂, hframe.dfs]
  · rw [hdev₂]
    exact hkeeps

end LinuxDriverFramework.NvChar.ModuleLoads
