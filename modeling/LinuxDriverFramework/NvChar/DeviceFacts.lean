import LinuxDriverFramework.NvChar.Device

/-! # What the device operations change and what they leave alone

`DeviceFrame x w w'` lists everything outside device `x`, the slot tables and the kernel objects of
one device; both `deviceRegisterParent` and `deviceUnregister` stay inside it.
`deviceRegisterParent_inv` says what a registration can do. After it come the effects on what the
frame leaves open, one lemma for each component. -/

namespace LinuxDriverFramework.NvChar
set_option autoImplicit false

structure DeviceFrame (x : DevId) (w w' : World) : Prop where
  files : w'.files = w.files
  holders : w'.holders = w.holders
  nextDr : w'.nextDr = w.nextDr
  dfs : w'.dfs = w.dfs
  miscRegistered : w'.miscRegistered = w.miscRegistered
  refs : w'.k.refs = w.k.refs
  regions : w'.k.regions = w.k.regions
  devm : w'.k.devm = w.k.devm
  classes : w'.k.classes = w.k.classes
  nextClass : w'.k.nextClass = w.k.nextClass
  /-- a driver changes at most in the content of its table -/
  drv : ∀ id, w'.drv id = { w.drv id with devices := (w'.drv id).devices }
  table : ∀ id, (w'.drv id).devices.isSome = (w.drv id).devices.isSome
  dev : ∀ y, y ≠ x → w'.dev y = w.dev y

theorem DeviceFrame.refl (x : DevId) (w : World) : DeviceFrame x w w := by
  constructor <;> intros <;> rfl

theorem DeviceFrame.trans {x : DevId} {w₁ w₂ w₃ : World} (h : DeviceFrame x w₁ w₂)
    (h' : DeviceFrame x w₂ w₃) : DeviceFrame x w₁ w₃ where
  files := h'.files.trans h.files
  holders := h'.holders.trans h.holders
  nextDr := h'.nextDr.trans h.nextDr
  dfs := h'.dfs.trans h.dfs
  miscRegistered := h'.miscRegistered.trans h.miscRegistered
  refs := h'.refs.trans h.refs
  regions := h'.regions.trans h.regions
  devm := h'.devm.trans h.devm
  classes := h'.classes.trans h.classes
  nextClass := h'.nextClass.trans h.nextClass
  drv := fun id => by rw [h'.drv id, h.drv id]
  table := fun id => (h'.table id).trans (h.table id)
  dev := fun y hy => (h'.dev y hy).trans (h.dev y hy)

theorem frame_modDev (x : DevId) (w : World) (f : NvCharDev → NvCharDev) :
    DeviceFrame x w (w.modDev x f) := by
  constructor
  case dev =>
    intro y hy
    simp [World.modDev, Function.update_of_ne hy]
  all_goals intros; rfl

/-- A new kernel state that differs in cdevs, class devices and calls only. -/
theorem frame_setK (x : DevId) (w : World) (k : Kernel) (hr : k.refs = w.k.refs)
    (hg : k.regions = w.k.regions) (hm : k.devm = w.k.devm) (hc : k.classes = w.k.classes)
    (hn : k.nextClass = w.k.nextClass) : DeviceFrame x w (w.setK k) := by
  constructor <;> first | assumption | (intros; rfl)

theorem frame_slotWrite (x : DevId) (w : World) (id : DrvId) (i : ℕ) (v : Option DevId) :
    DeviceFrame x w (w.slotWrite id i v) := by
  unfold World.slotWrite
  cases ht : (w.drv id).devices with
  | none => exact frame_setK x w _ rfl rfl rfl rfl rfl
  | some t =>
    constructor
    case drv =>
      intro id'
      by_cases h : id' = id
      · subst h; simp
      · simp [Function.update_of_ne h]
    case table =>
      intro id'
      by_cases h : id' = id
      · subst h; simp [ht]
      · simp [Function.update_of_ne h]
    all_goals intros; rfl

theorem frame_debugfsAddDevice (x : DevId) (w : World) (ok : Bool) :
    DeviceFrame x w (w.debugfsAddDevice x ok) := by
  unfold World.debugfsAddDevice
  split
  · exact frame_modDev x w _
  · exact .refl x w

theorem frame_debugfsRemoveDevice (x : DevId) (w : World) :
    DeviceFrame x w (w.debugfsRemoveDevice x) := by
  unfold World.debugfsRemoveDevice
  split
  · rename_i r _
    exact (frame_setK x w (w.k.log (.dirRemove x (decide (r ∉ w.dfs.removed))))
      rfl rfl rfl rfl rfl).trans (frame_modDev x _ _)
  · exact .refl x w

theorem frame_deviceDestroy (x : DevId) (w : World) (cls : ClassPtr) (devt : ℕ) :
    DeviceFrame x w (w.setK (w.k.deviceDestroy x cls devt)) := by
  cases cls <;> exact frame_setK x w _ rfl rfl rfl rfl rfl

theorem frame_clearSlot (x : DevId) (w : World) : DeviceFrame x w (w.clearSlot x) := by
  unfold World.clearSlot
  split
  · split
    · exact frame_slotWrite x w _ _ _
    · exact .refl x w
  · exact .refl x w

theorem frame_destroyNode (x : DevId) (w : World) : DeviceFrame x w (w.destroyNode x) := by
  unfold World.destroyNode
  split
  · exact (frame_deviceDestroy x w _ _).trans (frame_modDev x _ _)
  · exact .refl x w

theorem frame_waitOpens (x : DevId) (w : World) : DeviceFrame x w (w.waitOpens x) := by
  unfold World.waitOpens
  split
  · exact .refl x w
  · exact frame_setK x w _ rfl rfl rfl rfl rfl

theorem frame_cdevDel (x : DevId) (w : World) : DeviceFrame x w (w.setK (w.k.cdevDel x)) :=
  frame_setK x w _ rfl rfl rfl rfl rfl

theorem deviceUnregister_frame (x : DevId) (w : World) :
    DeviceFrame x w (deviceUnregister w x) := by
  unfold deviceUnregister
  split
  · exact (frame_modDev x w _).trans <| (frame_clearSlot x _).trans <|
      (frame_debugfsRemoveDevice x _).trans <| (frame_destroyNode x _).trans <|
      (frame_waitOpens x _).trans <| (frame_cdevDel x _).trans <| frame_modDev x _ _
  · exact .refl x w

theorem deviceCreate_ok {k k' : Kernel} {cls : ClassPtr} {devt : ℕ} {e : Option Errno}
    (h : k.deviceCreate cls devt e = .ok k') :
    ∃ c, cls = .obj c ∧ devt ∉ k.nodes.image Prod.snd ∧
      k' = { k with nodes := insert (c, devt) k.nodes } := by
  unfold Kernel.deviceCreate at h
  split at h
  · cases h
  · cases h
  · cases h
  · rename_i c
    split at h
    · cases h
    · rename_i hfree
      exact ⟨c, rfl, hfree, (Except.ok.inj h).symm⟩

theorem cdevAdd_ok {k k' : Kernel} {x : DevId} {e : Option Errno} (h : k.cdevAdd x e = .ok k') :
    k' = { k with cdevs := insert x k.cdevs, calls := .cdevAdd x :: k.calls } := by
  unfold Kernel.cdevAdd at h
  split at h
  · cases h
  · exact (Except.ok.inj h).symm

theorem deviceRegisterNode_frame (x : DevId) (w : World) (id : DrvId) (o : DeviceOutcomes) :
    DeviceFrame x w (deviceRegisterNode w id x o).1 := by
  cases hk : w.k.deviceCreate (w.drv id).cls (w.dev x).devt o.deviceCreate with
  | error e =>
    simp only [deviceRegisterNode, hk]
    exact (frame_modDev x w _).trans (frame_cdevDel x _)
  | ok k =>
    obtain ⟨c, -, -, hk'⟩ := deviceCreate_ok hk
    have hset : DeviceFrame x w (w.setK k) := by
      rw [hk']
      exact frame_setK x w _ rfl rfl rfl rfl rfl
    cases hf : o.deviceCreateFile with
    | some e =>
      simp only [deviceRegisterNode, hk, hf]
      exact hset.trans <| (frame_deviceDestroy x _ _ _).trans <| (frame_modDev x _ _).trans <|
        frame_cdevDel x _
    | none =>
      simp only [deviceRegisterNode, hk, hf]
      exact hset.trans <| (frame_modDev x _ _).trans <| (frame_debugfsAddDevice x _ _).trans <|
        (frame_slotWrite x _ _ _ _).trans <| frame_modDev x _ _

/-- The call gets as far as binding device `n` to slot `i` of the driver. -/
structure Binds (w : World) (id : DrvId) (i n : ℕ) (a : DeviceArgs) : Prop where
  drv : a.drv = some id
  dev : a.dev = some n
  name : a.name.isSome = true
  index : a.index = i
  count : i < (w.drv id).count
  free : (w.dev (.cdev n)).registered = false

/-- The world with device `n` bound. -/
def World.bound (w : World) (id : DrvId) (n : ℕ) (a : DeviceArgs) : World :=
  w.modDev (.cdev n) fun d => d.bind id (w.drv id) a

/-- From `cdev_add` on. -/
def registerBound (w : World) (id : DrvId) (n : ℕ) (o : DeviceOutcomes) : World × Ret :=
  match w.k.cdevAdd (.cdev n) o.cdevAdd with
  | .error e => (w, .error e)
  | .ok k => deviceRegisterNode (w.setK k) id (.cdev n) o

theorem Binds.register {w : World} {id : DrvId} {i n : ℕ} {a : DeviceArgs} (h : Binds w id i n a)
    (o : DeviceOutcomes) : deviceRegisterParent w a o = registerBound (w.bound id n a) id n o := by
  obtain ⟨s, hs⟩ := Option.isSome_iff_exists.mp h.name
  have hcount : ¬ (w.drv id).count ≤ a.index := by
    have hlt := h.count
    have hi := h.index
    omega
  simp only [deviceRegisterParent, h.drv, h.dev, hs, if_neg hcount, h.free, Bool.false_eq_true,
    if_false]
  rfl

/-- The checks refuse the call, or the device is bound. -/
theorem deviceRegisterParent_inv (w : World) (a : DeviceArgs) (o : DeviceOutcomes) :
    ((deviceRegisterParent w a o).1 = w ∧ ∃ e, (deviceRegisterParent w a o).2 = .error e) ∨
    ∃ id n, Binds w id a.index n a ∧
      deviceRegisterParent w a o = registerBound (w.bound id n a) id n o := by
  cases hid : a.drv with
  | none => exact .inl (by simp [deviceRegisterParent, hid])
  | some id =>
    cases hn : a.dev with
    | none => exact .inl (by simp [deviceRegisterParent, hid, hn])
    | some n =>
      cases hs : a.name with
      | none => exact .inl (by simp [deviceRegisterParent, hid, hn, hs])
      | some s =>
        by_cases hcount : (w.drv id).count ≤ a.index
        · exact .inl (by simp [deviceRegisterParent, hid, hn, hs, hcount])
        · cases hreg : (w.dev (.cdev n)).registered with
          | true => exact .inl (by simp [deviceRegisterParent, hid, hn, hs, hcount, hreg])
          | false =>
            have hbinds : Binds w id a.index n a :=
              ⟨hid, hn, by rw [hs]; rfl, rfl, by omega, hreg⟩
            exact .inr ⟨id, n, hbinds, hbinds.register o⟩

theorem registerBound_frame (w : World) (id : DrvId) (n : ℕ) (o : DeviceOutcomes) :
    DeviceFrame (.cdev n) w (registerBound w id n o).1 := by
  unfold registerBound
  split
  · exact .refl _ w
  · rename_i k hk
    refine (frame_setK (.cdev n) w k ?_ ?_ ?_ ?_ ?_).trans (deviceRegisterNode_frame _ _ _ _) <;>
      rw [cdevAdd_ok hk]

theorem deviceRegisterParent_frame (n : ℕ) (w : World) (a : DeviceArgs) (o : DeviceOutcomes)
    (hn : a.dev = some n) : DeviceFrame (.cdev n) w (deviceRegisterParent w a o).1 := by
  obtain ⟨heq, -⟩ | ⟨id, m, hbinds, heq⟩ := deviceRegisterParent_inv w a o
  · rw [heq]
    exact .refl _ w
  · obtain rfl : m = n := Option.some.inj (hbinds.dev.symm.trans hn)
    rw [heq]
    exact (frame_modDev (.cdev m) w fun d => d.bind id (w.drv id) a).trans
      (registerBound_frame _ id m o)

/-! ## The device a registration leaves behind -/

@[simp] theorem slotWrite_dev (w : World) (id : DrvId) (i : ℕ) (v : Option DevId) :
    (w.slotWrite id i v).dev = w.dev := by
  unfold World.slotWrite
  split <;> rfl

/-- The directory after `nv_char_debugfs_add_device`. -/
def World.addedDir (w : World) (x : DevId) (ok : Bool) : Option ℕ :=
  match w.dfs.root, (w.dev x).name with
  | some r, some _ => if ok then some r else none
  | _, _ => (w.dev x).debugfsDir

theorem addedDir_cases (w : World) (x : DevId) (ok : Bool) :
    w.addedDir x ok = (w.dev x).debugfsDir ∨ w.addedDir x ok = none ∨
      w.addedDir x ok = w.dfs.root := by
  unfold World.addedDir
  split
  · rename_i r _ hroot _
    cases ok
    · exact .inr (.inl rfl)
    · exact .inr (.inr hroot.symm)
  · exact .inl rfl

theorem debugfsAddDevice_dev_eq (w : World) (x : DevId) (ok : Bool) :
    (w.debugfsAddDevice x ok).dev x = { w.dev x with debugfsDir := w.addedDir x ok } := by
  cases hr : w.dfs.root with
  | none => simp only [World.debugfsAddDevice, World.addedDir, hr]
  | some r =>
    cases hs : (w.dev x).name with
    | none =>
      simp only [World.debugfsAddDevice, World.addedDir, hr, hs]
      rw [← hs]
    | some s =>
      simp only [World.debugfsAddDevice, World.addedDir, hr, hs, World.modDev_dev,
        Function.update_self]

/-- The device after the part from `device_create` on, which returned `r`. -/
def World.nodeDev (w : World) (x : DevId) (r : Ret) (ok : Bool) : NvCharDev :=
  match r with
  | .ok () =>
    { w.dev x with
      device := some (w.dev x).devt, debugfsDir := w.addedDir x ok, registered := true }
  | .error _ => { w.dev x with device := none }

theorem deviceRegisterNode_dev (w : World) (id : DrvId) (x : DevId) (o : DeviceOutcomes) :
    (deviceRegisterNode w id x o).1.dev x =
      w.nodeDev x (deviceRegisterNode w id x o).2 o.debugfsDir := by
  cases hk : w.k.deviceCreate (w.drv id).cls (w.dev x).devt o.deviceCreate with
  | error e => simp [deviceRegisterNode, hk, World.nodeDev]
  | ok k =>
    cases hf : o.deviceCreateFile with
    | some e => simp [deviceRegisterNode, hk, hf, World.nodeDev]
    | none =>
      simp only [deviceRegisterNode, hk, hf, World.nodeDev, World.modDev_dev, Function.update_self,
        slotWrite_dev, debugfsAddDevice_dev_eq]
      simp [World.addedDir]

/-- The device gets a directory below the present root at most in a call that succeeds. -/
theorem registerBound_dir (w : World) (id : DrvId) (n : ℕ) (o : DeviceOutcomes) :
    ((registerBound w id n o).1.dev (.cdev n)).debugfsDir = (w.dev (.cdev n)).debugfsDir ∨
    ((registerBound w id n o).1.dev (.cdev n)).debugfsDir = none ∨
    (((registerBound w id n o).1.dev (.cdev n)).registered = true ∧
      ((registerBound w id n o).1.dev (.cdev n)).debugfsDir = w.dfs.root) := by
  unfold registerBound
  split
  · exact .inl rfl
  · rename_i k hk
    rw [deviceRegisterNode_dev]
    cases (deviceRegisterNode (w.setK k) id (.cdev n) o).2 with
    | error e => exact .inl rfl
    | ok u =>
      obtain hdir | hdir | hdir := addedDir_cases (w.setK k) (.cdev n) o.debugfsDir
      · exact .inl hdir
      · exact .inr (.inl hdir)
      · exact .inr (.inr ⟨rfl, hdir⟩)

/-! ## The device an unregistration leaves behind -/

@[simp] theorem clearSlot_dev (w : World) (x : DevId) : (w.clearSlot x).dev = w.dev := by
  unfold World.clearSlot
  split
  · split
    · exact slotWrite_dev _ _ _ _
    · rfl
  · rfl

@[simp] theorem waitOpens_dev (w : World) (x : DevId) : (w.waitOpens x).dev = w.dev := by
  unfold World.waitOpens
  split <;> rfl

theorem debugfsRemoveDevice_dev_self (w : World) (x : DevId) :
    (w.debugfsRemoveDevice x).dev x = { w.dev x with debugfsDir := none } := by
  unfold World.debugfsRemoveDevice
  split
  · simp
  · rename_i h
    rw [← h]

theorem debugfsAddDevice_dev_self (w : World) (x : DevId) (ok : Bool) :
    ∃ v, (v = (w.dev x).debugfsDir ∨ v = none ∨ v = w.dfs.root) ∧
      (w.debugfsAddDevice x ok).dev x = { w.dev x with debugfsDir := v } :=
  ⟨w.addedDir x ok, addedDir_cases w x ok, debugfsAddDevice_dev_eq w x ok⟩

theorem destroyNode_dev_self (w : World) (x : DevId) :
    ∃ v, (w.destroyNode x).dev x = { w.dev x with device := v } := by
  unfold World.destroyNode
  split
  · exact ⟨none, by simp⟩
  · exact ⟨(w.dev x).device, rfl⟩

/-- What `nv_char_device_unregister` leaves of a registered device. -/
theorem deviceUnregister_dev_self {w : World} {x : DevId} (h : (w.dev x).registered = true) :
    ∃ v, (deviceUnregister w x).dev x =
      { w.dev x with removing := true, debugfsDir := none, device := v, registered := false } := by
  simp only [deviceUnregister, h, if_true, World.cdevGone, World.modDev_dev, Function.update_self,
    World.setK_dev, waitOpens_dev]
  obtain ⟨v, hv⟩ := destroyNode_dev_self
    (((w.modDev x fun d => { d with removing := true }).clearSlot x).debugfsRemoveDevice x) x
  refine ⟨v, ?_⟩
  rw [hv, debugfsRemoveDevice_dev_self, clearSlot_dev]
  simp

theorem deviceUnregister_of_not {w : World} {x : DevId} (h : (w.dev x).registered = false) :
    deviceUnregister w x = w := by
  simp [deviceUnregister, h]

theorem deviceUnregister_registered (w : World) (x : DevId) :
    ((deviceUnregister w x).dev x).registered = false := by
  cases h : (w.dev x).registered with
  | false => rw [deviceUnregister_of_not h, h]
  | true =>
    obtain ⟨v, hv⟩ := deviceUnregister_dev_self h
    rw [hv]

theorem deviceUnregister_keeps (w : World) (x y : DevId) :
    ((deviceUnregister w x).dev y).opens = (w.dev y).opens ∧
    ((deviceUnregister w x).dev y).owner = (w.dev y).owner ∧
    ((deviceUnregister w x).dev y).driver = (w.dev y).driver ∧
    ((deviceUnregister w x).dev y).index = (w.dev y).index ∧
    ((deviceUnregister w x).dev y).devt = (w.dev y).devt := by
  by_cases hy : y = x
  · subst hy
    cases h : (w.dev y).registered with
    | false => simp [deviceUnregister_of_not h]
    | true =>
      obtain ⟨v, hv⟩ := deviceUnregister_dev_self h
      simp [hv]
  · simp [(deviceUnregister_frame x w).dev y hy]

/-! ## What opening and closing change -/

/-- New values for the count of one device, the module references and the open descriptors. -/
def World.withOpens (w : World) (x : DevId) (n : ℤ) (r : Module → ℤ) (l : List File) : World :=
  { (w.modDev x fun d => { d with opens := n }).setK { w.k with refs := r } with files := l }

theorem withOpens_self (w : World) (x : DevId) :
    w.withOpens x (w.dev x).opens w.k.refs w.files = w := by
  simp [World.withOpens, World.setK, World.modDev]

theorem withOpens_withOpens (w : World) (x : DevId) (n n' : ℤ) (r r' : Module → ℤ)
    (l l' : List File) : (w.withOpens x n r l).withOpens x n' r' l' = w.withOpens x n' r' l' := by
  simp [World.withOpens, World.setK, World.modDev]

theorem acquireOpen_effect (w : World) (x : DevId) (get : Bool) :
    ∃ n r, (acquireOpen w x get).1 = w.withOpens x n r w.files := by
  unfold acquireOpen
  split
  · exact ⟨_, _, (withOpens_self w x).symm⟩
  · rename_i hr
    split
    · exact ⟨_, _, (withOpens_self w x).symm⟩
    · split
      · exact ⟨_, _, (withOpens_self w x).symm⟩
      · simp only [World.setK_dev, if_neg hr]
        exact ⟨_, _, rfl⟩

theorem releaseOpen_effect (w : World) (x : DevId) :
    ∃ n r, releaseOpen w x = w.withOpens x n r w.files := by
  unfold releaseOpen
  simp only
  split
  · rename_i m _
    exact ⟨(w.dev x).opens - 1, Function.update w.k.refs m (w.k.refs m + -1), rfl⟩
  · exact ⟨(w.dev x).opens - 1, w.k.refs, rfl⟩

theorem charOpen_effect (w : World) (x : DevId) (o : OpenOutcomes) :
    ∃ n r l, (charOpen w x o).1 = w.withOpens x n r l := by
  obtain ⟨n, r, ha⟩ := acquireOpen_effect w x o.tryModuleGet
  unfold charOpen
  split
  · rename_i h
    rw [h] at ha
    exact ⟨n, r, w.files, ha⟩
  · rename_i w' m h
    rw [h] at ha
    obtain rfl : w' = w.withOpens x n r w.files := ha
    split
    · obtain ⟨n', r', hr⟩ := releaseOpen_effect (w.withOpens x n r w.files) x
      exact ⟨n', r', w.files, hr.trans (withOpens_withOpens ..)⟩
    · exact ⟨n, r, _, rfl⟩

theorem charRelease_effect (w : World) (f : File) (ret : Ret) :
    ∃ n r l, (charRelease w f ret).1 = w.withOpens f.dev n r l := by
  obtain ⟨n, r, h⟩ := releaseOpen_effect { w with files := w.files.erase f } f.dev
  exact ⟨n, r, w.files.erase f, h⟩

end LinuxDriverFramework.NvChar
