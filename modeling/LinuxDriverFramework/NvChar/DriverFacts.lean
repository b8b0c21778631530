import LinuxDriverFramework.NvChar.DeviceFacts
import LinuxDriverFramework.NvChar.Driver

/-! # What the driver functions do to the kernel's records

Inversion lemmas for the kernel functions that can fail and for `driverRegister`, `KernelFrame` for
the components that no number-region or class function touches, and `DriverFrame` for the driver
functions themselves. -/

namespace LinuxDriverFramework.NvChar
set_option autoImplicit false

/-- What holds before the loop and outlives every unregistration of a device in the table. -/
theorem unregisterSlots_induct {P : World → Prop} {id : DrvId}
    (hread : ∀ w t, (w.drv id).devices = some t → P w → P (w.touchTable id))
    (hone : ∀ w t i x, (w.drv id).devices = some t → t i = some x → P w → P (deviceUnregister w x))
    (w : World) (h : P w) : P (unregisterSlots w id) := by
  have hslot : ∀ (w : World) (i : ℕ), P w → P (unregisterSlot id w i) := by
    intro w i hw
    unfold unregisterSlot
    split
    · rename_i t ht
      split
      · rename_i x hx
        exact hone (w.touchTable id) t i x ht hx (hread w t ht hw)
      · exact hread w t ht hw
    · exact hw
  have hall : ∀ (l : List ℕ) (w : World), P w → P (l.foldl (unregisterSlot id) w) := by
    intro l
    induction l with
    | nil => exact fun _ hw => hw
    | cons i l ih => exact fun w hw => ih _ (hslot w i hw)
  exact hall _ w h

/-- What every single unregistration does, in a way that composes, the whole loop does. -/
theorem unregisterSlots_rel {R : World → World → Prop} (hrefl : ∀ w, R w w)
    (htrans : ∀ {w₁ w₂ w₃}, R w₁ w₂ → R w₂ w₃ → R w₁ w₃)
    (hread : ∀ w d, R w (World.touchTable w d))
    (hone : ∀ w x, R w (deviceUnregister w x)) (w : World) (id : DrvId) :
    R w (unregisterSlots w id) :=
  unregisterSlots_induct (P := R w) (fun w' _ _ h => htrans h (hread w' id))
    (fun w' _ _ x _ _ h => htrans h (hone w' x)) w (hrefl w)

/-- The same for the devm core's unwinding. -/
theorem devmDetach_rel {R : World → World → Prop} (hrefl : ∀ w, R w w)
    (htrans : ∀ {w₁ w₂ w₃}, R w₁ w₂ → R w₂ w₃ → R w₁ w₃)
    (hset : ∀ w f, R w (w.setK { w.k with devm := f })) (hrun : ∀ w a, R w (World.runAction w a))
    (hfree : ∀ w d, R w (World.freeTables w d)) (w : World) (dev : DeviceId) :
    R w (devmDetach w dev) := by
  have hall : ∀ (l : List DevmAction) (w : World), R w (l.foldl World.runAction w) := by
    intro l
    induction l with
    | nil => exact hrefl
    | cons a l ih => exact fun w => htrans (hrun w a) (ih _)
  exact htrans (htrans (hset w (Function.update w.k.devm dev [])) (hall _ _)) (hfree _ dev)

/-- With no class behind any pending class action, only the region actions do anything. -/
theorem runActions_rel {R : World → World → Prop} (hrefl : ∀ w, R w w)
    (htrans : ∀ {w₁ w₂ w₃}, R w₁ w₂ → R w₂ w₃ → R w₁ w₃)
    (hdrv : ∀ {w w'}, R w w' → w'.drv = w.drv)
    (hset : ∀ w f, R w (w.setK { w.k with devm := f })) (hrun : ∀ w dr, R w (w.chrdevRelease dr))
    (w : World) (dev : DeviceId)
    (h : ∀ id, .classRelease id ∈ w.k.devm dev → ∀ c, (w.drv id).cls ≠ .obj c) :
    R w (w.runActions dev) := by
  have hall : ∀ (l : List DevmAction) (w : World),
      (∀ id, .classRelease id ∈ l → ∀ c, (w.drv id).cls ≠ .obj c) →
      R w (l.foldl World.runAction w) := by
    intro l
    induction l with
    | nil => exact fun w _ => hrefl w
    | cons a l ih =>
      intro w hl
      have hstep : R w (w.runAction a) := by
        cases a with
        | chrdevRelease dr => exact hrun w dr
        | classRelease id =>
          have hnone := hl id (List.mem_cons_self ..)
          change R w (w.classRelease id)
          unfold World.classRelease
          split
          · rename_i c hc
            exact absurd hc (hnone c)
          · exact hrefl w
      refine htrans hstep (ih _ fun id hid => ?_)
      rw [hdrv hstep]
      exact hl id (List.mem_cons_of_mem _ hid)
  exact htrans (hset w (Function.update w.k.devm dev [])) (hall _ _ h)

/-! ## Inversion of the fallible kernel functions -/

theorem registerRegion_ok {k k' : Kernel} {o : RegionOwner} {first count : ℕ} {e : Option Errno}
    (h : k.registerRegion o first count e = .ok k') :
    k.regionFree first count = true ∧
    k' = { k with regions := ⟨o, first, count⟩ :: k.regions, calls := .regionAcquire o :: k.calls } := by
  unfold Kernel.registerRegion at h
  split at h
  · cases h
  · split at h
    · rename_i hfree
      exact ⟨hfree, (Except.ok.inj h).symm⟩
    · cases h

theorem allocRegion_ok {k k' : Kernel} {o : RegionOwner} {dynMajor count devt : ℕ}
    {e : Option Errno} (h : k.allocRegion o dynMajor count e = .ok (k', devt)) :
    dynMajor ≠ 0 ∧ dynMajor < chrdevMajorMax ∧ devt = mkdev dynMajor 0 ∧
    k.registerRegion o devt count e = .ok k' := by
  unfold Kernel.allocRegion at h
  split at h
  · cases h
  · rename_i hmajor
    split at h
    · cases h
    · cases hr : k.registerRegion o (mkdev dynMajor 0) count e with
      | error e => rw [hr] at h; cases h
      | ok k₁ =>
        rw [hr] at h
        obtain ⟨rfl, rfl⟩ := Prod.mk.inj (Except.ok.inj h)
        exact ⟨by omega, by omega, rfl, hr⟩

/-- The first number of the region a registration asks for. -/
def regionFirst (major dynMajor : ℕ) : ℕ := if major ≠ 0 then mkdev major 0 else mkdev dynMajor 0

theorem acquireRegion_ok {k k' : Kernel} {o : RegionOwner} {major dynMajor count devt : ℕ}
    {e : Option Errno} (h : k.acquireRegion o major dynMajor count e = .ok (k', devt)) :
    devt = regionFirst major dynMajor ∧ k.regionFree devt count = true ∧
    k' = { k with regions := ⟨o, devt, count⟩ :: k.regions, calls := .regionAcquire o :: k.calls } := by
  unfold Kernel.acquireRegion at h
  unfold regionFirst
  split at h
  · rename_i hm
    rw [if_pos hm]
    cases hr : k.registerRegion o (mkdev major 0) count e with
    | error e => rw [hr] at h; cases h
    | ok k₁ =>
      rw [hr] at h
      obtain ⟨rfl, rfl⟩ := Prod.mk.inj (Except.ok.inj h)
      exact ⟨rfl, registerRegion_ok hr⟩
  · rename_i hm
    rw [if_neg hm]
    obtain ⟨-, -, rfl, hr⟩ := allocRegion_ok h
    exact ⟨rfl, registerRegion_ok hr⟩

theorem classCreate_ok {k k' : Kernel} {name : Option String} {e : Option Errno} {c : ℕ}
    (h : k.classCreate name e = .ok (k', c)) :
    k.classes.any (·.name == name) = false ∧ c = k.nextClass ∧
    k' = { k with
      classes := ⟨k.nextClass, name⟩ :: k.classes
      nextClass := k.nextClass + 1
      calls := .classCreate k.nextClass :: k.calls } := by
  unfold Kernel.classCreate at h
  split at h
  · cases h
  · split at h
    · cases h
    · rename_i hname
      obtain ⟨rfl, rfl⟩ := Prod.mk.inj (Except.ok.inj h)
      exact ⟨by simpa using hname, rfl, rfl⟩

/-! ## `nv_char_driver_register` up to `class_create` -/

theorem modDrv_modDrv (w : World) (id : DrvId) (f g : NvCharDriver → NvCharDriver) :
    (w.modDrv id f).modDrv id g = w.modDrv id fun d => g (f d) := by
  simp only [World.modDrv, Function.update_self, Function.update_idem]

/-- The driver with a new table and the number `devt`, and `k` with the region. -/
def World.reserve (w : World) (id : DrvId) (k : Kernel) (devt : ℕ) : World :=
  ((w.modDrv id fun d => { d with devices := some emptyTable }).setK k).modDrv id fun d =>
    { d with devt := devt }

/-- The call is refused, gives its table back, or gets as far as `class_create`. -/
theorem driverRegister_cases (w : World) (id : DrvId) (o : RegisterOutcomes) :
    driverRegister w (some id) o = (w, .error .EINVAL) ∨
    (∃ e, driverRegister w (some id) o =
      (w.modDrv id fun d => { d with devices := none }, .error e)) ∨
    ∃ k devt, w.k.acquireRegion (.driver id) (w.drv id).major o.dynMajor (w.drv id).count
        o.region = .ok (k, devt) ∧
      driverRegister w (some id) o = driverRegisterClass (w.reserve id k devt) id o := by
  cases hvalid : (w.drv id).invalid with
  | true => exact .inl (by simp only [driverRegister, hvalid, if_true])
  | false =>
    cases hkcalloc : o.kcalloc with
    | false =>
      exact .inr (.inl ⟨.ENOMEM, by simp only [driverRegister, hvalid, hkcalloc, Bool.not_false,
        Bool.false_eq_true, if_false, if_true]⟩)
    | true =>
      cases hk : w.k.acquireRegion (.driver id) (w.drv id).major o.dynMajor (w.drv id).count
          o.region with
      | error e =>
        refine .inr (.inl ⟨e, ?_⟩)
        simp only [driverRegister, hvalid, hkcalloc, Bool.not_true, Bool.false_eq_true, if_false,
          World.modDrv_k, World.modDrv_drv, Function.update_self, hk, modDrv_modDrv]
      | ok p =>
        refine .inr (.inr ⟨p.1, p.2, rfl, ?_⟩)
        simp only [driverRegister, hvalid, hkcalloc, Bool.not_true, Bool.false_eq_true, if_false,
          World.modDrv_k, World.modDrv_drv, Function.update_self, hk]
        rfl

/-! ## Components that regions and classes do not touch -/

structure KernelFrame (k k' : Kernel) : Prop where
  cdevs : k'.cdevs = k.cdevs
  nodes : k'.nodes = k.nodes
  refs : k'.refs = k.refs
  deviceCalls : k'.deviceCalls = k.deviceCalls
  dirCalls : k'.dirCalls = k.dirCalls

theorem KernelFrame.refl (k : Kernel) : KernelFrame k k := ⟨rfl, rfl, rfl, rfl, rfl⟩

theorem KernelFrame.trans {k₁ k₂ k₃ : Kernel} (h : KernelFrame k₁ k₂) (h' : KernelFrame k₂ k₃) :
    KernelFrame k₁ k₃ :=
  ⟨h'.cdevs.trans h.cdevs, h'.nodes.trans h.nodes, h'.refs.trans h.refs,
    h'.deviceCalls.trans h.deviceCalls, h'.dirCalls.trans h.dirCalls⟩

theorem frame_acquireRegion {k k' : Kernel} {o : RegionOwner} {major dynMajor count devt : ℕ}
    {e : Option Errno} (h : k.acquireRegion o major dynMajor count e = .ok (k', devt)) :
    KernelFrame k k' := by
  obtain ⟨-, -, rfl⟩ := acquireRegion_ok h
  exact ⟨rfl, rfl, rfl, rfl, rfl⟩

theorem frame_classCreate {k k' : Kernel} {name : Option String} {e : Option Errno} {c : ℕ}
    (h : k.classCreate name e = .ok (k', c)) : KernelFrame k k' := by
  obtain ⟨-, -, rfl⟩ := classCreate_ok h
  exact ⟨rfl, rfl, rfl, rfl, rfl⟩

theorem frame_classDestroy (k : Kernel) (c : ℕ) : KernelFrame k (k.classDestroy c) :=
  ⟨rfl, rfl, rfl, rfl, rfl⟩

theorem frame_setDevm (k : Kernel) (f : DeviceId → List DevmAction) :
    KernelFrame k { k with devm := f } := ⟨rfl, rfl, rfl, rfl, rfl⟩

theorem frame_unregisterRegion (k : Kernel) (o : RegionOwner) (first count : ℕ) :
    KernelFrame k (k.unregisterRegion o first count) := ⟨rfl, rfl, rfl, rfl, rfl⟩

theorem frame_releaseDriverRegion (k : Kernel) (id : DrvId) (drv : NvCharDriver) :
    KernelFrame k (k.releaseDriverRegion id drv) := by
  unfold Kernel.releaseDriverRegion
  split <;> exact frame_unregisterRegion k _ _ _

theorem frame_dropDriver (k : Kernel) (id : DrvId) (drv : NvCharDriver) :
    KernelFrame k (k.dropDriver id drv) := by
  have hregion : ∀ k : Kernel,
      KernelFrame k (if drv.devt ≠ 0 then k.releaseDriverRegion id drv else k) := by
    intro k
    split
    · exact frame_releaseDriverRegion k id drv
    · exact .refl k
  cases hcls : drv.cls with
  | obj c =>
    simp only [Kernel.dropDriver, hcls]
    exact (frame_classDestroy k c).trans (hregion _)
  | null =>
    simp only [Kernel.dropDriver, hcls]
    exact hregion k
  | err e =>
    simp only [Kernel.dropDriver, hcls]
    exact hregion k

theorem frame_otherAcquire (k : Kernel) (a : Acquisition) : KernelFrame k (k.otherAcquire a) := by
  unfold Kernel.otherAcquire
  split
  · exact .refl k
  · split
    · rename_i k' hk
      obtain ⟨-, rfl⟩ := registerRegion_ok hk
      exact ⟨rfl, rfl, rfl, rfl, rfl⟩
    · exact .refl k

theorem frame_interfere (l : List Acquisition) (k : Kernel) :
    KernelFrame k (l.foldl Kernel.otherAcquire k) := by
  induction l generalizing k with
  | nil => exact .refl k
  | cons a l ih => exact (frame_otherAcquire k a).trans (ih _)

/-! ## What a driver function keeps -/

/-- Everything but the driver record `id`, number regions, classes, pending actions and the
debugfs root. -/
structure DriverFrame (id : DrvId) (w w' : World) : Prop where
  dev : w'.dev = w.dev
  miscRegistered : w'.miscRegistered = w.miscRegistered
  files : w'.files = w.files
  holders : w'.holders = w.holders
  kernel : KernelFrame w.k w'.k
  other : ∀ id', id' ≠ id → w'.drv id' = w.drv id'
  /-- the fields the module filled in -/
  config : (w'.drv id).name = (w.drv id).name ∧ (w'.drv id).owner = (w.drv id).owner ∧
    (w'.drv id).count = (w.drv id).count ∧ (w'.drv id).major = (w.drv id).major ∧
    (w'.drv id).devMode = (w.drv id).devMode

theorem DriverFrame.refl (id : DrvId) (w : World) : DriverFrame id w w :=
  ⟨rfl, rfl, rfl, rfl, .refl _, fun _ _ => rfl, rfl, rfl, rfl, rfl, rfl⟩

theorem DriverFrame.trans {id : DrvId} {w₁ w₂ w₃ : World} (h : DriverFrame id w₁ w₂)
    (h' : DriverFrame id w₂ w₃) : DriverFrame id w₁ w₃ where
  dev := h'.dev.trans h.dev
  miscRegistered := h'.miscRegistered.trans h.miscRegistered
  files := h'.files.trans h.files
  holders := h'.holders.trans h.holders
  kernel := h.kernel.trans h'.kernel
  other := fun id' hne => (h'.other id' hne).trans (h.other id' hne)
  config := by
    obtain ⟨h₁, h₂, h₃, h₄, h₅⟩ := h.config
    obtain ⟨h₁', h₂', h₃', h₄', h₅'⟩ := h'.config
    exact ⟨h₁'.trans h₁, h₂'.trans h₂, h₃'.trans h₃, h₄'.trans h₄, h₅'.trans h₅⟩

/-- A change of the driver's own bookkeeping fields. -/
theorem drvFrame_modDrv (id : DrvId) (w : World) (f : NvCharDriver → NvCharDriver)
    (hf : ∀ d, (f d).name = d.name ∧ (f d).owner = d.owner ∧ (f d).count = d.count ∧
      (f d).major = d.major ∧ (f d).devMode = d.devMode) : DriverFrame id w (w.modDrv id f) :=
  ⟨rfl, rfl, rfl, rfl, .refl _, fun id' hne => by simp [Function.update_of_ne hne],
    by simpa using hf _⟩

theorem drvFrame_setK (id : DrvId) (w : World) (k : Kernel) (h : KernelFrame w.k k) :
    DriverFrame id w (w.setK k) :=
  ⟨rfl, rfl, rfl, rfl, h, fun _ _ => rfl, rfl, rfl, rfl, rfl, rfl⟩

theorem drvFrame_dfs (id : DrvId) (w : World) (f : Debugfs) :
    DriverFrame id w { w with dfs := f } :=
  ⟨rfl, rfl, rfl, rfl, .refl _, fun _ _ => rfl, rfl, rfl, rfl, rfl, rfl⟩

theorem driverRegisterClass_frame (w : World) (id : DrvId) (o : RegisterOutcomes) :
    DriverFrame id w (driverRegisterClass w id o).1 := by
  cases hk : w.k.classCreate (w.drv id).name o.classCreate with
  | error e =>
    simp only [driverRegisterClass, hk]
    exact (drvFrame_modDrv id w _ (by simp)).trans <|
      (drvFrame_setK id _ _ (frame_releaseDriverRegion _ _ _)).trans <|
      drvFrame_modDrv id _ _ (by simp)
  | ok kc =>
    obtain ⟨k, c⟩ := kc
    simp only [driverRegisterClass, hk]
    exact (drvFrame_setK id w k (frame_classCreate hk)).trans <|
      (drvFrame_modDrv id _ _ (by simp)).trans <| drvFrame_dfs id _ _

theorem reserve_frame {w : World} {id : DrvId} {k : Kernel} {devt : ℕ} (h : KernelFrame w.k k) :
    DriverFrame id w (w.reserve id k devt) := by
  have htable := drvFrame_modDrv id w (fun d => { d with devices := some emptyTable }) (by simp)
  have hregion := htable.trans (drvFrame_setK id _ k h)
  exact hregion.trans (drvFrame_modDrv id _ (fun d => { d with devt := devt }) (by simp))

theorem driverRegister_frame (w : World) (id : DrvId) (o : RegisterOutcomes) :
    DriverFrame id w (driverRegister w (some id) o).1 := by
  obtain heq | ⟨e, heq⟩ | ⟨k, devt, hk, heq⟩ := driverRegister_cases w id o
  · rw [heq]
    exact .refl id w
  · rw [heq]
    exact drvFrame_modDrv id w (fun d => { d with devices := none }) (by simp)
  · rw [heq]
    exact (reserve_frame (frame_acquireRegion hk)).trans (driverRegisterClass_frame _ id o)

/-! ### With devm -/

theorem chrdevRelease_frame (id : DrvId) (w : World) (dr : ChrdevDr) :
    DriverFrame id w (w.chrdevRelease dr) := by
  unfold World.chrdevRelease
  split
  · exact drvFrame_setK id w _ (frame_unregisterRegion _ _ _ _)
  · split
    · exact drvFrame_setK id w _ (frame_unregisterRegion _ _ _ _)
    · exact .refl id w

theorem classRelease_frame (id : DrvId) (w : World) : DriverFrame id w (w.classRelease id) := by
  unfold World.classRelease
  split
  · exact (drvFrame_setK id w _ (frame_classDestroy _ _)).trans (drvFrame_modDrv id _ _ (by simp))
  · exact .refl id w

theorem interfere_frame (id : DrvId) (w : World) (l : List Acquisition) :
    DriverFrame id w (w.interfere l) :=
  drvFrame_setK id w _ (frame_interfere l w.k)

theorem devmAddAction_frame (id : DrvId) (w : World) (dev : DeviceId) (a : DevmAction) :
    DriverFrame id w (w.devmAddAction dev a) :=
  drvFrame_setK id w _ (frame_setDevm _ _)

theorem cleanupChrdev_frame (id : DrvId) (w : World) (dev : DeviceId) (dr : ChrdevDr)
    (others : Others) : DriverFrame id w (w.cleanupChrdev dev dr others) :=
  (interfere_frame id w _).trans <| (drvFrame_setK id _ _ (frame_setDevm _ _)).trans <|
    (chrdevRelease_frame id _ dr).trans <| (interfere_frame id _ _).trans <|
    chrdevRelease_frame id _ dr

theorem driverRegisterDevmClass_frame (w : World) (dev : DeviceId) (id : DrvId) (dr : ChrdevDr)
    (o : DevmOutcomes) (others : Others) :
    DriverFrame id w (driverRegisterDevmClass w dev id dr o others).1 := by
  have hother := interfere_frame id w (others .beforeClass)
  cases hk : (w.interfere (others .beforeClass)).k.classCreate
      ((w.interfere (others .beforeClass)).drv id).name o.classCreate with
  | error e =>
    simp only [driverRegisterDevmClass, hk]
    exact hother.trans <| (drvFrame_modDrv id _ _ (by simp)).trans <|
      cleanupChrdev_frame id _ dev dr others
  | ok kc =>
    obtain ⟨k, c⟩ := kc
    have hclass := hother.trans <| (drvFrame_setK id _ k (frame_classCreate hk)).trans <|
      (drvFrame_modDrv id _ (fun d => { d with cls := .obj c }) (by simp)).trans <|
      interfere_frame id _ (others .beforeAddClass)
    cases ha : o.addClass with
    | some e =>
      simp only [driverRegisterDevmClass, hk, ha]
      exact hclass.trans <| (drvFrame_setK id _ _ (frame_classDestroy _ _)).trans <|
        (drvFrame_modDrv id _ _ (by simp)).trans <| cleanupChrdev_frame id _ dev dr others
    | none =>
      simp only [driverRegisterDevmClass, hk, ha]
      exact hclass.trans <| (devmAddAction_frame id _ dev _).trans <| drvFrame_dfs id _ _

theorem driverRegisterDevmRegion_frame (w : World) (dev : DeviceId) (id : DrvId) (drId : ℕ)
    (o : DevmOutcomes) (others : Others) :
    DriverFrame id w (driverRegisterDevmRegion w dev id drId o others).1 := by
  have hother := interfere_frame id w (others .beforeRegion)
  cases hk : (w.interfere (others .beforeRegion)).k.acquireRegion (.devres drId)
      ((w.interfere (others .beforeRegion)).drv id).major o.dynMajor
      ((w.interfere (others .beforeRegion)).drv id).count o.region with
  | error e =>
    simp only [driverRegisterDevmRegion, hk]
    exact hother.trans (drvFrame_modDrv id _ _ fun d => by split <;> simp)
  | ok kd =>
    obtain ⟨k, devt⟩ := kd
    have hregion := hother.trans <| (drvFrame_setK id _ k (frame_acquireRegion hk)).trans <|
      (drvFrame_modDrv id _ (fun d => { d with devt := devt }) (by simp)).trans <|
      interfere_frame id _ (others .beforeAddChrdev)
    cases ha : o.addChrdev with
    | some e =>
      simp only [driverRegisterDevmRegion, hk, ha]
      exact hregion.trans (chrdevRelease_frame id _ _)
    | none =>
      simp only [driverRegisterDevmRegion, hk, ha]
      exact hregion.trans <| (devmAddAction_frame id _ dev _).trans <|
        driverRegisterDevmClass_frame _ dev id _ o others

theorem driverRegisterDevm_frame (w : World) (dev : Option DeviceId) (id : DrvId)
    (o : DevmOutcomes) (others : Others) :
    DriverFrame id w (driverRegisterDevm w dev (some id) o others).1 := by
  cases dev with
  | none => exact .refl id w
  | some dev =>
    have hbind := drvFrame_modDrv id w
      (fun d => { d with devmDev := some dev, devmManaged := true }) (by simp)
    simp only [driverRegisterDevm]
    split
    · exact .refl id w
    · split
      · exact hbind.trans (drvFrame_modDrv id _ (fun d => { d with devices := none }) (by simp))
      · have htable := hbind.trans
          (drvFrame_modDrv id _
            (fun d => { d with devices := some emptyTable, tableMem := .devm dev }) (by simp))
        split
        · exact htable
        · refine htable.trans (DriverFrame.trans ?_ (driverRegisterDevmRegion_frame _ dev id _ o others))
          exact ⟨rfl, rfl, rfl, rfl, .refl _, fun _ _ => rfl, rfl, rfl, rfl, rfl, rfl⟩

/-! ## Classes -/

/-- Every class there was is as live as it was, and newer ones have newer numbers. -/
structure ClassesKept (k k' : Kernel) : Prop where
  live : ∀ c < k.nextClass, k'.classLive c = k.classLive c
  next : k.nextClass ≤ k'.nextClass

structure SameClasses (k k' : Kernel) : Prop where
  classes : k'.classes = k.classes
  nextClass : k'.nextClass = k.nextClass

theorem SameClasses.refl (k : Kernel) : SameClasses k k := ⟨rfl, rfl⟩

theorem SameClasses.trans {k₁ k₂ k₃ : Kernel} (h : SameClasses k₁ k₂) (h' : SameClasses k₂ k₃) :
    SameClasses k₁ k₃ :=
  ⟨h'.classes.trans h.classes, h'.nextClass.trans h.nextClass⟩

theorem SameClasses.kept {k k' : Kernel} (h : SameClasses k k') : ClassesKept k k' :=
  ⟨fun _ _ => by rw [Kernel.classLive, h.classes, Kernel.classLive], h.nextClass.ge⟩

theorem ClassesKept.refl (k : Kernel) : ClassesKept k k := (SameClasses.refl k).kept

theorem ClassesKept.trans {k₁ k₂ k₃ : Kernel} (h : ClassesKept k₁ k₂) (h' : ClassesKept k₂ k₃) :
    ClassesKept k₁ k₃ :=
  ⟨fun c hc => (h'.live c (hc.trans_le h.next)).trans (h.live c hc), h.next.trans h'.next⟩

theorem classLive_classDestroy (k : Kernel) (c c' : ℕ) :
    (k.classDestroy c).classLive c' = (decide (c' ≠ c) && k.classLive c') := by
  rw [Bool.eq_iff_iff]
  simp only [Kernel.classLive, Kernel.classDestroy, List.any_filter, List.any_eq_true,
    Bool.and_eq_true, bne_iff_ne, beq_iff_eq, decide_eq_true_eq]
  constructor
  · rintro ⟨o, ho, hne, rfl⟩
    exact ⟨hne, o, ho, rfl⟩
  · rintro ⟨hne, o, ho, rfl⟩
    exact ⟨o, ho, hne, rfl⟩

/-- A class made in between may be destroyed. -/
theorem ClassesKept.destroy {k k' : Kernel} (h : ClassesKept k k') {c : ℕ} (hc : k.nextClass ≤ c) :
    ClassesKept k (k'.classDestroy c) where
  live := fun c' hc' => by
    rw [classLive_classDestroy, h.live c' hc']
    simp [show c' ≠ c by omega]
  next := h.next

theorem same_acquireRegion {k k' : Kernel} {o : RegionOwner} {major dynMajor count devt : ℕ}
    {e : Option Errno} (h : k.acquireRegion o major dynMajor count e = .ok (k', devt)) :
    SameClasses k k' := by
  obtain ⟨-, -, rfl⟩ := acquireRegion_ok h
  exact ⟨rfl, rfl⟩

theorem kept_classCreate {k k' : Kernel} {name : Option String} {e : Option Errno} {c : ℕ}
    (h : k.classCreate name e = .ok (k', c)) :
    ClassesKept k k' ∧ k.nextClass ≤ c ∧ c < k'.nextClass ∧ k'.classLive c = true := by
  obtain ⟨-, rfl, rfl⟩ := classCreate_ok h
  refine ⟨⟨fun c hc => ?_, by simp⟩, le_refl _, by simp, by simp [Kernel.classLive]⟩
  have hne : (k.nextClass == c) = false := by
    rw [beq_eq_false_iff_ne]
    omega
  simp [Kernel.classLive, hne]

theorem same_releaseDriverRegion (k : Kernel) (id : DrvId) (drv : NvCharDriver) :
    SameClasses k (k.releaseDriverRegion id drv) := by
  unfold Kernel.releaseDriverRegion
  split <;> exact ⟨rfl, rfl⟩

theorem same_interfere (l : List Acquisition) (w : World) : SameClasses w.k (w.interfere l).k := by
  have hall : ∀ (l : List Acquisition) (k : Kernel),
      SameClasses k (l.foldl Kernel.otherAcquire k) := by
    intro l
    induction l with
    | nil => exact .refl
    | cons a l ih =>
      intro k
      refine SameClasses.trans ?_ (ih _)
      unfold Kernel.otherAcquire
      split
      · exact .refl k
      · split
        · rename_i k' hk
          obtain ⟨-, rfl⟩ := registerRegion_ok hk
          exact ⟨rfl, rfl⟩
        · exact .refl k
  exact hall l w.k

theorem chrdevRelease_drv_same (w : World) (dr : ChrdevDr) :
    (w.chrdevRelease dr).drv = w.drv ∧ SameClasses w.k (w.chrdevRelease dr).k := by
  unfold World.chrdevRelease
  split
  · exact ⟨rfl, rfl, rfl⟩
  · split
    · exact ⟨rfl, rfl, rfl⟩
    · exact ⟨rfl, .refl w.k⟩

theorem cleanupChrdev_drv_same (w : World) (dev : DeviceId) (dr : ChrdevDr) (others : Others) :
    (w.cleanupChrdev dev dr others).drv = w.drv ∧
    SameClasses w.k (w.cleanupChrdev dev dr others).k := by
  let w₁ := w.interfere (others .beforeCleanup)
  let w₂ := w₁.devmReleaseAction dev (.chrdevRelease dr)
  let w₃ := w₂.interfere (others .insideCleanup)
  have h₂ : w₂.drv = w₁.drv ∧ SameClasses w₁.k w₂.k := by
    let w' := w₁.setK { w₁.k with
      devm := Function.update w₁.k.devm dev ((w₁.k.devm dev).erase (.chrdevRelease dr)) }
    have hset : SameClasses w₁.k w'.k := ⟨rfl, rfl⟩
    have h := chrdevRelease_drv_same w' dr
    exact ⟨h.1, hset.trans h.2⟩
  have h₄ : (w₃.chrdevRelease dr).drv = w₃.drv ∧ SameClasses w₃.k (w₃.chrdevRelease dr).k :=
    chrdevRelease_drv_same _ dr
  exact ⟨h₄.1.trans h₂.1, (same_interfere _ w).trans <| h₂.2.trans <|
    (same_interfere _ w₂).trans h₄.2⟩

/-- The class pointer and the table of driver `id` may be replaced; only its own class may go. -/
structure DriverReplaced (id : DrvId) (w w' : World) : Prop where
  live : ∀ c < w.k.nextClass, (w.drv id).cls ≠ .obj c → w'.k.classLive c = w.k.classLive c
  next : w.k.nextClass ≤ w'.k.nextClass
  table : (w'.drv id).devices = (w.drv id).devices ∨
    ∀ i, ((w'.drv id).devices.bind fun t => t i) = none
  cls : ∀ c, (w'.drv id).cls = .obj c → (w'.drv id).devices.isSome ∧
    w.k.nextClass ≤ c ∧ c < w'.k.nextClass ∧ w'.k.classLive c = true

theorem replaced_of_kept {id : DrvId} {w w' : World} (hk : ClassesKept w.k w'.k)
    (ht : (w'.drv id).devices = (w.drv id).devices ∨ (w'.drv id).devices = none ∨
      (w'.drv id).devices = some emptyTable)
    (hc : ∀ c, (w'.drv id).cls ≠ .obj c) : DriverReplaced id w w' where
  live := fun c hlt _ => hk.live c hlt
  next := hk.next
  table := by
    rcases ht with h | h | h
    · exact .inl h
    · exact .inr fun i => by rw [h]; rfl
    · exact .inr fun i => by rw [h]; rfl
  cls := fun c h => absurd h (hc c)

theorem DriverReplaced.after {id : DrvId} {w w₁ w' : World} (h : DriverReplaced id w₁ w')
    (hk : ClassesKept w.k w₁.k) (hc : (w₁.drv id).cls = (w.drv id).cls)
    (ht : (w₁.drv id).devices = (w.drv id).devices ∨ (w₁.drv id).devices = some emptyTable) :
    DriverReplaced id w w' where
  live := fun c hlt hne => by
    rw [h.live c (hlt.trans_le hk.next) (hc ▸ hne)]
    exact hk.live c hlt
  next := hk.next.trans h.next
  table := by
    rcases h.table with h' | h'
    · rw [h']
      rcases ht with ht | ht
      · exact .inl ht
      · exact .inr fun i => by rw [ht]; rfl
    · exact .inr h'
  cls := fun c hcls => by
    obtain ⟨h₁, h₂, h₃, h₄⟩ := h.cls c hcls
    exact ⟨h₁, hk.next.trans h₂, h₃, h₄⟩

def Declined (id : DrvId) (p : World × Ret) : Prop :=
  ∀ e, p.2 = .error e → ∀ c, (p.1.drv id).cls ≠ .obj c

theorem driverRegisterClass_replaced (w : World) (id : DrvId) (o : RegisterOutcomes)
    (ht : (w.drv id).devices.isSome) :
    DriverReplaced id w (driverRegisterClass w id o).1 ∧
    Declined id (driverRegisterClass w id o) := by
  cases hk : w.k.classCreate (w.drv id).name o.classCreate with
  | error e =>
    simp only [driverRegisterClass, hk, Declined]
    exact ⟨replaced_of_kept (same_releaseDriverRegion _ id _).kept (by simp) (by simp), by simp⟩
  | ok kc =>
    obtain ⟨k, c⟩ := kc
    obtain ⟨hkept, hge, hlt, hlive⟩ := kept_classCreate hk
    simp only [driverRegisterClass, hk, Declined]
    refine ⟨⟨fun c' hc' _ => hkept.live c' hc', hkept.next, .inl (by simp), ?_⟩,
      fun e h => by cases h⟩
    intro c' hc'
    obtain rfl : c = c' := by simpa using hc'
    exact ⟨by simpa using ht, hge, hlt, hlive⟩

theorem driverRegister_replaced (w : World) (id : DrvId) (o : RegisterOutcomes)
    (hcls : ∀ c, (w.drv id).cls ≠ .obj c) :
    DriverReplaced id w (driverRegister w (some id) o).1 ∧
    Declined id (driverRegister w (some id) o) := by
  obtain heq | ⟨e, heq⟩ | ⟨k, devt, hk, heq⟩ := driverRegister_cases w id o
  · rw [heq]
    exact ⟨replaced_of_kept (.refl _) (.inl rfl) hcls, fun _ _ => hcls⟩
  · rw [heq]
    exact ⟨replaced_of_kept (.refl _) (.inr (.inl (by simp))) (by simpa using hcls),
      fun _ _ => by simpa using hcls⟩
  · rw [heq]
    obtain ⟨h, hdeclined⟩ := driverRegisterClass_replaced (w.reserve id k devt) id o
      (by simp [World.reserve])
    exact ⟨h.after (same_acquireRegion hk).kept (by simp [World.reserve])
      (.inr (by simp [World.reserve])), hdeclined⟩

/-! ### With devm -/

theorem driverRegisterDevmClass_replaced (w : World) (dev : DeviceId) (id : DrvId) (dr : ChrdevDr)
    (o : DevmOutcomes) (others : Others) (ht : (w.drv id).devices.isSome) :
    DriverReplaced id w (driverRegisterDevmClass w dev id dr o others).1 ∧
    Declined id (driverRegisterDevmClass w dev id dr o others) := by
  have hother := same_interfere (others .beforeClass) w
  cases hk : (w.interfere (others .beforeClass)).k.classCreate
      ((w.interfere (others .beforeClass)).drv id).name o.classCreate with
  | error e =>
    simp only [driverRegisterDevmClass, hk, Declined]
    obtain ⟨hdrv, hsame⟩ := cleanupChrdev_drv_same
      ((w.interfere (others .beforeClass)).modDrv id fun d => { d with cls := .err e }) dev dr others
    have hnone : ∀ c, ((((w.interfere (others .beforeClass)).modDrv id fun d =>
        { d with cls := .err e }).cleanupChrdev dev dr others).drv id).cls ≠ .obj c := by
      rw [hdrv]
      simp
    refine ⟨replaced_of_kept (hother.trans hsame).kept (.inl ?_) hnone, fun _ _ => hnone⟩
    rw [hdrv]
    simp [World.interfere]
  | ok kc =>
    obtain ⟨k, c⟩ := kc
    obtain ⟨hcreate, hge, hlt, hlive⟩ := kept_classCreate hk
    let w₁ := ((w.interfere (others .beforeClass)).setK k).modDrv id fun d => { d with cls := .obj c }
    have hother₁ : ClassesKept k (w₁.interfere (others .beforeAddClass)).k :=
      (same_interfere (others .beforeAddClass) w₁).kept
    have hkept := (hother.kept.trans hcreate).trans hother₁
    cases ha : o.addClass with
    | some e =>
      simp only [driverRegisterDevmClass, hk, ha, Declined]
      let w₂ := ((w₁.interfere (others .beforeAddClass)).setK
        ((w₁.interfere (others .beforeAddClass)).k.classDestroy c)).modDrv id fun d =>
          { d with cls := .null }
      have hkept₂ : ClassesKept w.k w₂.k := hkept.destroy (hother.kept.next.trans hge)
      obtain ⟨hdrv, hcleanup⟩ := cleanupChrdev_drv_same w₂ dev dr others
      have hnone : ∀ c, ((w₂.cleanupChrdev dev dr others).drv id).cls ≠ .obj c := by
        rw [hdrv]
        simp [w₂]
      refine ⟨replaced_of_kept (hkept₂.trans hcleanup.kept) (.inl ?_) hnone, fun _ _ => hnone⟩
      rw [hdrv]
      simp [w₂, w₁, World.interfere]
    | none =>
      simp only [driverRegisterDevmClass, hk, ha, Declined]
      refine ⟨⟨fun c' hc' _ => hkept.live c' hc', hkept.next, .inl ?_, ?_⟩, fun e h => by cases h⟩
      · simp [World.devmAddAction, World.interfere]
      · intro c' hc'
        obtain rfl : c = c' := by simpa [World.devmAddAction, World.interfere] using hc'
        refine ⟨by simpa [World.devmAddAction, World.interfere] using ht, hother.kept.next.trans hge,
          hlt.trans_le hother₁.next, ?_⟩
        exact (hother₁.live c hlt).trans hlive

theorem driverRegisterDevmRegion_replaced (w : World) (dev : DeviceId) (id : DrvId) (drId : ℕ)
    (o : DevmOutcomes) (others : Others) (ht : (w.drv id).devices.isSome)
    (hcls : ∀ c, (w.drv id).cls ≠ .obj c) :
    DriverReplaced id w (driverRegisterDevmRegion w dev id drId o others).1 ∧
    Declined id (driverRegisterDevmRegion w dev id drId o others) := by
  have hother := same_interfere (others .beforeRegion) w
  cases hk : (w.interfere (others .beforeRegion)).k.acquireRegion (.devres drId)
      ((w.interfere (others .beforeRegion)).drv id).major o.dynMajor
      ((w.interfere (others .beforeRegion)).drv id).count o.region with
  | error e =>
    simp only [driverRegisterDevmRegion, hk, Declined]
    have hdrv : (((w.interfere (others .beforeRegion)).modDrv id fun d =>
        if d.major ≠ 0 then { d with devt := mkdev d.major 0 } else d).drv id).cls =
          (w.drv id).cls ∧ (((w.interfere (others .beforeRegion)).modDrv id fun d =>
        if d.major ≠ 0 then { d with devt := mkdev d.major 0 } else d).drv id).devices =
          (w.drv id).devices := by
      simp only [World.modDrv_drv, Function.update_self, World.interfere, World.setK_drv]
      split <;> exact ⟨rfl, rfl⟩
    refine ⟨replaced_of_kept hother.kept (.inl hdrv.2) ?_, fun _ _ => ?_⟩ <;> rw [hdrv.1] <;> exact hcls
  | ok kd =>
    obtain ⟨k, devt⟩ := kd
    let w₁ := ((w.interfere (others .beforeRegion)).setK k).modDrv id fun d => { d with devt := devt }
    have hsame : SameClasses w.k (w₁.interfere (others .beforeAddChrdev)).k :=
      (hother.trans (same_acquireRegion hk)).trans (same_interfere _ w₁)
    have hdrv : ((w₁.interfere (others .beforeAddChrdev)).drv id).cls = (w.drv id).cls ∧
        ((w₁.interfere (others .beforeAddChrdev)).drv id).devices = (w.drv id).devices := by
      simp [w₁, World.interfere]
    cases ha : o.addChrdev with
    | some e =>
      simp only [driverRegisterDevmRegion, hk, ha, Declined]
      let dr : ChrdevDr :=
        { id := drId, devt := devt, count := (w.drv id).count, major := (w.drv id).major }
      obtain ⟨hdrv', hrelease⟩ :=
        chrdevRelease_drv_same (w₁.interfere (others .beforeAddChrdev)) dr
      have hnone : ∀ c, (((w₁.interfere (others .beforeAddChrdev)).chrdevRelease dr).drv id).cls
          ≠ .obj c := by
        rw [hdrv', hdrv.1]
        exact hcls
      have htable : (((w₁.interfere (others .beforeAddChrdev)).chrdevRelease dr).drv id).devices =
          (w.drv id).devices := by rw [hdrv', hdrv.2]
      exact ⟨replaced_of_kept (hsame.trans hrelease).kept (.inl htable) hnone, fun _ _ => hnone⟩
    | none =>
      simp only [driverRegisterDevmRegion, hk, ha, Declined]
      let dr : ChrdevDr :=
        { id := drId, devt := devt, count := (w.drv id).count, major := (w.drv id).major }
      let w₂ := (w₁.interfere (others .beforeAddChrdev)).devmAddAction dev (.chrdevRelease dr)
      have hsame₂ : SameClasses w.k w₂.k := hsame.trans ⟨rfl, rfl⟩
      obtain ⟨h, hdeclined⟩ := driverRegisterDevmClass_replaced w₂ dev id dr o others (by
        simpa [w₂, World.devmAddAction, hdrv.2] using ht)
      exact ⟨h.after hsame₂.kept hdrv.1 (.inl hdrv.2), hdeclined⟩

theorem driverRegisterDevm_replaced (w : World) (dev : Option DeviceId) (id : DrvId)
    (o : DevmOutcomes) (others : Others) (hcls : ∀ c, (w.drv id).cls ≠ .obj c) :
    DriverReplaced id w (driverRegisterDevm w dev (some id) o others).1 ∧
    Declined id (driverRegisterDevm w dev (some id) o others) := by
  cases dev with
  | none => exact ⟨replaced_of_kept (.refl _) (.inl rfl) hcls, fun _ _ => hcls⟩
  | some dev =>
    simp only [driverRegisterDevm]
    split
    · exact ⟨replaced_of_kept (.refl _) (.inl rfl) hcls, fun _ _ => hcls⟩
    · split
      · exact ⟨replaced_of_kept (.refl _) (.inr (.inl (by simp))) (by simpa using hcls),
          fun _ _ => by simpa using hcls⟩
      · split
        · exact ⟨replaced_of_kept (.refl _) (.inr (.inr (by simp))) (by simpa using hcls),
            fun _ _ => by simpa using hcls⟩
        · let w₁ := (w.modDrv id fun d => { d with devmDev := some dev, devmManaged := true }).modDrv
            id fun d => { d with devices := some emptyTable, tableMem := .devm dev }
          obtain ⟨h, hdeclined⟩ := driverRegisterDevmRegion_replaced
            { w₁ with nextDr := w₁.nextDr + 1 } dev id w₁.nextDr o others (by simp [w₁])
            (by simpa [w₁] using hcls)
          exact ⟨h.after (SameClasses.kept ⟨rfl, rfl⟩) (by simp [w₁]) (.inr (by simp [w₁])), hdeclined⟩

end LinuxDriverFramework.NvChar
