import LinuxDriverFramework.NvChar.Calls
import LinuxDriverFramework.NvChar.SlotInvariant

/-! # What holds whatever the order of the calls

Most invariants of the registration world need callers that keep to some order. Two do not:
what stands in a slot is registered there, and no two drivers have one class.

* `DriverStep d`: what any call but the ones on a device does to tables and classes, driver `d` being
  the one that may get a new class.
* `AnyOrder`: the invariant of all runs. -/

namespace LinuxDriverFramework.NvChar
open Foundations
set_option autoImplicit false

structure DriverStep (d : DrvId) (w w' : World) : Prop where
  next : w.k.nextClass ≤ w'.k.nextClass
  cls : ∀ id c, (w'.drv id).cls = .obj c →
    (w.drv id).cls = .obj c ∨ (id = d ∧ w.k.nextClass ≤ c ∧ c < w'.k.nextClass)
  table : ∀ id, (w'.drv id).devices = (w.drv id).devices ∨
    ∀ i, ((w'.drv id).devices.bind fun t => t i) = none
  flags : ∀ x, (w'.dev x).registered = (w.dev x).registered ∧
    ((w.dev x).registered = true → (w'.dev x).driver = (w.dev x).driver ∧
      (w'.dev x).index = (w.dev x).index)

namespace DriverStep

variable {d : DrvId} {w w' : World}

theorem of_eq (hdrv : w'.drv = w.drv) (hdev : w'.dev = w.dev)
    (hnext : w.k.nextClass ≤ w'.k.nextClass) : DriverStep d w w' where
  next := hnext
  cls _ _ h := .inl (by rwa [hdrv] at h)
  table id := .inl (by rw [hdrv])
  flags x := by
    rw [hdev]
    exact ⟨rfl, fun _ => ⟨rfl, rfl⟩⟩

theorem refl (d : DrvId) (w : World) : DriverStep d w w := of_eq rfl rfl le_rfl

theorem trans {w₁ w₂ w₃ : World} (h : DriverStep d w₁ w₂) (h' : DriverStep d w₂ w₃) :
    DriverStep d w₁ w₃ where
  next := h.next.trans h'.next
  cls id c hc := by
    rcases h'.cls id c hc with hold | ⟨hid, hge, hlt⟩
    · rcases h.cls id c hold with hold | ⟨hid, hge, hlt⟩
      · exact .inl hold
      · exact .inr ⟨hid, hge, hlt.trans_le h'.next⟩
    · exact .inr ⟨hid, h.next.trans hge, hlt⟩
  table id := by
    rcases h'.table id with htable | hempty
    · rw [htable]
      exact h.table id
    · exact .inr hempty
  flags x := by
    obtain ⟨hr, hd⟩ := h.flags x
    obtain ⟨hr', hd'⟩ := h'.flags x
    refine ⟨hr'.trans hr, fun hx => ?_⟩
    obtain ⟨h₁, h₂⟩ := hd hx
    obtain ⟨h₁', h₂'⟩ := hd' (hr.trans hx)
    exact ⟨h₁'.trans h₁, h₂'.trans h₂⟩

theorem of_slotFrame (h : SlotFrame w w') : DriverStep d w w' where
  next := h.kept.next
  cls _ _ hc := .inl (by rwa [h.drv] at hc)
  table id := .inl (by rw [h.drv])
  flags x := ⟨h.registered x, fun hx => ⟨(h.dev x hx).1, (h.dev x hx).2.1⟩⟩

/-- A driver record is changed: no new class, and no new entries in the table. -/
theorem modDrv (w : World) (id : DrvId) (f : NvCharDriver → NvCharDriver)
    (hcls : (f (w.drv id)).cls = (w.drv id).cls ∨ ∀ c, (f (w.drv id)).cls ≠ .obj c)
    (htable : (f (w.drv id)).devices = (w.drv id).devices ∨ (f (w.drv id)).devices = none ∨
      (f (w.drv id)).devices = some emptyTable) : DriverStep d w (w.modDrv id f) where
  next := le_rfl
  cls id' c hc := by
    by_cases hid : id' = id
    · subst hid
      rw [World.modDrv_drv, Function.update_self] at hc
      rcases hcls with hsame | hnone
      · exact .inl (hsame ▸ hc)
      · exact absurd hc (hnone c)
    · rw [World.modDrv_drv, Function.update_of_ne hid] at hc
      exact .inl hc
  table id' := by
    by_cases hid : id' = id
    · subst hid
      rw [World.modDrv_drv, Function.update_self]
      rcases htable with h | h | h
      · exact .inl h
      · exact .inr fun i => by rw [h]; rfl
      · exact .inr fun i => by rw [h]; rfl
    · exact .inl (by rw [World.modDrv_drv, Function.update_of_ne hid])
  flags _ := ⟨rfl, fun _ => ⟨rfl, rfl⟩⟩

theorem setK (w : World) (k : Kernel) (h : w.k.nextClass ≤ k.nextClass) :
    DriverStep d w (w.setK k) :=
  of_eq rfl rfl h

theorem create {k : Kernel} {name : Option String} {e : Option Errno} {c : ℕ} {w : World}
    (h : w.k.classCreate name e = .ok (k, c)) (f : NvCharDriver → NvCharDriver)
    (hcls : ∀ r, (f r).cls = .obj c) (htable : ∀ r, (f r).devices = r.devices) :
    DriverStep d w ((w.setK k).modDrv d f) where
  next := (kept_classCreate h).1.next
  cls id c' hc := by
    obtain ⟨-, hge, hlt, -⟩ := kept_classCreate h
    by_cases hid : id = d
    · subst hid
      simp only [World.modDrv_drv, Function.update_self, hcls, ClassPtr.obj.injEq] at hc
      exact .inr ⟨rfl, hc ▸ hge, hc ▸ hlt⟩
    · rw [World.modDrv_drv, Function.update_of_ne hid] at hc
      exact .inl hc
  table id := by
    by_cases hid : id = d
    · subst hid
      exact .inl (by simp [htable])
    · exact .inl (by simp [Function.update_of_ne hid])
  flags _ := ⟨rfl, fun _ => ⟨rfl, rfl⟩⟩

end DriverStep

/-! ## The driver functions -/

theorem driverRegister_step (w : World) (id : DrvId) (o : RegisterOutcomes) :
    DriverStep id w (driverRegister w (some id) o).1 := by
  have hnull : ∀ w : World, DriverStep id w (w.modDrv id fun d => { d with devices := none }) :=
    fun w => .modDrv w id _ (.inl rfl) (.inr (.inl rfl))
  obtain heq | ⟨e, heq⟩ | ⟨k, devt, hk, heq⟩ := driverRegister_cases w id o
  · rw [heq]
    exact .refl id w
  · rw [heq]
    exact hnull w
  · rw [heq]
    let w₁ := w.reserve id k devt
    have htable : DriverStep id w (w.modDrv id fun d => { d with devices := some emptyTable }) :=
      .modDrv w id _ (.inl rfl) (.inr (.inr rfl))
    have hregion := htable.trans (DriverStep.setK _ k (same_acquireRegion hk).nextClass.ge)
    have h₁ : DriverStep id w w₁ := hregion.trans (.modDrv _ id _ (.inl rfl) (.inl rfl))
    refine h₁.trans ?_
    cases hc : w₁.k.classCreate (w₁.drv id).name o.classCreate with
    | error e =>
      simp only [driverRegisterClass, w₁, hc]
      exact (DriverStep.modDrv w₁ id _ (.inr fun _ => ClassPtr.noConfusion) (.inl rfl)).trans <|
        (DriverStep.setK _ _ (same_releaseDriverRegion _ _ _).nextClass.ge).trans (hnull _)
    | ok kc =>
      obtain ⟨k', c⟩ := kc
      simp only [driverRegisterClass, w₁, hc]
      exact (DriverStep.create hc (fun d => { d with cls := .obj c, tableMem := .own })
        (fun _ => rfl) fun _ => rfl).trans (.of_eq rfl rfl le_rfl)

theorem interfere_step (d : DrvId) (w : World) (l : List Acquisition) :
    DriverStep d w (w.interfere l) :=
  .setK w _ (same_interfere l w).nextClass.ge

theorem chrdevRelease_step (d : DrvId) (w : World) (dr : ChrdevDr) :
    DriverStep d w (w.chrdevRelease dr) := by
  obtain ⟨hdrv, hsame⟩ := chrdevRelease_drv_same w dr
  exact .of_eq hdrv (chrdevRelease_frame d w dr).dev hsame.nextClass.ge

theorem cleanupChrdev_step (d : DrvId) (w : World) (dev : DeviceId) (dr : ChrdevDr)
    (others : Others) : DriverStep d w (w.cleanupChrdev dev dr others) := by
  obtain ⟨hdrv, hsame⟩ := cleanupChrdev_drv_same w dev dr others
  exact .of_eq hdrv (cleanupChrdev_frame d w dev dr others).dev hsame.nextClass.ge

theorem classDestroy_step (d : DrvId) (w : World) (c : ℕ) :
    DriverStep d w (w.setK (w.k.classDestroy c)) :=
  .setK w _ le_rfl

theorem devmAddAction_step (d : DrvId) (w : World) (dev : DeviceId) (a : DevmAction) :
    DriverStep d w (w.devmAddAction dev a) :=
  .setK w _ le_rfl

theorem driverRegisterDevmClass_step (w : World) (dev : DeviceId) (id : DrvId) (dr : ChrdevDr)
    (o : DevmOutcomes) (others : Others) :
    DriverStep id w (driverRegisterDevmClass w dev id dr o others).1 := by
  let w₁ := w.interfere (others .beforeClass)
  have h₁ : DriverStep id w w₁ := interfere_step id w _
  refine h₁.trans ?_
  cases hc : w₁.k.classCreate (w₁.drv id).name o.classCreate with
  | error e =>
    simp only [driverRegisterDevmClass, w₁, hc]
    exact (DriverStep.modDrv w₁ id _ (.inr fun _ => ClassPtr.noConfusion) (.inl rfl)).trans <|
      cleanupChrdev_step id _ dev dr others
  | ok kc =>
    obtain ⟨k, c⟩ := kc
    have h₂ := (DriverStep.create (d := id) hc (fun d => { d with cls := .obj c }) (fun _ => rfl)
      fun _ => rfl).trans (interfere_step id _ (others .beforeAddClass))
    cases ha : o.addClass with
    | some e =>
      simp only [driverRegisterDevmClass, w₁, hc, ha]
      refine h₂.trans (DriverStep.trans ?_ (cleanupChrdev_step id _ dev dr others))
      exact (classDestroy_step _ _ _).trans <|
        .modDrv _ id _ (.inr fun _ => ClassPtr.noConfusion) (.inl rfl)
    | none =>
      simp only [driverRegisterDevmClass, w₁, hc, ha]
      exact h₂.trans (.of_eq rfl rfl le_rfl)

theorem driverRegisterDevmRegion_step (w : World) (dev : DeviceId) (id : DrvId) (drId : ℕ)
    (o : DevmOutcomes) (others : Others) :
    DriverStep id w (driverRegisterDevmRegion w dev id drId o others).1 := by
  have h₁ := interfere_step id w (others .beforeRegion)
  refine h₁.trans ?_
  cases hk : (w.interfere (others .beforeRegion)).k.acquireRegion (.devres drId)
      ((w.interfere (others .beforeRegion)).drv id).major o.dynMajor
      ((w.interfere (others .beforeRegion)).drv id).count o.region with
  | error e =>
    simp only [driverRegisterDevmRegion, hk]
    refine .modDrv _ id _ (.inl ?_) (.inl ?_)
    · split <;> rfl
    · split <;> rfl
  | ok kd =>
    obtain ⟨k, devt⟩ := kd
    have h₂ := (DriverStep.setK _ k (same_acquireRegion hk).nextClass.ge).trans <|
      (DriverStep.modDrv _ id (fun d => { d with devt := devt }) (.inl rfl) (.inl rfl)).trans <|
      interfere_step id _ (others .beforeAddChrdev)
    refine h₂.trans ?_
    cases ha : o.addChrdev with
    | some e =>
      simp only [driverRegisterDevmRegion, hk, ha]
      exact chrdevRelease_step id _ _
    | none =>
      simp only [driverRegisterDevmRegion, hk, ha]
      exact (devmAddAction_step id _ dev _).trans (driverRegisterDevmClass_step _ dev id _ o others)

theorem driverRegisterDevm_step (w : World) (dev : Option DeviceId) (id : DrvId)
    (o : DevmOutcomes) (others : Others) :
    DriverStep id w (driverRegisterDevm w dev (some id) o others).1 := by
  cases dev with
  | none => exact .refl id w
  | some dev =>
    have hbind : DriverStep id w
        (w.modDrv id fun d => { d with devmDev := some dev, devmManaged := true }) :=
      .modDrv w id _ (.inl rfl) (.inl rfl)
    simp only [driverRegisterDevm]
    split
    · exact .refl id w
    · split
      · exact hbind.trans <|
          .modDrv _ id (fun d => { d with devices := none }) (.inl rfl) (.inr (.inl rfl))
      · have htable := hbind.trans (DriverStep.modDrv (d := id) _ id
          (fun d => { d with devices := some emptyTable, tableMem := .devm dev }) (.inl rfl)
        (.inr (.inr rfl)))
        split
        · exact htable
        · refine htable.trans (DriverStep.trans ?_ (driverRegisterDevmRegion_step _ dev id _ o others))
          exact .of_eq rfl rfl le_rfl

theorem devmDetach_step (d : DrvId) (w : World) (dev : DeviceId) :
    DriverStep d w (devmDetach w dev) := by
  refine devmDetach_rel (R := DriverStep d) (DriverStep.refl d) (fun h h' => h.trans h')
    (fun w f => .of_eq rfl rfl le_rfl) (fun w a => ?_)
    (fun w _ =>
      ⟨le_rfl, fun _ _ hc => .inl hc, fun _ => .inl rfl, fun _ => ⟨rfl, fun _ => ⟨rfl, rfl⟩⟩⟩)
    w dev
  cases a with
  | chrdevRelease dr => exact chrdevRelease_step d w dr
  | classRelease id =>
    change DriverStep d w (w.classRelease id)
    unfold World.classRelease
    split
    · exact (classDestroy_step _ _ _).trans <|
        .modDrv _ id _ (.inr fun _ => ClassPtr.noConfusion) (.inl rfl)
    · exact .refl d w

/-! ## The functions on a device -/

theorem DeviceFailed.step {w w' : World} {x : DevId} {id : DrvId} (h : DeviceFailed x id w w')
    (hx : (w.dev x).registered = false) (d : DrvId) : DriverStep d w w' where
  next := h.frame.nextClass.ge
  cls _ _ hc := .inl (by rwa [h.drv] at hc)
  table id := .inl (by rw [h.drv])
  flags y := by
    by_cases hy : y = x
    · subst hy
      rw [h.registered, hx]
      exact ⟨rfl, fun hr => by cases hr⟩
    · rw [h.frame.dev y hy]
      exact ⟨rfl, fun _ => ⟨rfl, rfl⟩⟩

/-- A device for which no driver is set has no slot to clear. -/
theorem deviceUnregister_removes (w : World) (x : DevId) :
    directory (deviceUnregister w x) = (directory w).remove x := by
  cases hr : (w.dev x).registered with
  | false =>
    rw [deviceUnregister_of_not hr, Directory.remove_of_home_none (home_of_not_registered hr)]
  | true =>
    cases hd : (w.dev x).driver with
    | some id => exact deviceUnregister_directory hr hd
    | none =>
      have hhome : (directory w).home x = none := by simp [directory, Directory.ofFlags, hd]
      let w₁ := w.modDev x fun d => { d with removing := true }
      have h₁ : directory w₁ = directory w := directory_modDev w x _ ⟨rfl, fun _ => ⟨rfl, rfl⟩⟩
      have hclear : w₁.clearSlot x = w₁ := by simp [w₁, World.clearSlot, hd]
      have hw : deviceUnregister w x =
          (((w₁.debugfsRemoveDevice x).destroyNode x).waitOpens x).cdevGone x := by
        simp only [deviceUnregister, hr, if_true]
        change ((((w₁.clearSlot x).debugfsRemoveDevice x).destroyNode x).waitOpens x).cdevGone x = _
        rw [hclear]
      rw [hw, Directory.remove_of_home_none hhome]
      refine (directory_clearFlag (World.setK _ _) x).trans ?_
      rw [directory_setK, waitOpens_directory, destroyNode_directory, debugfsRemoveDevice_directory,
        h₁]
      exact Directory.ext rfl (Function.update_eq_self_iff.mpr hhome.symm)

/-! ## The invariant -/

structure AnyOrder (w : World) : Prop where
  filed : (directory w).Filed
  below : ∀ id c, (w.drv id).cls = .obj c → c < w.k.nextClass
  apart : ∀ id id' c, (w.drv id).cls = .obj c → (w.drv id').cls = .obj c → id = id'
  misc : ∀ n, (w.dev (.misc n)).registered = false

theorem init_anyOrder (cfg : DrvId → DriverConfig) : AnyOrder (init cfg) where
  filed k i x h := by cases h
  below id c h := by cases h
  apart id id' c h := by cases h
  misc _ := rfl

theorem AnyOrder.driverStep {d : DrvId} {w w' : World} (h : AnyOrder w) (hs : DriverStep d w w') :
    AnyOrder w' where
  filed := by
    refine h.filed.of_tables hs.table fun x p hx => ?_
    obtain ⟨id, i⟩ := p
    obtain ⟨hr, hd, hi⟩ := home_eq_some.mp hx
    obtain ⟨hr', hkept⟩ := hs.flags x
    obtain ⟨hd', hi'⟩ := hkept hr
    exact home_eq_some.mpr ⟨hr'.trans hr, hd'.trans hd, hi'.trans hi⟩
  below id c hc := by
    rcases hs.cls id c hc with hold | ⟨-, -, hlt⟩
    · exact (h.below id c hold).trans_le hs.next
    · exact hlt
  apart id id' c hc hc' := by
    rcases hs.cls id c hc with hold | ⟨hid, hge, -⟩
    · rcases hs.cls id' c hc' with hold' | ⟨-, hge', -⟩
      · exact h.apart id id' c hold hold'
      · exact absurd (h.below id c hold) hge'.not_gt
    · rcases hs.cls id' c hc' with hold' | ⟨hid', -, -⟩
      · exact absurd (h.below id' c hold') hge.not_gt
      · rw [hid, hid']
  misc n := (hs.flags (.misc n)).1.trans (h.misc n)

theorem AnyOrder.deviceFrame {x : DevId} {w w' : World} (h : AnyOrder w) (hf : DeviceFrame x w w')
    (hfiled : (directory w').Filed) (hmisc : ∀ n, x = .misc n → (w'.dev x).registered = false) :
    AnyOrder w' where
  filed := hfiled
  below id c hc := by
    rw [hf.drv id] at hc
    rw [hf.nextClass]
    exact h.below id c hc
  apart id id' c hc hc' := by
    rw [hf.drv id] at hc
    rw [hf.drv id'] at hc'
    exact h.apart id id' c hc hc'
  misc n := by
    by_cases hx : .misc n = x
    · rw [hx]
      exact hmisc n hx.symm
    · rw [hf.dev _ hx]
      exact h.misc n

theorem AnyOrder.deviceUnregister {w : World} (h : AnyOrder w) (x : DevId) :
    AnyOrder (deviceUnregister w x) := by
  refine h.deviceFrame (deviceUnregister_frame x w) ?_ fun _ _ => deviceUnregister_registered w x
  rw [deviceUnregister_removes]
  exact h.filed.remove x

theorem AnyOrder.unregisterSlots {w : World} (h : AnyOrder w) (id : DrvId) :
    AnyOrder (unregisterSlots w id) :=
  unregisterSlots_rel (R := fun w w' => AnyOrder w → AnyOrder w') (fun _ h => h)
    (fun h h' => h' ∘ h) (fun _ d h => h.driverStep (d := d) (.of_eq rfl rfl le_rfl))
    (fun _ x h => h.deviceUnregister x) w id h

theorem AnyOrder.deviceRegister {w : World} (h : AnyOrder w) (a : DeviceArgs) (o : DeviceOutcomes) :
    AnyOrder (deviceRegisterParent w a o).1 := by
  rcases deviceRegisterParent_cases w a o with ⟨hw, -⟩ | ⟨n, id, hr, -, ⟨-, hw⟩ | ⟨-, hw⟩⟩
  · rwa [hw]
  · exact h.driverStep (hw.step hr 0)
  · refine h.deviceFrame hw.frame ?_ fun _ hx => by cases hx
    rw [hw.slots]
    exact h.filed.put (home_of_not_registered hr)

/-! ## The two ways to unregister a driver -/

/-- What both functions do to the driver itself. -/
def NvCharDriver.forget (drv : NvCharDriver) : NvCharDriver :=
  { drv with devices := none, cls := .null, devt := 0, devmManaged := false, devmDev := none }

/-- After the loop the shared root is given back, then class and region unless devm has them. -/
theorem driverUnregister_eq (w : World) (id : DrvId) :
    driverUnregister w (some id) =
      { ((unregisterSlots w id).setK (if ((unregisterSlots w id).drv id).devmManaged then
          (unregisterSlots w id).k else
          (unregisterSlots w id).k.dropDriver id ((unregisterSlots w id).drv id))).modDrv id
            NvCharDriver.forget with dfs := (unregisterSlots w id).dfs.exit } := by
  simp only [driverUnregister, dropTable_eq]
  generalize unregisterSlots w id = w₁
  cases hm : (w₁.drv id).devmManaged with
  | true =>
    simp only [World.modDrv, Function.update_self, Function.update_idem, hm, if_true]
    rfl
  | false =>
    simp only [World.modDrv, World.setK, Function.update_self, Function.update_idem, hm,
      Bool.false_eq_true, if_false]
    rfl

theorem driverUnregisterDevm_eq (w : World) (id : DrvId) :
    driverUnregisterDevm w (some id) =
      { (unregisterSlots w id).modDrv id NvCharDriver.forget with
        dfs := (unregisterSlots w id).dfs.exit } := by
  simp only [driverUnregisterDevm, dropTable_eq]
  generalize unregisterSlots w id = w₁
  simp only [World.modDrv, Function.update_self, Function.update_idem]
  rfl

theorem forget_step (w : World) (id : DrvId) : DriverStep id w (w.modDrv id NvCharDriver.forget) :=
  .modDrv w id _ (.inr fun _ => ClassPtr.noConfusion) (.inr (.inl rfl))

theorem driverUnregister_step (w : World) (id : DrvId) :
    DriverStep id (unregisterSlots w id) (driverUnregister w (some id)) := by
  rw [driverUnregister_eq]
  generalize unregisterSlots w id = w₁
  have hnext : w₁.k.nextClass ≤ (if (w₁.drv id).devmManaged then w₁.k else
      w₁.k.dropDriver id (w₁.drv id)).nextClass := by
    split
    · exact le_rfl
    · exact (dropDriver_kept w₁.k id (w₁.drv id)).2.ge
  exact ((DriverStep.setK w₁ _ hnext).trans (forget_step _ id)).trans (.of_eq rfl rfl le_rfl)

theorem driverUnregisterDevm_step (w : World) (id : DrvId) :
    DriverStep id (unregisterSlots w id) (driverUnregisterDevm w (some id)) := by
  rw [driverUnregisterDevm_eq]
  exact (forget_step _ id).trans (.of_eq rfl rfl le_rfl)

/-! ## Every call -/

theorem AnyOrder.slotFrame {w w' : World} (h : AnyOrder w) (hf : SlotFrame w w') : AnyOrder w' :=
  h.driverStep (d := 0) (.of_slotFrame hf)

theorem exec_anyOrder {w : World} (h : AnyOrder w) (c : Call) : AnyOrder (exec w c).1 := by
  cases c with
  | driverRegister drv o =>
    cases drv with
    | none => exact h
    | some id => exact h.driverStep (driverRegister_step w id o)
  | driverUnregister drv =>
    cases drv with
    | none => exact h
    | some id => exact (h.unregisterSlots id).driverStep (driverUnregister_step w id)
  | driverRegisterDevm dev drv o others =>
    cases drv with
    | none => cases dev <;> exact h
    | some id => exact h.driverStep (driverRegisterDevm_step w dev id o others)
  | driverUnregisterDevm drv =>
    cases drv with
    | none => exact h
    | some id => exact (h.unregisterSlots id).driverStep (driverUnregisterDevm_step w id)
  | devmDetach dev => exact h.driverStep (d := 0) (devmDetach_step 0 w dev)
  | deviceRegister a o => exact h.deviceRegister a o
  | deviceUnregister dev =>
    cases dev with
    | none => exact h
    | some n => exact h.deviceUnregister (.cdev n)
  | charOpen x o =>
    obtain ⟨n, r, l, he⟩ := charOpen_effect w x o
    rw [exec, he]
    exact h.slotFrame (slotFrame_withOpens w x n r l)
  | charRelease f ret =>
    obtain ⟨n, r, l, he⟩ := charRelease_effect w f ret
    rw [exec, he]
    exact h.slotFrame (slotFrame_withOpens w f.dev n r l)
  | miscRegister a o => exact h.slotFrame (slotFrame_miscRegister w a o h.misc)
  | miscUnregister misc =>
    cases misc with
    | none => exact h
    | some n => exact h.slotFrame (slotFrame_miscUnregister w n)
  | otherAcquire a => exact h.slotFrame (slotFrame_interfere w [a])

theorem call_anyOrder {w : World} (h : AnyOrder w) (c : Call) : AnyOrder (call w c) :=
  (exec_anyOrder h c).driverStep (d := 0) (.of_eq rfl rfl le_rfl)

theorem run_anyOrder {cfg : DrvId → DriverConfig} {calls : List Call} {w : World}
    (hrun : run step (init cfg) calls = some w) : AnyOrder w :=
  run_invariant (I := AnyOrder) (fun s c s' h hs => by
    rw [step_eq_some hs]
    exact call_anyOrder h c) (init_anyOrder cfg) ⟨calls, hrun⟩

end LinuxDriverFramework.NvChar
