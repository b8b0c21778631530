import LinuxDriverFramework.NvChar.Calls
import LinuxDriverFramework.NvChar.DriverFacts

/-! # Bind and unbind cycles of a platform device

`platProbe` and `platRemove` are `nv_char_plat_probe` and `nv_char_plat_remove` of
`nv_char_plat.c` for any number of devices. `bindCycle` is one cycle of the driver core around
them: the devm core unwinds the device after a failed probe, and after the remove of a bound one.

`nv_char_driver_unregister_devm` clears `drv->class` before the class action runs, so the action
finds nothing to destroy: `bindCycle_classes` follows the list of classes through one cycle. -/

namespace LinuxDriverFramework.NvChar
set_option autoImplicit false

/-- What happens in one cycle: the outcomes of the driver's registration, the devices its probe
registers, and those its remove unregisters one by one. -/
structure Cycle where
  o : DevmOutcomes
  others : Others
  devices : List (DeviceArgs × DeviceOutcomes)
  removed : List ℕ

/-- The device registrations of a probe, up to the first that fails. -/
def registerDevices (w : World) : List (DeviceArgs × DeviceOutcomes) → World × Ret
  | [] => (w, .ok ())
  | (a, o) :: l =>
    match deviceRegisterParent w a o with
    | (w, .error e) => (w, .error e)
    | (w, .ok ()) => registerDevices w l

def platProbe (dev : DeviceId) (id : DrvId) (w : World) (c : Cycle) : World × Ret :=
  match driverRegisterDevm w (some dev) (some id) c.o c.others with
  | (w, .error e) => (w, .error e)
  | (w, .ok ()) =>
    match registerDevices w c.devices with
    | (w, .error e) => (driverUnregisterDevm w (some id), .error e)
    | (w, .ok ()) => (w, .ok ())

def unregisterDevices (w : World) (l : List ℕ) : World :=
  l.foldl (fun w n => deviceUnregister w (.cdev n)) w

def platRemove (id : DrvId) (w : World) (c : Cycle) : World :=
  driverUnregisterDevm (unregisterDevices w c.removed) (some id)

/-- Bind the device; if that succeeds, unbind it. -/
def bindCycle (dev : DeviceId) (id : DrvId) (w : World) (c : Cycle) : World :=
  match platProbe dev id w c with
  | (w, .error _) => devmDetach w dev
  | (w, .ok ()) => devmDetach (platRemove id w c) dev

def bindCycles (dev : DeviceId) (id : DrvId) (w : World) (l : List Cycle) : World :=
  l.foldl (bindCycle dev id) w

/-! ## What the unbind promises -/

def KCall.releasesRegion (dr : ℕ) : KCall → Bool
  | .regionRelease by_ _ => by_ == .devres dr
  | _ => false

def KCall.destroysClass (c : ℕ) : KCall → Bool
  | .classDestroy id _ => id == c
  | _ => false

/-- The region of allocation `dr` and class `c` have been released once each, nothing of them is
held, and a class of this name can be created again. -/
structure Released (w : World) (dr c : ℕ) (name : Option String) : Prop where
  regionOnce : w.k.calls.countP (KCall.releasesRegion dr) = 1
  classOnce : w.k.calls.countP (KCall.destroysClass c) = 1
  regionGone : ∀ r ∈ w.k.regions, r.owner ≠ .devres dr
  classGone : w.k.classLive c = false
  nameFree : ∀ o ∈ w.k.classes, o.name ≠ name

/-- After cycle `c` from `w`, what its probe acquired is released. -/
def UnbindReleases (dev : DeviceId) (id : DrvId) (w : World) (c : Cycle) : Prop :=
  ∀ cls, ((platProbe dev id w c).1.drv id).cls = .obj cls →
    Released (bindCycle dev id w c) w.nextDr cls (w.drv id).name

/-! ## Classes and class pointers -/

def Kernel.ClassesNumbered (k : Kernel) : Prop := ∀ o ∈ k.classes, o.id < k.nextClass

theorem SameClasses.numbered {k k' : Kernel} (h : SameClasses k k') (hk : k.ClassesNumbered) :
    k'.ClassesNumbered := by
  intro o ho
  rw [h.nextClass]
  exact hk o (h.classes ▸ ho)

/-- What a registration with result `p.2` does to the list of classes. -/
structure RegisterClasses (id : DrvId) (w : World) (p : World × Ret) : Prop where
  numbered : p.1.k.ClassesNumbered
  failed : ∀ e, p.2 = .error e → p.1.k.classes = w.k.classes
  gained : p.2 = .ok () → (∀ o ∈ w.k.classes, o.name ≠ (w.drv id).name) ∧
    p.1.k.classes = ⟨w.k.nextClass, (w.drv id).name⟩ :: w.k.classes ∧
    (p.1.drv id).cls = .obj w.k.nextClass

theorem RegisterClasses.after {id : DrvId} {w w₁ : World} {p : World × Ret}
    (h : RegisterClasses id w₁ p) (hs : SameClasses w.k w₁.k)
    (hn : (w₁.drv id).name = (w.drv id).name) : RegisterClasses id w p := by
  refine ⟨h.numbered, fun e he => (h.failed e he).trans hs.classes, fun hok => ?_⟩
  have hg := h.gained hok
  rwa [hs.classes, hs.nextClass, hn] at hg

theorem registerClasses_failed {id : DrvId} {w w' : World} {e : Errno} (hs : SameClasses w.k w'.k)
    (hw : w.k.ClassesNumbered) : RegisterClasses id w (w', .error e) :=
  ⟨hs.numbered hw, fun _ _ => hs.classes, fun h => by cases h⟩

theorem driverRegisterDevmClass_classes (w : World) (dev : DeviceId) (id : DrvId) (dr : ChrdevDr)
    (o : DevmOutcomes) (others : Others) (hw : w.k.ClassesNumbered) :
    RegisterClasses id w (driverRegisterDevmClass w dev id dr o others) := by
  have hother := same_interfere (others .beforeClass) w
  suffices h : RegisterClasses id (w.interfere (others .beforeClass))
      (driverRegisterDevmClass w dev id dr o others) from h.after hother rfl
  replace hw := hother.numbered hw
  cases hk : (w.interfere (others .beforeClass)).k.classCreate
      ((w.interfere (others .beforeClass)).drv id).name o.classCreate with
  | error e =>
    simp only [driverRegisterDevmClass, hk]
    have hsame := (cleanupChrdev_drv_same ((w.interfere (others .beforeClass)).modDrv id fun d =>
      { d with cls := .err e }) dev dr others).2
    exact registerClasses_failed hsame hw
  | ok kc =>
    obtain ⟨k, c⟩ := kc
    obtain ⟨hname, rfl, hcreate⟩ := classCreate_ok hk
    have hnumbered : k.ClassesNumbered := by
      rw [hcreate]
      intro o ho
      rcases List.mem_cons.mp ho with rfl | ho
      · exact Nat.lt_succ_self _
      · exact Nat.lt_succ_of_lt (hw o ho)
    let w₁ := ((w.interfere (others .beforeClass)).setK k).modDrv id fun d =>
      { d with cls := .obj (w.interfere (others .beforeClass)).k.nextClass }
    have hsame : SameClasses k (w₁.interfere (others .beforeAddClass)).k :=
      same_interfere (others .beforeAddClass) w₁
    cases ha : o.addClass with
    | some e =>
      simp only [driverRegisterDevmClass, hk, ha]
      -- the class just made is the one that is destroyed
      refine ⟨?_, fun _ _ => ?_, fun h => by cases h⟩
      · refine (cleanupChrdev_drv_same _ dev dr others).2.numbered fun o ho => ?_
        exact (hsame.numbered hnumbered) o (List.mem_of_mem_filter ho)
      · rw [(cleanupChrdev_drv_same _ dev dr others).2.classes]
        change (w₁.interfere (others .beforeAddClass)).k.classes.filter _ = _
        rw [hsame.classes, hcreate]
        simp only [bne_self_eq_false, Bool.false_eq_true, not_false_eq_true,
          List.filter_cons_of_neg]
        refine List.filter_eq_self.mpr fun o ho => ?_
        have hlt := hw o ho
        simp only [bne_iff_ne]
        omega
    | none =>
      simp only [driverRegisterDevmClass, hk, ha]
      refine ⟨hsame.numbered hnumbered, (fun _ h => by cases h), fun _ => ⟨?_, ?_, ?_⟩⟩
      · intro o ho
        simpa using List.any_eq_false.mp hname o ho
      · change (w₁.interfere (others .beforeAddClass)).k.classes = _
        rw [hsame.classes, hcreate]
      · simp [World.devmAddAction, World.interfere]

theorem driverRegisterDevmRegion_classes (w : World) (dev : DeviceId) (id : DrvId) (drId : ℕ)
    (o : DevmOutcomes) (others : Others) (hw : w.k.ClassesNumbered) :
    RegisterClasses id w (driverRegisterDevmRegion w dev id drId o others) := by
  have hother := same_interfere (others .beforeRegion) w
  cases hk : (w.interfere (others .beforeRegion)).k.acquireRegion (.devres drId)
      ((w.interfere (others .beforeRegion)).drv id).major o.dynMajor
      ((w.interfere (others .beforeRegion)).drv id).count o.region with
  | error e =>
    simp only [driverRegisterDevmRegion, hk]
    exact registerClasses_failed hother hw
  | ok kd =>
    obtain ⟨k, devt⟩ := kd
    let w₁ := ((w.interfere (others .beforeRegion)).setK k).modDrv id fun d => { d with devt := devt }
    have hsame : SameClasses w.k (w₁.interfere (others .beforeAddChrdev)).k :=
      (hother.trans (same_acquireRegion hk)).trans (same_interfere _ w₁)
    cases ha : o.addChrdev with
    | some e =>
      simp only [driverRegisterDevmRegion, hk, ha]
      exact registerClasses_failed (hsame.trans (chrdevRelease_drv_same _ _).2) hw
    | none =>
      simp only [driverRegisterDevmRegion, hk, ha]
      refine (driverRegisterDevmClass_classes _ dev id _ o others ?_).after ?_ ?_
      · exact hsame.numbered hw
      · exact hsame.trans ⟨rfl, rfl⟩
      · simp [World.devmAddAction, World.interfere]

theorem driverRegisterDevm_classes (w : World) (dev : DeviceId) (id : DrvId) (o : DevmOutcomes)
    (others : Others) (hw : w.k.ClassesNumbered) :
    RegisterClasses id w (driverRegisterDevm w (some dev) (some id) o others) := by
  have hfailed : ∀ {w' : World} {e : Errno}, w'.k = w.k → RegisterClasses id w (w', .error e) :=
    fun h => registerClasses_failed (by rw [h]; exact .refl _) hw
  simp only [driverRegisterDevm]
  split
  · exact hfailed rfl
  · split
    · exact hfailed rfl
    · split
      · exact hfailed rfl
      · refine (driverRegisterDevmRegion_classes _ dev id _ o others ?_).after ?_ ?_
        · exact hw
        · exact .refl _
        · simp

/-! ## One cycle -/

/-- Nothing but classes without a driver: the state between two cycles. -/
structure Unbound (w : World) : Prop where
  noClass : ∀ id c, (w.drv id).cls ≠ .obj c
  numbered : w.k.ClassesNumbered

theorem init_unbound (cfg : DrvId → DriverConfig) : Unbound (init cfg) :=
  ⟨(fun _ _ h => by cases h), fun _ h => by cases h⟩

/-- Classes, class pointers and names of the drivers stay as they are. -/
structure ClassFrame (w w' : World) : Prop where
  same : SameClasses w.k w'.k
  drv : ∀ id, (w'.drv id).cls = (w.drv id).cls ∧ (w'.drv id).name = (w.drv id).name

theorem ClassFrame.refl (w : World) : ClassFrame w w := ⟨.refl _, fun _ => ⟨rfl, rfl⟩⟩

theorem ClassFrame.trans {w₁ w₂ w₃ : World} (h : ClassFrame w₁ w₂) (h' : ClassFrame w₂ w₃) :
    ClassFrame w₁ w₃ :=
  ⟨h.same.trans h'.same, fun id =>
    ⟨(h'.drv id).1.trans (h.drv id).1, (h'.drv id).2.trans (h.drv id).2⟩⟩

theorem DeviceFrame.classFrame {x : DevId} {w w' : World} (h : DeviceFrame x w w') :
    ClassFrame w w' :=
  ⟨⟨h.classes, h.nextClass⟩, fun id => by rw [h.drv id]; exact ⟨rfl, rfl⟩⟩

theorem registerDevices_classFrame (l : List (DeviceArgs × DeviceOutcomes)) (w : World) :
    ClassFrame w (registerDevices w l).1 := by
  induction l generalizing w with
  | nil => exact .refl w
  | cons ao l ih =>
    obtain ⟨a, o⟩ := ao
    have hone : ClassFrame w (deviceRegisterParent w a o).1 := by
      cases ha : a.dev with
      | none => simpa [deviceRegisterParent, ha] using ClassFrame.refl w
      | some n => exact (deviceRegisterParent_frame n w a o ha).classFrame
    unfold registerDevices
    split
    · rename_i w' e h
      rwa [h] at hone
    · rename_i w' h
      rw [h] at hone
      exact hone.trans (ih w')

theorem unregisterDevices_classFrame (l : List ℕ) (w : World) :
    ClassFrame w (unregisterDevices w l) := by
  induction l generalizing w with
  | nil => exact .refl w
  | cons n l ih => exact (deviceUnregister_frame (.cdev n) w).classFrame.trans (ih _)

/-- The driver loses its class pointer; the class stays. -/
theorem driverUnregisterDevm_classes (w : World) (id : DrvId) :
    SameClasses w.k (driverUnregisterDevm w (some id)).k ∧
    ((driverUnregisterDevm w (some id)).drv id).cls = .null ∧
    ((driverUnregisterDevm w (some id)).drv id).name = (w.drv id).name ∧
    ∀ d, d ≠ id → ((driverUnregisterDevm w (some id)).drv d).cls = (w.drv d).cls := by
  have hloop : ClassFrame w (unregisterSlots w id) :=
    unregisterSlots_rel .refl .trans (fun _ _ => ⟨.refl _, fun _ => ⟨rfl, rfl⟩⟩)
      (fun w x => (deviceUnregister_frame x w).classFrame) w id
  have htable : ClassFrame w (w.dropTable id) := by
    unfold World.dropTable
    split
    · refine hloop.trans ⟨.refl _, fun d => ?_⟩
      by_cases hd : d = id
      · subst hd; simp
      · simp [Function.update_of_ne hd]
    · exact .refl w
  refine ⟨⟨htable.same.classes, htable.same.nextClass⟩, ?_, ?_, fun d hd => ?_⟩
  · simp [driverUnregisterDevm, NvCharDriver.clear]
  · simpa [driverUnregisterDevm, NvCharDriver.clear] using (htable.drv id).2
  · simpa [driverUnregisterDevm, Function.update_of_ne hd] using (htable.drv d).1

theorem devmDetach_classFrame {w : World} (dev : DeviceId) (h : ∀ id c, (w.drv id).cls ≠ .obj c) :
    ClassFrame w (devmDetach w dev) := by
  have hrel := runActions_rel (R := fun w w' => SameClasses w.k w'.k ∧ w'.drv = w.drv)
    (fun w => ⟨.refl _, rfl⟩) (fun h h' => ⟨h.1.trans h'.1, h'.2.trans h.2⟩) (fun h => h.2)
    (fun _ _ => ⟨⟨rfl, rfl⟩, rfl⟩) (fun w dr => (chrdevRelease_drv_same w dr).symm) w dev
    (fun id _ => h id)
  refine ⟨hrel.1, fun id => ?_⟩
  have hcls := congrArg NvCharDriver.cls (congrFun hrel.2 id)
  have hname := congrArg NvCharDriver.name (congrFun hrel.2 id)
  exact ⟨hcls, hname⟩

theorem unregister_detach {w : World} (w₁ : World) (dev : DeviceId) (id : DrvId) (hw : Unbound w)
    (hother : ∀ d, d ≠ id → (w₁.drv d).cls = (w.drv d).cls)
    (hnumbered : w₁.k.ClassesNumbered) (hname : (w₁.drv id).name = (w.drv id).name) :
    Unbound (devmDetach (driverUnregisterDevm w₁ (some id)) dev) ∧
    (devmDetach (driverUnregisterDevm w₁ (some id)) dev).k.classes = w₁.k.classes ∧
    ((devmDetach (driverUnregisterDevm w₁ (some id)) dev).drv id).name = (w.drv id).name := by
  obtain ⟨hsame, hnull, hkept, hrest⟩ := driverUnregisterDevm_classes w₁ id
  have hnone : ∀ d c, ((driverUnregisterDevm w₁ (some id)).drv d).cls ≠ .obj c := by
    intro d c
    by_cases hd : d = id
    · subst hd
      rw [hnull]
      simp
    · rw [hrest d hd, hother d hd]
      exact hw.noClass d c
  have hf := devmDetach_classFrame dev hnone
  refine ⟨⟨fun d c => ?_, hf.same.numbered (hsame.numbered hnumbered)⟩, ?_, ?_⟩
  · rw [(hf.drv d).1]
    exact hnone d c
  · rw [hf.same.classes, hsame.classes]
  · rw [(hf.drv id).2, hkept, hname]

/-- One cycle makes no class disappear, and a successful probe leaves its class behind. -/
theorem bindCycle_classes {w : World} (hw : Unbound w) (dev : DeviceId) (id : DrvId) (c : Cycle) :
    Unbound (bindCycle dev id w c) ∧ ((bindCycle dev id w c).drv id).name = (w.drv id).name ∧
    w.k.classes ⊆ (bindCycle dev id w c).k.classes ∧
    ((platProbe dev id w c).2 = .ok () →
      (∀ o ∈ w.k.classes, o.name ≠ (w.drv id).name) ∧
      ((platProbe dev id w c).1.drv id).cls = .obj w.k.nextClass ∧
      ⟨w.k.nextClass, (w.drv id).name⟩ ∈ (bindCycle dev id w c).k.classes) := by
  have hreg := driverRegisterDevm_classes w dev id c.o c.others hw.numbered
  have hframe := driverRegisterDevm_frame w (some dev) id c.o c.others
  have hdeclined := (driverRegisterDevm_replaced w (some dev) id c.o c.others (hw.noClass id)).2
  unfold bindCycle platProbe
  cases hr : driverRegisterDevm w (some dev) (some id) c.o c.others with
  | mk w₁ r =>
    rw [hr] at hreg hframe hdeclined
    cases r with
    | error e =>
      -- a failed registration: the driver has no class, and no class has been added
      have hnone : ∀ d c, (w₁.drv d).cls ≠ .obj c := by
        intro d c
        by_cases hd : d = id
        · subst hd
          exact hdeclined e rfl c
        · rw [hframe.other d hd]
          exact hw.noClass d c
      have hf := devmDetach_classFrame dev hnone
      refine ⟨⟨fun d c => ?_, hf.same.numbered hreg.numbered⟩, ?_, ?_, fun h => by cases h⟩
      · rw [(hf.drv d).1]
        exact hnone d c
      · rw [(hf.drv id).2]
        exact hframe.config.1
      · rw [hf.same.classes, hreg.failed e rfl]
        exact List.Subset.refl _
    | ok u =>
      obtain ⟨hfresh, hclasses, hcls⟩ := hreg.gained rfl
      have hdev := registerDevices_classFrame c.devices w₁
      cases hd : registerDevices w₁ c.devices with
      | mk w₂ r₂ =>
        rw [hd] at hdev
        simp only [hd]
        cases r₂ with
        | error e =>
          -- a device could not be registered: the class stays all the same
          obtain ⟨hub, hcl, hnm⟩ := unregister_detach w₂ dev id hw
            (fun d hne => by rw [(hdev.drv d).1, hframe.other d hne])
            (hdev.same.numbered hreg.numbered) ((hdev.drv id).2.trans hframe.config.1)
          refine ⟨hub, hnm, ?_, fun h => by cases h⟩
          rw [hcl, hdev.same.classes, hclasses]
          exact List.subset_cons_self _ _
        | ok u =>
          have hun := unregisterDevices_classFrame c.removed w₂
          have hall := hdev.trans hun
          obtain ⟨hub, hcl, hnm⟩ := unregister_detach (unregisterDevices w₂ c.removed) dev id hw
            (fun d hne => by rw [(hall.drv d).1, hframe.other d hne])
            (hall.same.numbered hreg.numbered) ((hall.drv id).2.trans hframe.config.1)
          have hcl' : (devmDetach (platRemove id w₂ c) dev).k.classes =
              ⟨w.k.nextClass, (w.drv id).name⟩ :: w.k.classes :=
            hcl.trans (hall.same.classes.trans hclasses)
          refine ⟨hub, hnm, ?_, fun _ => ⟨hfresh, ?_, ?_⟩⟩
          · rw [hcl']
            exact List.subset_cons_self _ _
          · exact (hdev.drv id).1.trans hcls
          · rw [hcl']
            exact List.mem_cons_self ..

/-! ## Any number of cycles -/

theorem bindCycles_classes {w : World} (hw : Unbound w) (dev : DeviceId) (id : DrvId)
    (l : List Cycle) : Unbound (bindCycles dev id w l) ∧
    ((bindCycles dev id w l).drv id).name = (w.drv id).name ∧
    w.k.classes ⊆ (bindCycles dev id w l).k.classes := by
  induction l generalizing w with
  | nil => exact ⟨hw, rfl, List.Subset.refl _⟩
  | cons c l ih =>
    obtain ⟨hw', hname, hsub, -⟩ := bindCycle_classes hw dev id c
    obtain ⟨hw'', hname', hsub'⟩ := ih hw'
    exact ⟨hw'', hname'.trans hname, List.Subset.trans hsub hsub'⟩

/-- A device that has been bound once can not be bound again: its class name is taken. -/
theorem no_second_bind {w : World} (hw : Unbound w) (dev : DeviceId) (id : DrvId) (c c' : Cycle)
    (l : List Cycle) (hbound : (platProbe dev id w c).2 = .ok ()) :
    (platProbe dev id (bindCycles dev id w (c :: l)) c').2 ≠ .ok () := by
  obtain ⟨hw₁, hname₁, -, hgain⟩ := bindCycle_classes hw dev id c
  obtain ⟨-, -, hmem⟩ := hgain hbound
  obtain ⟨hw₂, hname₂, hsub₂⟩ := bindCycles_classes hw₁ dev id l
  intro hbound'
  obtain ⟨-, -, -, hgain'⟩ := bindCycle_classes hw₂ dev id c'
  refine (hgain' hbound').1 _ (hsub₂ hmem) ?_
  exact (hname₂.trans hname₁).symm

/-- After no unbind of a bound device is everything released: its class never is. -/
theorem unbind_keeps_class (cfg : DrvId → DriverConfig) (dev : DeviceId) (id : DrvId)
    (l : List Cycle) (c : Cycle)
    (hbound : (platProbe dev id (bindCycles dev id (init cfg) l) c).2 = .ok ()) :
    ¬ UnbindReleases dev id (bindCycles dev id (init cfg) l) c := by
  intro h
  obtain ⟨hw, -, -⟩ := bindCycles_classes (init_unbound cfg) dev id l
  obtain ⟨-, -, -, hgain⟩ := bindCycle_classes hw dev id c
  obtain ⟨-, hcls, hmem⟩ := hgain hbound
  exact (h _ hcls).nameFree _ hmem rfl

/-- The driver of `nv_char_plat.c`. -/
def platDriver : DrvId → DriverConfig := fun _ =>
  { name := some "nv_char_plat", owner := some 0, count := 1, major := 0, devMode := 0o660 }

def platCycle : Cycle where
  o :=
    { devmKcalloc := true, devmKzalloc := true, region := none, dynMajor := 511, addChrdev := none,
      classCreate := none, addClass := none, debugfsRoot := true }
  others := fun _ => []
  devices :=
    [({ drv := some 0, dev := some 0, index := 0, name := some "nv_plat", ops := none,
        priv := none },
      { cdevAdd := none, deviceCreate := none, deviceCreateFile := none, debugfsDir := true })]
  removed := [0]

theorem unbind_keeps_class_plat :
    ¬ UnbindReleases 0 0 (bindCycles 0 0 (init platDriver) []) platCycle :=
  unbind_keeps_class platDriver 0 0 [] platCycle (by decide)

/-- One bind and unbind leave the class live, and the next probe fails. -/
theorem second_probe_fails :
    (platProbe 0 0 (init platDriver) platCycle).2 = .ok () ∧
    ¬ UnbindReleases 0 0 (init platDriver) platCycle ∧
    (platProbe 0 0 (bindCycle 0 0 (init platDriver) platCycle) platCycle).2 = .error .EEXIST := by
  refine ⟨by decide, fun h => ?_, by decide⟩
  have hlive : (bindCycle 0 0 (init platDriver) platCycle).k.classLive 0 = true := by decide
  rw [(h 0 (by decide)).classGone] at hlive
  cases hlive

end LinuxDriverFramework.NvChar
