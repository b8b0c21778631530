import LinuxDriverFramework.NvChar.Calls
import LinuxDriverFramework.NvChar.DriverFacts

/-! # A driver registration that fails

`nv_char_driver_register` stores the new table, the number and the class as it gets them, and frees
the new table when a later step fails. What the driver had before the call is gone then.

* `Unchanged`: two worlds differ in the log at most.
* `registerKeeps`: the calls that leave the world as it is if they fail. -/

namespace LinuxDriverFramework.NvChar
open Foundations
set_option autoImplicit false

def Unchanged (w w' : World) : Prop := w' = w.setK { w.k with calls := w'.k.calls }

/-- A failed registration changes nothing, and so every device in the table is still found. -/
structure KeptOnError (w : World) (drv : Option DrvId) (o : RegisterOutcomes) : Prop where
  unchanged : ∀ e, (driverRegister w drv o).2 = .error e → Unchanged w (driverRegister w drv o).1
  found : ∀ e id t i x, (driverRegister w drv o).2 = .error e → (w.drv id).devices = some t →
    t i = some x → ∃ t', ((driverRegister w drv o).1.drv id).devices = some t' ∧ t' i = some x

/-- The argument check fails, or there is no table to lose and, if `class_create` fails, the driver
has that error and that number already. -/
def registerKeeps (w : World) (drv : Option DrvId) (o : RegisterOutcomes) : Bool :=
  match drv with
  | none => true
  | some id =>
    if (w.drv id).invalid then true
    else if !o.kcalloc then (w.drv id).devices.isNone
    else
      match w.k.acquireRegion (.driver id) (w.drv id).major o.dynMajor (w.drv id).count
          o.region with
      | .error _ => (w.drv id).devices.isNone
      | .ok (k, devt) =>
        match k.classCreate (w.drv id).name o.classCreate with
        | .error e =>
          (w.drv id).devices.isNone && decide ((w.drv id).cls = .err e) &&
            decide ((w.drv id).devt = devt)
        | .ok _ => true

/-! ## What a failed registration leaves behind -/

/-- The driver is changed by `f`, and the log is `l`. -/
def World.leave (w : World) (id : DrvId) (l : List KCall) (f : NvCharDriver → NvCharDriver) : World :=
  (w.setK { w.k with calls := l }).modDrv id f

theorem unchanged_leave_iff (w : World) (id : DrvId) (l : List KCall)
    (f : NvCharDriver → NvCharDriver) : Unchanged w (w.leave id l f) ↔ f (w.drv id) = w.drv id := by
  constructor
  · intro h
    have hdrv := congrArg (fun w' : World => w'.drv id) h
    simpa [World.leave] using hdrv
  · intro h
    simp only [Unchanged, World.leave, World.modDrv, World.setK, h, Function.update_eq_self]

theorem unregisterRegion_last (k : Kernel) (o : RegionOwner) (first count : ℕ) (l : List KCall) :
    ∃ l', Kernel.unregisterRegion { k with regions := ⟨o, first, count⟩ :: k.regions, calls := l }
      o first count = { k with calls := l' } :=
  ⟨.regionRelease o true :: l, by simp [Kernel.unregisterRegion]⟩

theorem release_acquired {k k' : Kernel} {id : DrvId} {drv : NvCharDriver} {dynMajor devt : ℕ}
    {e : Option Errno}
    (h : k.acquireRegion (.driver id) drv.major dynMajor drv.count e = .ok (k', devt))
    (drv' : NvCharDriver) (hmajor : drv'.major = drv.major) (hcount : drv'.count = drv.count)
    (hdevt : drv'.devt = devt) :
    ∃ l, k'.releaseDriverRegion id drv' = { k with calls := l } := by
  obtain ⟨hfirst, -, rfl⟩ := acquireRegion_ok h
  unfold Kernel.releaseDriverRegion
  rw [hmajor, hcount, hdevt]
  split
  · rename_i hm
    have hstart : devt = mkdev drv.major 0 := by rw [hfirst, regionFirst, if_pos hm]
    rw [← hstart]
    exact unregisterRegion_last k _ devt drv.count _
  · exact unregisterRegion_last k _ devt drv.count _

theorem driverRegister_kcalloc {w : World} {id : DrvId} {o : RegisterOutcomes}
    (hvalid : (w.drv id).invalid = false) (hk : o.kcalloc = false) :
    driverRegister w (some id) o =
      (w.leave id w.k.calls fun d => { d with devices := none }, .error .ENOMEM) := by
  simp only [driverRegister, hvalid, hk, Bool.not_false, Bool.false_eq_true, if_true, if_false]
  rfl

theorem driverRegister_region {w : World} {id : DrvId} {o : RegisterOutcomes} {e : Errno}
    (hvalid : (w.drv id).invalid = false) (hk : o.kcalloc = true)
    (hregion : w.k.acquireRegion (.driver id) (w.drv id).major o.dynMajor (w.drv id).count o.region =
      .error e) :
    driverRegister w (some id) o =
      (w.leave id w.k.calls fun d => { d with devices := none }, .error e) := by
  simp only [driverRegister, hvalid, hk, Bool.not_true, Bool.false_eq_true, if_false, World.modDrv_k,
    World.modDrv_drv, Function.update_self, hregion, modDrv_modDrv]
  rfl

theorem driverRegister_class {w : World} {id : DrvId} {o : RegisterOutcomes} {k : Kernel} {devt : ℕ}
    {e : Errno} (hvalid : (w.drv id).invalid = false) (hk : o.kcalloc = true)
    (hregion : w.k.acquireRegion (.driver id) (w.drv id).major o.dynMajor (w.drv id).count o.region =
      .ok (k, devt))
    (hclass : k.classCreate (w.drv id).name o.classCreate = .error e) :
    ∃ l, driverRegister w (some id) o =
      (w.leave id l fun d => { d with devices := none, cls := .err e, devt := devt }, .error e) := by
  let drv' : NvCharDriver :=
    { w.drv id with devices := some emptyTable, devt := devt, cls := .err e }
  obtain ⟨l, hl⟩ := release_acquired hregion drv' rfl rfl rfl
  refine ⟨l, ?_⟩
  simp only [driverRegister, hvalid, hk, Bool.not_true, Bool.false_eq_true, if_false, World.modDrv_k,
    World.modDrv_drv, Function.update_self, hregion, driverRegisterClass, World.setK_k,
    World.setK_drv, hclass]
  rw [hl]
  simp only [World.modDrv, World.setK, World.leave, Function.update_self, Function.update_idem]

theorem driverRegister_ok {w : World} {id : DrvId} {o : RegisterOutcomes} {k : Kernel} {devt : ℕ}
    {kc : Kernel × ℕ} (hvalid : (w.drv id).invalid = false) (hk : o.kcalloc = true)
    (hregion : w.k.acquireRegion (.driver id) (w.drv id).major o.dynMajor (w.drv id).count o.region =
      .ok (k, devt))
    (hclass : k.classCreate (w.drv id).name o.classCreate = .ok kc) :
    (driverRegister w (some id) o).2 = .ok () := by
  simp only [driverRegister, hvalid, hk, Bool.not_true, Bool.false_eq_true, if_false, World.modDrv_k,
    World.modDrv_drv, Function.update_self, hregion, driverRegisterClass, World.setK_k,
    World.setK_drv, hclass]

/-! ## The condition -/

theorem KeptOnError.of_ok {w : World} {drv : Option DrvId} {o : RegisterOutcomes}
    (h : (driverRegister w drv o).2 = .ok ()) : KeptOnError w drv o where
  unchanged e he := by
    rw [h] at he
    cases he
  found e _ _ _ _ he := by
    rw [h] at he
    cases he

theorem KeptOnError.of_unchanged {w : World} {drv : Option DrvId} {o : RegisterOutcomes}
    (h : Unchanged w (driverRegister w drv o).1) : KeptOnError w drv o where
  unchanged _ _ := h
  found _ id t i x _ ht hx := by
    have hdrv := congrArg (fun w' : World => (w'.drv id).devices) h
    exact ⟨t, hdrv.trans ht, hx⟩

theorem keptOnError_leave_iff {w : World} {id : DrvId} {o : RegisterOutcomes} {l : List KCall}
    {f : NvCharDriver → NvCharDriver} {e : Errno}
    (h : driverRegister w (some id) o = (w.leave id l f, .error e)) :
    KeptOnError w (some id) o ↔ f (w.drv id) = w.drv id := by
  rw [← unchanged_leave_iff w id l f]
  constructor
  · intro hk
    have hunchanged := hk.unchanged e (by rw [h])
    rwa [h] at hunchanged
  · intro hu
    exact .of_unchanged (by rwa [h])

theorem devices_none_iff (d : NvCharDriver) : { d with devices := none } = d ↔ d.devices.isNone := by
  rw [Option.isNone_iff_eq_none]
  constructor
  · intro h
    exact (congrArg NvCharDriver.devices h).symm
  · intro h
    cases d
    simp_all

theorem class_error_iff (d : NvCharDriver) (e : Errno) (devt : ℕ) :
    { d with devices := none, cls := .err e, devt := devt } = d ↔
      (d.devices.isNone && decide (d.cls = .err e) && decide (d.devt = devt)) = true := by
  simp only [Bool.and_eq_true, decide_eq_true_eq, Option.isNone_iff_eq_none]
  constructor
  · intro h
    exact ⟨⟨(congrArg NvCharDriver.devices h).symm, (congrArg NvCharDriver.cls h).symm⟩,
      (congrArg NvCharDriver.devt h).symm⟩
  · rintro ⟨⟨hdevices, hcls⟩, hdevt⟩
    cases d
    simp_all

/-- The failed calls that lose nothing are the ones that had nothing to lose. -/
theorem kept_on_error_iff (w : World) (drv : Option DrvId) (o : RegisterOutcomes) :
    KeptOnError w drv o ↔ registerKeeps w drv o = true := by
  cases drv with
  | none => exact ⟨fun _ => rfl, fun _ => .of_unchanged rfl⟩
  | some id =>
    unfold registerKeeps
    cases hvalid : (w.drv id).invalid with
    | true =>
      simp only [hvalid, if_true, iff_true]
      refine .of_unchanged ?_
      simp only [driverRegister, hvalid, if_true]
      rfl
    | false =>
      cases hk : o.kcalloc with
      | false =>
        rw [keptOnError_leave_iff (driverRegister_kcalloc hvalid hk), devices_none_iff]
        simp only [hvalid, Bool.false_eq_true, if_false, Bool.not_false, if_true]
      | true =>
        simp only [hvalid, Bool.not_true, Bool.false_eq_true, if_false]
        cases hregion : w.k.acquireRegion (.driver id) (w.drv id).major o.dynMajor (w.drv id).count
            o.region with
        | error e =>
          rw [keptOnError_leave_iff (driverRegister_region hvalid hk hregion), devices_none_iff]
        | ok p =>
          obtain ⟨k, devt⟩ := p
          cases hclass : k.classCreate (w.drv id).name o.classCreate with
          | error e =>
            obtain ⟨l, hl⟩ := driverRegister_class hvalid hk hregion hclass
            rw [keptOnError_leave_iff hl, class_error_iff]
            simp only [hclass]
          | ok kc =>
            have hok := driverRegister_ok hvalid hk hregion hclass
            simp only [hclass, iff_true]
            exact .of_ok hok

/-! ## Registering twice -/

def oneChar : DrvId → DriverConfig := fun _ =>
  { name := some "nv_char", owner := some 0, count := 1, major := 240, devMode := 0 }

def registerOnce : Call :=
  .driverRegister (some 0)
    { kcalloc := true, region := none, dynMajor := 0, classCreate := none, debugfsRoot := true }

def registerDevice : Call :=
  .deviceRegister
    { drv := some 0, dev := some 0, index := 0, name := some "nv0", ops := none, priv := none }
    { cdevAdd := none, deviceCreate := none, deviceCreateFile := none, debugfsDir := true }

/-- The second registration finds the major taken, and the table with the device is lost: the
driver is unregistered, its device is not. -/
theorem device_lost_by_second_registration :
    ∃ w w', run step (init oneChar) [registerOnce, registerDevice] = some w ∧
      run step w [registerOnce, .driverUnregister (some 0)] = some w' ∧
      (w.dev (.cdev 0)).registered = true ∧ (w'.dev (.cdev 0)).registered = true ∧
      ¬ KeptOnError w (some 0) ⟨true, none, 0, none, true⟩ := by
  refine ⟨_, _, rfl, rfl, rfl, rfl, fun h => ?_⟩
  obtain ⟨t, ht, -⟩ := h.found .EBUSY 0 _ 0 (.cdev 0) rfl rfl rfl
  cases ht

end LinuxDriverFramework.NvChar
