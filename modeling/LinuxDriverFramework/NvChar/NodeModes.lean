import LinuxDriverFramework.NvChar.AnyOrder

/-! # The mode of a device node over several registrations

`nv_char_device_register_parent` writes `dev_mode` only while it is 0, and unregistering leaves it.
So the first driver with a mode that gets hold of an `nv_char_dev` decides the mode for good.

* `devnode`: the mode that udev is told.
* `LikeFresh`: the registration leaves the record and the mode that zeroed storage would get.
* `ModeFits`: the mode left in the record is 0 or that of the driver.
* `fresh_registered_iff`: over every run, the first holds at each step exactly if the second
  does. -/

namespace LinuxDriverFramework.NvChar
open Foundations
set_option autoImplicit false

/-- What `nv_char_devnode` leaves in `*mode`; `dev` is the drvdata of the class device. -/
def devnode (w : World) (dev : Option DevId) (mode : ℕ) : ℕ :=
  match dev with
  | none => mode
  | some x =>
    if (w.dev x).devMode ≠ 0 then (w.dev x).devMode
    else
      match (w.dev x).driver with
      | some id => if (w.drv id).devMode ≠ 0 then (w.drv id).devMode else mode
      | none => mode

def World.withFresh (w : World) (n : ℕ) : World := w.modDev (.cdev n) fun _ => .zero

/-- The checks pass and every kernel call succeeds. -/
def registers (w : World) (a : DeviceArgs) (o : DeviceOutcomes) : Bool :=
  match a.drv, a.dev, a.name with
  | some id, some n, some _ =>
    decide (a.index < (w.drv id).count) && !(w.dev (.cdev n)).registered && o.cdevAdd.isNone &&
      (w.k.deviceCreate (w.drv id).cls ((w.drv id).slotDevt a.index) o.deviceCreate).toBool &&
      o.deviceCreateFile.isNone
  | _, _, _ => false

/-! ## A registration that succeeds -/

section Success

variable {w : World} {id : DrvId} {n : ℕ} {a : DeviceArgs} {o : DeviceOutcomes}

/-- The mode after the assignment, which is skipped on a mode that is there already. -/
def boundMode (dev drv : ℕ) : ℕ := if dev = 0 ∧ drv ≠ 0 then drv else dev

theorem boundMode_eq_iff (dev drv : ℕ) : boundMode dev drv = drv ↔ dev = 0 ∨ dev = drv := by
  unfold boundMode
  split <;> omega

/-- The directory of a device with a name. -/
def dirBelow (root : Option ℕ) (old : Option ℕ) (ok : Bool) : Option ℕ :=
  match root with
  | some r => if ok then some r else none
  | none => old

/-- The record after a registration of a device whose record was `old`: the old mode shows and,
without a debugfs root, the old directory. -/
def registeredRecord (w : World) (id : DrvId) (a : DeviceArgs) (ok : Bool) (old : NvCharDev) :
    NvCharDev :=
  { NvCharDev.zero.bind id (w.drv id) a with
    device := some ((w.drv id).slotDevt a.index)
    debugfsDir := dirBelow w.dfs.root old.debugfsDir ok
    registered := true
    devMode := boundMode old.devMode (w.drv id).devMode }

theorem register_record (hid : a.drv = some id) (hn : a.dev = some n)
    (h : (deviceRegisterParent w a o).2 = .ok ()) :
    (deviceRegisterParent w a o).1.dev (.cdev n) =
      registeredRecord w id a o.debugfsDir (w.dev (.cdev n)) := by
  obtain ⟨-, e, he⟩ | ⟨id', m, hbinds, heq⟩ := deviceRegisterParent_inv w a o
  · rw [h] at he
    cases he
  · obtain rfl : id' = id := Option.some.inj (hbinds.drv.symm.trans hid)
    obtain rfl : m = n := Option.some.inj (hbinds.dev.symm.trans hn)
    obtain ⟨s, hs⟩ := Option.isSome_iff_exists.mp hbinds.name
    rw [heq] at h ⊢
    cases hk : (w.bound id' m a).k.cdevAdd (.cdev m) o.cdevAdd with
    | error e =>
      simp only [registerBound, hk] at h
      cases h
    | ok k =>
      simp only [registerBound, hk] at h ⊢
      rw [deviceRegisterNode_dev, h]
      simp only [World.nodeDev, World.addedDir, World.bound, World.setK_dev, World.setK_dfs,
        World.modDev_dev, World.modDev_dfs, Function.update_self, NvCharDev.bind, hs,
        registeredRecord]
      cases w.dfs.root <;> rfl

/-- With no directory left over, only the mode can tell the storage from a fresh one. -/
theorem registeredRecord_eq_iff {old : NvCharDev} (hdir : old.debugfsDir = none) (ok : Bool) :
    registeredRecord w id a ok old = registeredRecord w id a ok .zero ↔
      old.devMode = 0 ∨ old.devMode = (w.drv id).devMode := by
  have hzero : boundMode NvCharDev.zero.devMode (w.drv id).devMode = (w.drv id).devMode :=
    (boundMode_eq_iff 0 _).mpr (.inl rfl)
  rw [← boundMode_eq_iff]
  constructor
  · intro h
    have hmode := congrArg NvCharDev.devMode h
    exact hmode.trans hzero
  · intro h
    simp only [registeredRecord, hdir, h, hzero]
    rfl

theorem deviceRegisterNode_ok_iff (w : World) (id : DrvId) (x : DevId) (o : DeviceOutcomes) :
    (deviceRegisterNode w id x o).2 = .ok () ↔
      (w.k.deviceCreate (w.drv id).cls (w.dev x).devt o.deviceCreate).toBool = true ∧
        o.deviceCreateFile.isNone = true := by
  cases hk : w.k.deviceCreate (w.drv id).cls (w.dev x).devt o.deviceCreate with
  | error e => simp [deviceRegisterNode, hk, Except.toBool]
  | ok k => cases hf : o.deviceCreateFile <;> simp [deviceRegisterNode, hk, hf, Except.toBool]

/-- The new cdev does not change which class devices can be created. -/
theorem deviceCreate_cdevAdd {k k' : Kernel} {x : DevId} {e : Option Errno}
    (h : k.cdevAdd x e = .ok k') (cls : ClassPtr) (devt : ℕ) (fails : Option Errno) :
    (k'.deviceCreate cls devt fails).toBool = (k.deviceCreate cls devt fails).toBool := by
  rw [cdevAdd_ok h]
  cases cls with
  | null => rfl
  | err e => rfl
  | obj c =>
    cases fails with
    | some e => rfl
    | none =>
      simp only [Kernel.deviceCreate]
      split <;> rfl

theorem registerBound_ok_iff (w : World) (id : DrvId) (n : ℕ) (o : DeviceOutcomes) :
    (registerBound w id n o).2 = .ok () ↔ o.cdevAdd.isNone = true ∧
      (w.k.deviceCreate (w.drv id).cls (w.dev (.cdev n)).devt o.deviceCreate).toBool = true ∧
      o.deviceCreateFile.isNone = true := by
  cases hadd : o.cdevAdd with
  | some e => simp [registerBound, Kernel.cdevAdd, hadd]
  | none =>
    cases hk : w.k.cdevAdd (.cdev n) none with
    | error e => cases hk
    | ok k =>
      have hnode := deviceRegisterNode_ok_iff (w.setK k) id (.cdev n) o
      simp only [World.setK_k, World.setK_drv, World.setK_dev] at hnode
      rw [deviceCreate_cdevAdd hk] at hnode
      simp only [registerBound, hadd, hk, hnode, Option.isNone_none, true_and]

theorem registers_binds (h : registers w a o = true) : ∃ id n, Binds w id a.index n a := by
  unfold registers at h
  split at h
  · rename_i id n s hid hn hs
    simp only [Bool.and_eq_true, decide_eq_true_eq, Bool.not_eq_true'] at h
    obtain ⟨⟨⟨⟨hcount, hfree⟩, -⟩, -⟩, -⟩ := h
    exact ⟨id, n, hid, hn, by rw [hs]; rfl, rfl, hcount, hfree⟩
  · cases h

theorem Binds.registers_iff (h : Binds w id a.index n a) (o : DeviceOutcomes) :
    registers w a o = true ↔ (deviceRegisterParent w a o).2 = .ok () := by
  obtain ⟨s, hs⟩ := Option.isSome_iff_exists.mp h.name
  have hdevt : ((w.bound id n a).dev (.cdev n)).devt = (w.drv id).slotDevt a.index := by
    simp [World.bound, NvCharDev.bind]
  rw [h.register o, registerBound_ok_iff, hdevt]
  simp only [registers, h.drv, h.dev, hs, h.count, h.free, decide_true, Bool.not_false,
    Bool.true_and, Bool.and_eq_true, and_assoc]
  rfl

theorem registers_iff (w : World) (a : DeviceArgs) (o : DeviceOutcomes) :
    registers w a o = true ↔ (deviceRegisterParent w a o).2 = .ok () := by
  constructor
  · intro h
    obtain ⟨id, n, hbinds⟩ := registers_binds h
    exact (hbinds.registers_iff o).mp h
  · intro h
    obtain ⟨-, e, he⟩ | ⟨id, n, hbinds, -⟩ := deviceRegisterParent_inv w a o
    · rw [h] at he
      cases he
    · exact (hbinds.registers_iff o).mpr h

theorem registers_free (hn : a.dev = some n) (h : registers w a o = true) :
    (w.dev (.cdev n)).registered = false := by
  obtain ⟨id, m, hbinds⟩ := registers_binds h
  obtain rfl : m = n := Option.some.inj (hbinds.dev.symm.trans hn)
  exact hbinds.free

/-- A registration that succeeds succeeds on zeroed storage too. -/
theorem registers_withFresh (hn : a.dev = some n) (h : registers w a o = true) :
    registers (w.withFresh n) a o = true := by
  unfold registers at h ⊢
  split at h
  · rename_i id m s hid hm hs
    obtain rfl : m = n := Option.some.inj (hm.symm.trans hn)
    simp only [Bool.and_eq_true] at h ⊢
    obtain ⟨⟨⟨⟨hcount, -⟩, hadd⟩, hcreate⟩, hfile⟩ := h
    have hzero : ((w.withFresh m).dev (.cdev m)).registered = false := by
      simp [World.withFresh, NvCharDev.zero]
    exact ⟨⟨⟨⟨hcount, by rw [hzero]; rfl⟩, hadd⟩, hcreate⟩, hfile⟩
  · cases h

end Success

/-! ## Compared with fresh storage -/

/-- Device `n` is left as if it had not been registered before, under the mode of its driver. -/
structure LikeFresh (w : World) (id : DrvId) (n : ℕ) (a : DeviceArgs) (o : DeviceOutcomes) :
    Prop where
  accepted : (deviceRegisterParent (w.withFresh n) a o).2 = .ok ()
  record : (deviceRegisterParent w a o).1.dev (.cdev n) =
    (deviceRegisterParent (w.withFresh n) a o).1.dev (.cdev n)
  mode : ∀ m, devnode (deviceRegisterParent w a o).1 (some (.cdev n)) m =
    devnode (deviceRegisterParent (w.withFresh n) a o).1 (some (.cdev n)) m
  driverMode : ∀ m, devnode (deviceRegisterParent w a o).1 (some (.cdev n)) m =
    if (w.drv id).devMode = 0 then m else (w.drv id).devMode

def FreshRegistered (w : World) : Call → Prop
  | .deviceRegister a o => ∀ id n, a.drv = some id → a.dev = some n →
      (deviceRegisterParent w a o).2 = .ok () → LikeFresh w id n a o
  | _ => True

/-- A registration finds no mode in the record, or the mode of its driver. -/
def ModeFits (w : World) : Call → Prop
  | .deviceRegister a o => registers w a o = true → ∀ id n, a.drv = some id → a.dev = some n →
      (w.dev (.cdev n)).devMode = 0 ∨ (w.dev (.cdev n)).devMode = (w.drv id).devMode
  | _ => True

section Compare

variable {w : World} {id : DrvId} {n : ℕ} {a : DeviceArgs} {o : DeviceOutcomes}

theorem devnode_eq (hd : (w.dev (.cdev n)).driver = some id)
    (hm : (w.dev (.cdev n)).devMode = (w.drv id).devMode) (m : ℕ) :
    devnode w (some (.cdev n)) m = if (w.drv id).devMode = 0 then m else (w.drv id).devMode := by
  simp only [devnode, hd, hm]
  by_cases hz : (w.drv id).devMode = 0
  · simp only [hz, ne_eq, not_true_eq_false, if_false, if_true]
  · simp only [hz, ne_eq, not_false_eq_true, if_true, if_false]

/-- A registered device without a mode of its own is shown under the mode of its driver. -/
theorem devnode_register (hid : a.drv = some id) (hn : a.dev = some n)
    (hok : (deviceRegisterParent w a o).2 = .ok ())
    (hfits : (w.dev (.cdev n)).devMode = 0 ∨ (w.dev (.cdev n)).devMode = (w.drv id).devMode)
    (m : ℕ) : devnode (deviceRegisterParent w a o).1 (some (.cdev n)) m =
      if (w.drv id).devMode = 0 then m else (w.drv id).devMode := by
  have hrecord := register_record hid hn hok
  have hkeep : ((deviceRegisterParent w a o).1.drv id).devMode = (w.drv id).devMode := by
    rw [(deviceRegisterParent_frame n w a o hn).drv id]
  have hdriver : ((deviceRegisterParent w a o).1.dev (.cdev n)).driver = some id := by
    rw [hrecord]
    rfl
  have hmode : ((deviceRegisterParent w a o).1.dev (.cdev n)).devMode =
      ((deviceRegisterParent w a o).1.drv id).devMode := by
    rw [hrecord, hkeep]
    exact (boundMode_eq_iff _ _).mpr hfits
  rw [devnode_eq hdriver hmode, hkeep]

theorem likeFresh_iff (hid : a.drv = some id) (hn : a.dev = some n)
    (hdir : (w.dev (.cdev n)).debugfsDir = none) (hok : (deviceRegisterParent w a o).2 = .ok ()) :
    LikeFresh w id n a o ↔
      (w.dev (.cdev n)).devMode = 0 ∨ (w.dev (.cdev n)).devMode = (w.drv id).devMode := by
  have hok' : (deviceRegisterParent (w.withFresh n) a o).2 = .ok () :=
    (registers_iff _ a o).mp (registers_withFresh hn ((registers_iff w a o).mpr hok))
  have hzero : (w.withFresh n).dev (.cdev n) = .zero := by simp [World.withFresh]
  have hrecord := register_record hid hn hok
  have hfresh : (deviceRegisterParent (w.withFresh n) a o).1.dev (.cdev n) =
      registeredRecord w id a o.debugfsDir .zero :=
    (register_record hid hn hok').trans (congrArg (registeredRecord w id a o.debugfsDir) hzero)
  have hsame : registeredRecord w id a o.debugfsDir (w.dev (.cdev n)) =
      registeredRecord w id a o.debugfsDir .zero ↔
      (w.dev (.cdev n)).devMode = 0 ∨ (w.dev (.cdev n)).devMode = (w.drv id).devMode :=
    registeredRecord_eq_iff hdir o.debugfsDir
  rw [← hsame]
  constructor
  · intro h
    exact hrecord.symm.trans (h.record.trans hfresh)
  · intro h
    have hnode := devnode_register hid hn hok (hsame.mp h)
    have hnode' : ∀ m, devnode (deviceRegisterParent (w.withFresh n) a o).1 (some (.cdev n)) m =
        if (w.drv id).devMode = 0 then m else (w.drv id).devMode :=
      devnode_register hid hn hok' (.inl (by rw [hzero]; rfl))
    exact ⟨hok', hrecord.trans (h.trans hfresh.symm), fun m => (hnode m).trans (hnode' m).symm,
      hnode⟩

end Compare

/-! ## No directory outlives its registration -/

def Bare (w : World) : Prop :=
  ∀ n, (w.dev (.cdev n)).registered = false → (w.dev (.cdev n)).debugfsDir = none

theorem init_bare (cfg : DrvId → DriverConfig) : Bare (init cfg) := fun _ _ => rfl

theorem Bare.of_dev {w w' : World} (h : Bare w) (hdev : w'.dev = w.dev) : Bare w' := by
  intro n
  rw [hdev]
  exact h n

theorem Bare.of_frame {w w' : World} {x : DevId} (h : Bare w) (hf : DeviceFrame x w w')
    (hx : ∀ n, x = .cdev n → (w'.dev x).registered = false → (w'.dev x).debugfsDir = none) :
    Bare w' := by
  intro n hn
  by_cases hxn : x = .cdev n
  · subst hxn
    exact hx n rfl hn
  · rw [hf.dev _ (Ne.symm hxn)] at hn ⊢
    exact h n hn

theorem Bare.withOpens {w : World} (h : Bare w) (x : DevId) (n : ℤ) (r : Module → ℤ)
    (l : List File) : Bare (w.withOpens x n r l) := by
  intro m hm
  by_cases hx : x = .cdev m
  · subst hx
    simp only [World.withOpens, World.setK_dev, World.modDev_dev, Function.update_self] at hm ⊢
    exact h m hm
  · simp only [World.withOpens, World.setK_dev, World.modDev_dev,
      Function.update_of_ne (Ne.symm hx)] at hm ⊢
    exact h m hm

theorem Bare.deviceUnregister {w : World} (h : Bare w) (x : DevId) :
    Bare (deviceUnregister w x) := by
  refine h.of_frame (deviceUnregister_frame x w) fun n hn _ => ?_
  subst hn
  cases hr : (w.dev (.cdev n)).registered with
  | false =>
    rw [deviceUnregister_of_not hr]
    exact h n hr
  | true =>
    obtain ⟨v, hv⟩ := deviceUnregister_dev_self hr
    rw [hv]

theorem Bare.unregisterSlots {w : World} (h : Bare w) (id : DrvId) :
    Bare (unregisterSlots w id) :=
  unregisterSlots_induct (P := Bare) (fun _ _ _ hw => hw)
    (fun _ _ _ x _ _ hw => hw.deviceUnregister x) w h

/-- A directory is made in the last step of a registration, which cannot fail any more. -/
theorem Bare.deviceRegister {w : World} (h : Bare w) (a : DeviceArgs) (o : DeviceOutcomes) :
    Bare (deviceRegisterParent w a o).1 := by
  obtain ⟨heq, -⟩ | ⟨id, n, hbinds, heq⟩ := deviceRegisterParent_inv w a o
  · rwa [heq]
  · refine h.of_frame (deviceRegisterParent_frame n w a o hbinds.dev) fun m hm hreg => ?_
    obtain rfl : n = m := DevId.cdev.inj hm
    have hbound : ((w.bound id n a).dev (.cdev n)).debugfsDir = none := by
      simpa [World.bound, NvCharDev.bind] using h n hbinds.free
    rw [heq] at hreg ⊢
    obtain hdir | hdir | ⟨htrue, -⟩ := registerBound_dir (w.bound id n a) id n o
    · exact hdir.trans hbound
    · exact hdir
    · rw [htrue] at hreg
      cases hreg

theorem Bare.miscRegister {w : World} (h : Bare w) (a : MiscArgs) (o : MiscOutcomes) :
    Bare (NvChar.miscRegister w a o).1 := by
  have hkeep : ∀ n, (NvChar.miscRegister w a o).1.dev (.cdev n) = w.dev (.cdev n) := by
    intro n
    unfold NvChar.miscRegister
    split
    · split
      · rfl
      · simp only
        split
        · simp
        · rw [(frame_debugfsAddDevice (.misc _) _ _).dev _ (by simp)]
          simp
    · rfl
  intro n
  rw [hkeep n]
  exact h n

theorem Bare.miscUnregister {w : World} (h : Bare w) (m : ℕ) :
    Bare (NvChar.miscUnregister w m) := by
  have hkeep : ∀ n, (NvChar.miscUnregister w m).dev (.cdev n) = w.dev (.cdev n) := by
    intro n
    unfold NvChar.miscUnregister
    split
    · simp only [waitOpens_dev]
      rw [(frame_debugfsRemoveDevice (.misc m) _).dev _ (by simp)]
      simp
    · rfl
  intro n
  rw [hkeep n]
  exact h n

theorem devmDetach_dev (w : World) (dev : DeviceId) : (devmDetach w dev).dev = w.dev := by
  refine devmDetach_rel (R := fun w w' => w'.dev = w.dev) (fun _ => rfl)
    (fun h h' => h'.trans h) (fun _ _ => rfl) (fun w a => ?_) (fun _ _ => rfl) w dev
  cases a with
  | chrdevRelease dr => exact (chrdevRelease_frame 0 w dr).dev
  | classRelease id => exact (classRelease_frame id w).dev

theorem exec_bare {w : World} (h : Bare w) (c : Call) : Bare (exec w c).1 := by
  cases c with
  | driverRegister drv o =>
    cases drv with
    | none => exact h
    | some id => exact h.of_dev (driverRegister_frame w id o).dev
  | driverUnregister drv =>
    cases drv with
    | none => exact h
    | some id => exact (h.unregisterSlots id).of_dev (by rw [exec, driverUnregister_eq]; rfl)
  | driverRegisterDevm dev drv o others =>
    cases drv with
    | none => cases dev <;> exact h
    | some id => exact h.of_dev (driverRegisterDevm_frame w dev id o others).dev
  | driverUnregisterDevm drv =>
    cases drv with
    | none => exact h
    | some id => exact (h.unregisterSlots id).of_dev (by rw [exec, driverUnregisterDevm_eq]; rfl)
  | devmDetach dev => exact h.of_dev (devmDetach_dev w dev)
  | deviceRegister a o => exact h.deviceRegister a o
  | deviceUnregister dev =>
    cases dev with
    | none => exact h
    | some n => exact h.deviceUnregister (.cdev n)
  | charOpen x o =>
    obtain ⟨n, r, l, he⟩ := charOpen_effect w x o
    rw [exec, he]
    exact h.withOpens x n r l
  | charRelease f ret =>
    obtain ⟨n, r, l, he⟩ := charRelease_effect w f ret
    rw [exec, he]
    exact h.withOpens f.dev n r l
  | miscRegister a o => exact h.miscRegister a o
  | miscUnregister misc =>
    cases misc with
    | none => exact h
    | some n => exact h.miscUnregister n
  | otherAcquire a => exact h.of_dev rfl

theorem step_bare {w w' : World} {c : Call} (h : Bare w) (hs : step w c = some w') : Bare w' := by
  rw [step_eq_some hs]
  exact (exec_bare h c).of_dev rfl

/-! ## Over whole runs -/

/-- At each call: fresh if registered, exactly if the mode in the record fits. -/
theorem freshRegistered_iff {w : World} (h : Bare w) (c : Call) :
    FreshRegistered w c ↔ ModeFits w c := by
  cases c with
  | deviceRegister a o =>
    constructor
    · intro hfresh hregisters id n hid hn
      have hok := (registers_iff w a o).mp hregisters
      exact (likeFresh_iff hid hn (h n (registers_free hn hregisters)) hok).mp
        (hfresh id n hid hn hok)
    · intro hfits id n hid hn hok
      have hregisters := (registers_iff w a o).mpr hok
      exact (likeFresh_iff hid hn (h n (registers_free hn hregisters)) hok).mpr
        (hfits hregisters id n hid hn)
  | _ => exact Iff.rfl

/-- In every run, the successful registrations leave their devices as fresh ones under the mode of
their drivers exactly if each of them finds a mode that fits. -/
theorem fresh_registered_iff (cfg : DrvId → DriverConfig) (calls : List Call) :
    Along step FreshRegistered (init cfg) calls ↔ Along step ModeFits (init cfg) calls :=
  along_iff_of_invariant (fun _ _ _ hi hs => step_bare hi hs)
    (fun _ c hi => freshRegistered_iff hi c) (init_bare cfg)

/-- Driver 0 lets everybody write to its nodes, driver 1 only root. -/
def publicAndPrivate : DrvId → DriverConfig
  | 0 => { name := some "public", owner := some 0, count := 1, major := 240, devMode := 0o666 }
  | _ => { name := some "private", owner := some 0, count := 1, major := 241, devMode := 0o600 }

def publicThenPrivate : List Call :=
  let driver (id : DrvId) : Call := .driverRegister (some id) ⟨true, none, 0, none, true⟩
  let device (id : DrvId) : Call :=
    .deviceRegister ⟨some id, some 0, 0, some "nv0", none, none⟩ ⟨none, none, none, true⟩
  [driver 0, driver 1, device 0, .deviceUnregister (some 0), device 1]

/-- Registered under driver 0, unregistered, registered under driver 1: the node of driver 1 can be
written by everybody. -/
theorem public_mode_outlives_driver :
    ∃ w, run step (init publicAndPrivate) publicThenPrivate = some w ∧
      (w.dev (.cdev 0)).registered = true ∧ (w.dev (.cdev 0)).driver = some 1 ∧
      (w.drv 1).devMode = 0o600 ∧ devnode w (some (.cdev 0)) 0 = 0o666 ∧
      ¬ Along step FreshRegistered (init publicAndPrivate) publicThenPrivate := by
  refine ⟨_, rfl, rfl, rfl, rfl, rfl, fun h => ?_⟩
  have hlast := (((h.2 _ rfl).2 _ rfl).2 _ rfl).2 _ rfl
  have hmode := (hlast.1 1 0 rfl rfl rfl).driverMode 0
  cases hmode

end LinuxDriverFramework.NvChar
