import LinuxDriverFramework.Foundations.Bits
import LinuxDriverFramework.NvChar.AnyOrder

/-! # The numbers of a driver's devices

`nv_char_driver_register` reserves `count` numbers from the first one on.
`nv_char_device_register_parent` takes the first number apart and ors the minor back in, without a
carry into the major.

* `Assigned w id i d`: a later registration for slot `i` gives its device the number `d`.
* `Numbered`: slot `i` gets the number `i` of the region, and no other slot does.
* `device_numbers_iff`: this is so exactly if the region is no longer than the lowest bit set in its
  first number. Regions of up to 2^20 numbers are (`numbered_of_count_le`).

A static major is meant to be between 1 and 4095, and a region to end at or below 2^32; nothing here
depends on it. -/

namespace LinuxDriverFramework.NvChar
open Foundations
set_option autoImplicit false

/-! ## The number of a slot -/

theorem mkdev_lt (ma mi : ℕ) : mkdev ma mi < 2 ^ 32 := Nat.mod_lt _ (Nat.two_pow_pos 32)

theorem dvd_mkdev_zero (ma : ℕ) : 2 ^ minorBits ∣ mkdev ma 0 := by
  have hshift : 2 ^ minorBits ∣ ma <<< minorBits ||| 0 := by
    rw [Nat.or_zero, Nat.shiftLeft_eq]
    exact Nat.dvd_mul_left _ ma
  exact (Nat.dvd_mod_iff (Nat.pow_dvd_pow 2 (by decide))).mpr hshift

/-- A first number goes into `MAJOR` and `MINOR` and comes back with the index or-ed in. -/
theorem slotDevt_eq {drv : NvCharDriver} {ma : ℕ} (h : drv.devt = mkdev ma 0) (i : ℕ) :
    drv.slotDevt i = (drv.devt ||| i) % 2 ^ 32 := by
  have hdvd : 2 ^ minorBits ∣ drv.devt := h ▸ dvd_mkdev_zero ma
  have hmajor : major drv.devt <<< minorBits = drv.devt := by
    rw [major, Nat.shiftRight_eq_div_pow, Nat.shiftLeft_eq]
    exact Nat.div_mul_cancel hdvd
  have hminor : minor drv.devt = 0 := by
    rw [minor, Nat.and_two_pow_sub_one_eq_mod]
    exact Nat.mod_eq_zero_of_dvd hdvd
  rw [NvCharDriver.slotDevt, mkdev, hmajor, hminor, Nat.zero_add]

/-- The number is computed before anything can fail. -/
theorem Binds.devt {w : World} {id : DrvId} {i n : ℕ} {a : DeviceArgs} (h : Binds w id i n a)
    (o : DeviceOutcomes) :
    ((deviceRegisterParent w a o).1.dev (.cdev n)).devt = (w.drv id).slotDevt i := by
  have hnode : ∀ (w : World) (r : Ret) (ok : Bool),
      (w.nodeDev (.cdev n) r ok).devt = (w.dev (.cdev n)).devt := by
    intro w r ok
    cases r <;> rfl
  have hbound : ((w.bound id n a).dev (.cdev n)).devt = (w.drv id).slotDevt i := by
    simp [World.bound, NvCharDev.bind, h.index]
  rw [h.register o, registerBound]
  split
  · exact hbound
  · rw [deviceRegisterNode_dev, hnode]
    exact hbound

/-! ## Between two calls on the driver -/

def Call.driver : Call → Option DrvId
  | .driverRegister drv _ | .driverUnregister drv => drv
  | .driverRegisterDevm _ drv _ _ | .driverUnregisterDevm drv => drv
  | _ => none

structure NumbersKept (id : DrvId) (w w' : World) : Prop where
  devt : (w'.drv id).devt = (w.drv id).devt
  count : (w'.drv id).count = (w.drv id).count

namespace NumbersKept

variable {id : DrvId} {w w' : World}

theorem of_drv (h : w'.drv id = w.drv id) : NumbersKept id w w' := ⟨by rw [h], by rw [h]⟩

theorem refl (id : DrvId) (w : World) : NumbersKept id w w := ⟨rfl, rfl⟩

theorem trans {w₁ w₂ w₃ : World} (h : NumbersKept id w₁ w₂) (h' : NumbersKept id w₂ w₃) :
    NumbersKept id w₁ w₃ :=
  ⟨h'.devt.trans h.devt, h'.count.trans h.count⟩

theorem of_deviceFrame {x : DevId} (h : DeviceFrame x w w') : NumbersKept id w w' :=
  ⟨by rw [h.drv id], by rw [h.drv id]⟩

theorem unregisterSlots (id id' : DrvId) (w : World) :
    NumbersKept id w (unregisterSlots w id') :=
  unregisterSlots_rel (R := NumbersKept id) (refl id) (fun h h' => h.trans h')
    (fun _ _ => of_drv rfl) (fun w x => of_deviceFrame (deviceUnregister_frame x w)) w id'

theorem driverUnregister {id' : DrvId} (hne : id' ≠ id) (w : World) :
    NumbersKept id w (driverUnregister w (some id')) := by
  have hloop := unregisterSlots id id' w
  refine hloop.trans (of_drv ?_)
  rw [driverUnregister_eq]
  simp [Function.update_of_ne hne.symm]

theorem driverUnregisterDevm {id' : DrvId} (hne : id' ≠ id) (w : World) :
    NumbersKept id w (driverUnregisterDevm w (some id')) := by
  have hloop := unregisterSlots id id' w
  refine hloop.trans (of_drv ?_)
  rw [driverUnregisterDevm_eq]
  simp [Function.update_of_ne hne.symm]

theorem classRelease (id id' : DrvId) (w : World) : NumbersKept id w (w.classRelease id') := by
  unfold World.classRelease
  split
  · by_cases h : id = id'
    · subst h
      exact ⟨by simp, by simp⟩
    · exact of_drv (by simp [Function.update_of_ne h])
  · exact refl id w

theorem devmDetach (id : DrvId) (w : World) (dev : DeviceId) :
    NumbersKept id w (devmDetach w dev) := by
  refine devmDetach_rel (R := NumbersKept id) (refl id) (fun h h' => h.trans h')
    (fun w f => of_drv rfl) (fun w a => ?_) (fun _ _ => ⟨rfl, rfl⟩) w dev
  cases a with
  | chrdevRelease dr => exact of_drv (by rw [World.runAction, (chrdevRelease_drv_same w dr).1])
  | classRelease id' => exact classRelease id id' w

end NumbersKept

theorem miscRegister_drv (w : World) (a : MiscArgs) (o : MiscOutcomes) :
    (miscRegister w a o).1.drv = w.drv := by
  unfold miscRegister
  split
  · split
    · rfl
    · simp only
      split
      · rfl
      · exact (debugfsAddDevice_k _ _ _).2
  · rfl

theorem miscUnregister_numbers (id : DrvId) (w : World) (n : ℕ) :
    NumbersKept id w (miscUnregister w n) := by
  unfold miscUnregister
  split
  · exact ((NumbersKept.of_deviceFrame (frame_modDev (.misc n) w _)).trans <|
      (NumbersKept.of_deviceFrame (frame_debugfsRemoveDevice (.misc n) _)).trans <|
      NumbersKept.of_deviceFrame (frame_waitOpens (.misc n) _)).trans (.of_drv rfl)
  · exact .refl id w

/-- The number and the length change with the driver's own calls only. -/
theorem exec_numbersKept {id : DrvId} (w : World) {c : Call} (h : c.driver ≠ some id) :
    NumbersKept id w (exec w c).1 := by
  cases c with
  | driverRegister drv o =>
    cases drv with
    | none => exact .refl id w
    | some id' =>
      have hne : id' ≠ id := fun he => h (congrArg some he)
      exact .of_drv ((driverRegister_frame w id' o).other id hne.symm)
  | driverUnregister drv =>
    cases drv with
    | none => exact .refl id w
    | some id' => exact .driverUnregister (fun he => h (congrArg some he)) w
  | driverRegisterDevm dev drv o others =>
    cases drv with
    | none => cases dev <;> exact .refl id w
    | some id' =>
      have hne : id' ≠ id := fun he => h (congrArg some he)
      exact .of_drv ((driverRegisterDevm_frame w dev id' o others).other id hne.symm)
  | driverUnregisterDevm drv =>
    cases drv with
    | none => exact .refl id w
    | some id' => exact .driverUnregisterDevm (fun he => h (congrArg some he)) w
  | devmDetach dev => exact .devmDetach id w dev
  | deviceRegister a o =>
    cases ha : a.dev with
    | none => simpa [exec, deviceRegisterParent, ha] using NumbersKept.refl id w
    | some n => exact .of_deviceFrame (deviceRegisterParent_frame n w a o ha)
  | deviceUnregister dev =>
    cases dev with
    | none => exact .refl id w
    | some n => exact .of_deviceFrame (deviceUnregister_frame (.cdev n) w)
  | charOpen x o =>
    obtain ⟨n, r, l, he⟩ := charOpen_effect w x o
    exact .of_drv (by rw [exec, he]; rfl)
  | charRelease f ret =>
    obtain ⟨n, r, l, he⟩ := charRelease_effect w f ret
    exact .of_drv (by rw [exec, he]; rfl)
  | miscRegister a o => exact .of_drv (by rw [exec, miscRegister_drv])
  | miscUnregister misc =>
    cases misc with
    | none => exact .refl id w
    | some n => exact miscUnregister_numbers id w n
  | otherAcquire a => exact .of_drv rfl

/-- The guard of the runs between two calls on driver `id`. -/
def Elsewhere (id : DrvId) (_ : World) (c : Call) : Prop := c.driver ≠ some id

theorem run_numbersKept {id : DrvId} {w w' : World} {calls : List Call}
    (hcalls : Along step (Elsewhere id) w calls) (hrun : run step w calls = some w') :
    NumbersKept id w w' := by
  refine run_along (I := NumbersKept id w) (fun s c s' hi hc hs => ?_) calls w w' (.refl id w)
    hcalls hrun
  rw [step_eq_some hs]
  exact hi.trans ((exec_numbersKept s hc).trans (.of_drv rfl))

/-! ## The numbers given out -/

/-- Before the next call on driver `id`, some registration for slot `i` can give its device the
number `d`. -/
def Assigned (w : World) (id : DrvId) (i d : ℕ) : Prop :=
  ∃ calls w' a o n, Along step (Elsewhere id) w calls ∧ run step w calls = some w' ∧
    Binds w' id i n a ∧ ((deviceRegisterParent w' a o).1.dev (.cdev n)).devt = d

structure Numbered (w : World) (id : DrvId) (r : Region) : Prop where
  number : ∀ i < r.count, ∀ d, Assigned w id i d → d = r.first + i
  inside : ∀ i < r.count, ∀ d, Assigned w id i d → r.first ≤ d ∧ d < r.first + r.count
  distinct : ∀ i < r.count, ∀ j < r.count, ∀ d, Assigned w id i d → Assigned w id j d → i = j

/-- Every slot of the driver can be bound, to a device that is unregistered first. -/
theorem assigned_iff (w : World) (id : DrvId) (i d : ℕ) :
    Assigned w id i d ↔ i < (w.drv id).count ∧ d = (w.drv id).slotDevt i := by
  constructor
  · rintro ⟨calls, w', a, o, n, hcalls, hrun, hbinds, rfl⟩
    have hkept := run_numbersKept hcalls hrun
    have hcount := hbinds.count
    rw [hkept.count] at hcount
    refine ⟨hcount, ?_⟩
    rw [hbinds.devt o, NvCharDriver.slotDevt, hkept.devt]
    rfl
  · rintro ⟨hi, rfl⟩
    let c : Call := .deviceUnregister (some 0)
    let a : DeviceArgs := ⟨some id, some 0, i, some "", none, none⟩
    have helse : Elsewhere id w c := fun h => by cases h
    have hkept : NumbersKept id w (call w c) := (exec_numbersKept w helse).trans (.of_drv rfl)
    have hbinds : Binds (call w c) id i 0 a :=
      ⟨rfl, rfl, rfl, rfl, hkept.count ▸ hi, deviceUnregister_registered w (.cdev 0)⟩
    refine ⟨[c], call w c, a, ⟨none, none, none, true⟩, 0, ⟨helse, fun _ _ => trivial⟩, rfl,
      hbinds, ?_⟩
    rw [hbinds.devt, NvCharDriver.slotDevt, hkept.devt]
    rfl

section Region

variable {w : World} {id : DrvId} {r : Region} {ma : ℕ}

theorem numbered_iff (hfirst : r.first = mkdev ma 0) (hdevt : (w.drv id).devt = r.first)
    (hcount : (w.drv id).count = r.count) :
    Numbered w id r ↔ r.count ≤ r.first.gcd (2 ^ 32) := by
  have hlt : r.first < 2 ^ 32 := hfirst ▸ mkdev_lt ma 0
  have hslot : ∀ i, (w.drv id).slotDevt i = (r.first ||| i) % 2 ^ 32 := by
    intro i
    rw [slotDevt_eq (hdevt.trans hfirst), hdevt]
  rw [← or_mod_eq_add_iff hlt]
  constructor
  · intro h i hi
    rw [← hslot i]
    exact h.number i hi _ ((assigned_iff w id i _).mpr ⟨hcount ▸ hi, rfl⟩)
  · intro hall
    have hnumber : ∀ i < r.count, ∀ d, Assigned w id i d → d = r.first + i := by
      intro i hi d hd
      rw [((assigned_iff w id i d).mp hd).2, hslot i]
      exact hall i hi
    refine ⟨hnumber, fun i hi d hd => ?_, fun i hi j hj d hdi hdj => ?_⟩
    · have hd' := hnumber i hi d hd
      omega
    · have hdi' := hnumber i hi d hdi
      have hdj' := hnumber j hj d hdj
      omega

theorem count_le_gcd (hfirst : r.first = mkdev ma 0) (hcount : r.count ≤ 2 ^ minorBits) :
    r.count ≤ r.first.gcd (2 ^ 32) := by
  have hdvd : 2 ^ minorBits ∣ r.first.gcd (2 ^ 32) :=
    Nat.dvd_gcd (hfirst ▸ dvd_mkdev_zero ma) (Nat.pow_dvd_pow 2 (by decide))
  have hpos : 0 < r.first.gcd (2 ^ 32) := Nat.gcd_pos_of_pos_right _ (Nat.two_pow_pos 32)
  exact hcount.trans (Nat.le_of_dvd hpos hdvd)

end Region

/-! ## An accepted driver -/

def reserved (w : World) (id : DrvId) (o : RegisterOutcomes) : Region :=
  ⟨.driver id, regionFirst (w.drv id).major o.dynMajor, (w.drv id).count⟩

theorem reserved_first (w : World) (id : DrvId) (o : RegisterOutcomes) :
    ∃ ma, (reserved w id o).first = mkdev ma 0 := by
  unfold reserved regionFirst
  split
  · exact ⟨_, rfl⟩
  · exact ⟨_, rfl⟩

/-- A registration that succeeds got as far as `class_create`. -/
theorem driverRegister_ok_inv {w w' : World} {id : DrvId} {o : RegisterOutcomes}
    (h : driverRegister w (some id) o = (w', .ok ())) :
    ∃ k devt, w.k.acquireRegion (.driver id) (w.drv id).major o.dynMajor (w.drv id).count
        o.region = .ok (k, devt) ∧
      driverRegisterClass (w.reserve id k devt) id o = (w', .ok ()) := by
  obtain heq | ⟨e, heq⟩ | ⟨k, devt, hk, heq⟩ := driverRegister_cases w id o
  · cases (Prod.mk.inj (heq.symm.trans h)).2
  · cases (Prod.mk.inj (heq.symm.trans h)).2
  · exact ⟨k, devt, hk, heq.symm.trans h⟩

/-- The region and the first number stay as they are. -/
theorem driverRegisterClass_ok {w w' : World} {id : DrvId} {o : RegisterOutcomes}
    (h : driverRegisterClass w id o = (w', .ok ())) :
    w'.k.regions = w.k.regions ∧ (w'.drv id).devt = (w.drv id).devt := by
  cases hk : w.k.classCreate (w.drv id).name o.classCreate with
  | error e =>
    simp only [driverRegisterClass, hk] at h
    cases (Prod.mk.inj h).2
  | ok kc =>
    obtain ⟨k, c⟩ := kc
    obtain ⟨-, -, hk'⟩ := classCreate_ok hk
    simp only [driverRegisterClass, hk] at h
    obtain rfl := (Prod.mk.inj h).1
    exact ⟨by simp [hk'], by simp⟩

theorem driverRegister_region_ok {w w' : World} {id : DrvId} {o : RegisterOutcomes}
    (h : driverRegister w (some id) o = (w', .ok ())) :
    w'.k.regions = reserved w id o :: w.k.regions ∧
    (w'.drv id).devt = (reserved w id o).first ∧ (w'.drv id).count = (reserved w id o).count := by
  obtain ⟨k, devt, hk, hclass⟩ := driverRegister_ok_inv h
  obtain ⟨hfirst, -, hk'⟩ := acquireRegion_ok hk
  obtain ⟨hregions, hdevt⟩ := driverRegisterClass_ok hclass
  simp only [World.reserve, World.modDrv_drv, World.setK_drv, Function.update_self, World.modDrv_k,
    World.setK_k] at hregions hdevt
  have hcount := (driverRegister_frame w id o).config.2.2.1
  rw [h] at hcount
  refine ⟨?_, hdevt.trans hfirst, hcount⟩
  rw [hregions, hk', hfirst]
  rfl

/-- The devices of an accepted driver have the numbers of its region exactly if the region is no
longer than the lowest bit set in its first number. -/
theorem device_numbers_iff {w w' : World} {id : DrvId} {o : RegisterOutcomes}
    (h : driverRegister w (some id) o = (w', .ok ())) :
    w'.k.regions = reserved w id o :: w.k.regions ∧
    (Numbered w' id (reserved w id o) ↔
      (w.drv id).count ≤ (regionFirst (w.drv id).major o.dynMajor).gcd (2 ^ 32)) := by
  obtain ⟨hregions, hdevt, hcount⟩ := driverRegister_region_ok h
  obtain ⟨ma, hma⟩ := reserved_first w id o
  exact ⟨hregions, numbered_iff hma hdevt hcount⟩

/-- A driver with major `major`, or a dynamic one for 0, and `count` numbers. -/
def charDriver (major count : ℕ) : DrvId → DriverConfig := fun _ =>
  { name := some "nv_char", owner := some 0, count := count, major := major, devMode := 0 }

def undisturbed : RegisterOutcomes :=
  { kcalloc := true, region := none, dynMajor := 0, classCreate := none, debugfsRoot := true }

theorem one_device_numbered :
    ∃ w', driverRegister (init (charDriver 240 1)) (some 0) undisturbed = (w', .ok ()) ∧
      Numbered w' 0 (reserved (init (charDriver 240 1)) 0 undisturbed) :=
  ⟨_, rfl, (device_numbers_iff rfl).2.mpr (by decide)⟩

/-- Major 241 with one number more than a major has: slots 0 and 2^20 get the same number, which is
the first one of the region. -/
theorem last_device_takes_first_number :
    ∃ w', driverRegister (init (charDriver 241 (2 ^ 20 + 1))) (some 0) undisturbed = (w', .ok ()) ∧
      Assigned w' 0 0 (mkdev 241 0) ∧ Assigned w' 0 (2 ^ 20) (mkdev 241 0) ∧
      ¬ Numbered w' 0 (reserved (init (charDriver 241 (2 ^ 20 + 1))) 0 undisturbed) := by
  have hfirst : ∀ w', driverRegister (init (charDriver 241 (2 ^ 20 + 1))) (some 0) undisturbed =
      (w', .ok ()) → Assigned w' 0 0 (mkdev 241 0) ∧ Assigned w' 0 (2 ^ 20) (mkdev 241 0) := by
    intro w' h
    obtain ⟨-, hdevt, hcount⟩ := driverRegister_region_ok h
    have hslot : ∀ i, (w'.drv 0).slotDevt i = (mkdev 241 0 ||| i) % 2 ^ 32 := by
      intro i
      have hmkdev : (w'.drv 0).devt = mkdev 241 0 := hdevt
      rw [slotDevt_eq hmkdev, hmkdev]
    have hlength : (w'.drv 0).count = 2 ^ 20 + 1 := hcount
    rw [assigned_iff, assigned_iff, hlength, hslot, hslot]
    decide
  refine ⟨_, rfl, (hfirst _ rfl).1, (hfirst _ rfl).2, fun hnumbered => ?_⟩
  have hsame := hnumbered.distinct 0 (by decide) (2 ^ 20) (by decide) _ (hfirst _ rfl).1
    (hfirst _ rfl).2
  revert hsame
  decide

/-! ### Short regions -/

theorem numbered_of_count_le {w w' : World} {id : DrvId} {o : RegisterOutcomes}
    (h : driverRegister w (some id) o = (w', .ok ())) (hcount : (w.drv id).count ≤ 2 ^ minorBits) :
    Numbered w' id (reserved w id o) := by
  obtain ⟨-, hdevt, hcount'⟩ := driverRegister_region_ok h
  obtain ⟨ma, hma⟩ := reserved_first w id o
  exact (numbered_iff hma hdevt hcount').mpr (count_le_gcd hma hcount)

/-- `alloc_chrdev_region` reserves no more numbers than a major has. -/
theorem acquireRegion_dynamic {k : Kernel} {p : Kernel × ℕ} {by_ : RegionOwner}
    {dynMajor count : ℕ} {e : Option Errno} (h : k.acquireRegion by_ 0 dynMajor count e = .ok p) :
    count ≤ 2 ^ minorBits := by
  unfold Kernel.acquireRegion at h
  rw [if_neg (by simp)] at h
  unfold Kernel.allocRegion at h
  split at h
  · cases h
  · split at h
    · cases h
    · omega

theorem numbered_of_dynamic_major {w w' : World} {id : DrvId} {o : RegisterOutcomes}
    (h : driverRegister w (some id) o = (w', .ok ())) (hmajor : (w.drv id).major = 0) :
    Numbered w' id (reserved w id o) := by
  obtain ⟨k, devt, hk, -⟩ := driverRegister_ok_inv h
  rw [hmajor] at hk
  exact numbered_of_count_le h (acquireRegion_dynamic hk)

end LinuxDriverFramework.NvChar
