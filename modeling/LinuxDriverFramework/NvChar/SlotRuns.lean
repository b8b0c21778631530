import LinuxDriverFramework.NvChar.SlotInvariant

/-! # The slot tables over whole runs

`orderly` is the order of calls under which the tables stay in step, `call_tabled` and
`call_classHeld` are the steps of the two invariants, and the end of the file states what follows
for the four functions that register and unregister drivers and devices without devm. -/

namespace LinuxDriverFramework.NvChar
open Foundations
set_option autoImplicit false

def registeredIn (hs : List Holder) (id : DrvId) : Bool :=
  decide (Holder.driver id ∈ hs) || decide (Holder.devm id ∈ hs)

def World.driverRegistered (w : World) (id : DrvId) : Bool := registeredIn w.holders id

def DevmAction.classOf : DevmAction → Option DrvId
  | .classRelease id => some id
  | .chrdevRelease _ => none

/-- A driver is registered only while it is not (without a device the devm call is refused in any
case), and the devm core unwinds a device only when the drivers with a class action on it are not
registered. -/
def orderly (w : World) : Call → Bool
  | .driverRegister (some id) _ => !w.driverRegistered id
  | .driverRegisterDevm (some _) (some id) _ _ => !w.driverRegistered id
  | .devmDetach dev => (w.k.devm dev).all fun a => a.classOf.all fun id => !w.driverRegistered id
  | _ => true

/-- Only a registered driver has a class. -/
def ClassHeld (w : World) : Prop := ∀ id c, (w.drv id).cls = .obj c → w.driverRegistered id = true

theorem ClassHeld.none {w : World} (h : ClassHeld w) {id : DrvId}
    (hid : (!w.driverRegistered id) = true) (c : ℕ) : (w.drv id).cls ≠ .obj c := by
  intro hc
  rw [h id c hc] at hid
  cases hid

/-- A driver without a class has no registered device. -/
theorem Tabled.vacant {w : World} (ht : Tabled w) {id : DrvId}
    (h : ∀ c, (w.drv id).cls ≠ .obj c) : (directory w).Vacant id := by
  intro x i hx
  obtain ⟨-, -, c, hc, -⟩ := ht.homed x id i hx
  exact h c hc

theorem exec_tabled {w : World} {c : Call} (ht : Tabled w) (hh : ClassHeld w)
    (ho : orderly w c = true) : Tabled (exec w c).1 := by
  cases c with
  | driverRegister drv o =>
    cases drv with
    | none => exact ht
    | some id =>
      have hnone := hh.none ho
      exact ht.replace (ht.vacant hnone) (driverRegister_frame w id o)
        (driverRegister_replaced w id o hnone).1
  | driverUnregister drv =>
    cases drv with
    | none => exact ht
    | some id =>
      obtain ⟨hf, hr⟩ := driverUnregister_replaced w id
      exact (ht.unregisterSlots id).1.replace (ht.unregisterSlots_vacant id) hf hr
  | driverRegisterDevm dev drv o others =>
    cases drv with
    | none => cases dev <;> exact ht
    | some id =>
      cases dev with
      | none => exact ht
      | some dev =>
        have hnone := hh.none ho
        exact ht.replace (ht.vacant hnone) (driverRegisterDevm_frame w dev id o others)
          (driverRegisterDevm_replaced w dev id o others hnone).1
  | driverUnregisterDevm drv =>
    cases drv with
    | none => exact ht
    | some id =>
      obtain ⟨hf, hr⟩ := driverUnregisterDevm_replaced w id
      exact (ht.unregisterSlots id).1.replace (ht.unregisterSlots_vacant id) hf hr
  | devmDetach dev =>
    refine ((slotFrame_runActions w dev fun id hid => ?_).tabled ht).freeTables dev
    have hid' := List.all_eq_true.mp ho _ hid
    exact hh.none hid'
  | deviceRegister a o => exact ht.deviceRegister a o
  | deviceUnregister dev =>
    cases dev with
    | none => exact ht
    | some n => exact (ht.deviceUnregister (.cdev n)).1
  | charOpen x o =>
    obtain ⟨n, r, l, h⟩ := charOpen_effect w x o
    rw [exec, h]
    exact (slotFrame_withOpens w x n r l).tabled ht
  | charRelease f ret =>
    obtain ⟨n, r, l, h⟩ := charRelease_effect w f ret
    rw [exec, h]
    exact (slotFrame_withOpens w f.dev n r l).tabled ht
  | miscRegister a o => exact (slotFrame_miscRegister w a o ht.misc).tabled ht
  | miscUnregister misc =>
    cases misc with
    | none => exact ht
    | some n => exact (slotFrame_miscUnregister w n).tabled ht
  | otherAcquire a => exact (slotFrame_interfere w [a]).tabled ht

theorem Tabled.withHolders {w : World} (ht : Tabled w) (hs : List Holder) :
    Tabled { w with holders := hs } :=
  SlotFrame.tabled (by constructor <;> intros <;>
    first | rfl | exact ⟨rfl, rfl, rfl, rfl⟩ | exact .refl _) ht

theorem holdersAfter_registered {hs : List Holder} {c : Call} {r : Ret} {id : DrvId}
    (h : registeredIn hs id = true) (h₁ : c.drops ≠ some (.driver id))
    (h₂ : c.drops ≠ some (.devm id)) : registeredIn (holdersAfter hs c r) id = true := by
  simp only [registeredIn, Bool.or_eq_true, decide_eq_true_eq] at h ⊢
  unfold holdersAfter
  split
  · exact h.imp (List.mem_cons_of_mem _) (List.mem_cons_of_mem _)
  · rename_i d hd _
    refine h.imp (fun h => (List.mem_erase_of_ne ?_).mpr h) (fun h => (List.mem_erase_of_ne ?_).mpr h)
    · rintro rfl
      exact h₁ hd
    · rintro rfl
      exact h₂ hd
  · exact h

theorem exec_cls {w : World} {c : Call} (ht : Tabled w) (hh : ClassHeld w) (ho : orderly w c = true) {id : DrvId}
    {n : ℕ} (h : ((exec w c).1.drv id).cls = .obj n) :
    ((w.drv id).cls = .obj n ∧ c.drops ≠ some (.driver id) ∧ c.drops ≠ some (.devm id)) ∨
    registeredIn (holdersAfter w.holders c (exec w c).2) id = true := by
  have hdevice : ∀ {x : DevId} {w' : World}, DeviceFrame x w w' → (w'.drv id).cls = .obj n →
      (w.drv id).cls = .obj n := fun hf h => by rwa [hf.drv id] at h
  have hslots : ∀ {w' : World}, SlotFrame w w' → (w'.drv id).cls = .obj n →
      (w.drv id).cls = .obj n := fun hf h => by rwa [hf.drv] at h
  have hloop : ∀ d, ((unregisterSlots w d).drv id).cls = (w.drv id).cls := fun d =>
    unregisterSlots_rel (R := fun w w' => (w'.drv id).cls = (w.drv id).cls) (fun _ => rfl)
      (fun h h' => h'.trans h) (fun _ _ => rfl)
      (fun w x => by rw [(deviceUnregister_frame x w).drv id]) w d
  have hstay : c.drops = none → (w.drv id).cls = .obj n →
      ((w.drv id).cls = .obj n ∧ c.drops ≠ some (.driver id) ∧ c.drops ≠ some (.devm id)) ∨
      registeredIn (holdersAfter w.holders c (exec w c).2) id = true :=
    fun hc h => .inl ⟨h, by simp [hc], by simp [hc]⟩
  cases c with
  | driverRegister drv o =>
    cases drv with
    | none => exact hstay rfl h
    | some d =>
      by_cases hid : id = d
      · subst hid
        cases hr : (driverRegister w (some id) o).2 with
        | error e => exact absurd h ((driverRegister_replaced w id o (hh.none ho)).2 e hr n)
        | ok u =>
          refine .inr ?_
          rw [exec, hr]
          simp [registeredIn, holdersAfter, Call.acquires]
      · rw [exec, (driverRegister_frame w d o).other id hid] at h
        exact hstay rfl h
  | driverUnregister drv =>
    cases drv with
    | none => exact hstay rfl h
    | some d =>
      by_cases hid : id = d
      · subst hid
        simp [exec, driverUnregister, NvCharDriver.clear] at h
      · rw [exec, (driverUnregister_replaced w d).1.other id hid, hloop] at h
        exact .inl ⟨h, by simp [Call.drops, Ne.symm hid], by simp [Call.drops]⟩
  | driverRegisterDevm dev drv o others =>
    cases drv with
    | none =>
      cases dev <;> exact hstay rfl h
    | some d =>
      cases dev with
      | none => exact hstay rfl h
      | some dev =>
        by_cases hid : id = d
        · subst hid
          cases hr : (driverRegisterDevm w (some dev) (some id) o others).2 with
          | error e =>
            exact absurd h ((driverRegisterDevm_replaced w dev id o others (hh.none ho)).2 e hr n)
          | ok u =>
            refine .inr ?_
            rw [exec, hr]
            simp [registeredIn, holdersAfter, Call.acquires]
        · rw [exec, (driverRegisterDevm_frame w dev d o others).other id hid] at h
          exact hstay rfl h
  | driverUnregisterDevm drv =>
    cases drv with
    | none => exact hstay rfl h
    | some d =>
      by_cases hid : id = d
      · subst hid
        simp [exec, driverUnregisterDevm, NvCharDriver.clear] at h
      · rw [exec, (driverUnregisterDevm_replaced w d).1.other id hid, hloop] at h
        exact .inl ⟨h, by simp [Call.drops], by simp [Call.drops, Ne.symm hid]⟩
  | devmDetach dev =>
    have hf := slotFrame_runActions w dev fun d hd => hh.none (List.all_eq_true.mp ho _ hd)
    exact hstay rfl (hslots hf h)
  | deviceRegister a o =>
    refine hstay rfl ?_
    cases ha : a.dev with
    | some m => exact hdevice (deviceRegisterParent_frame m w a o ha) h
    | none => simpa [exec, deviceRegisterParent, ha] using h
  | deviceUnregister dev =>
    refine hstay rfl ?_
    cases dev with
    | none => exact h
    | some m => exact hdevice (deviceUnregister_frame (.cdev m) w) h
  | charOpen x o =>
    obtain ⟨m, r, l, he⟩ := charOpen_effect w x o
    rw [exec, he] at h
    exact hstay rfl h
  | charRelease f ret =>
    obtain ⟨m, r, l, he⟩ := charRelease_effect w f ret
    rw [exec, he] at h
    exact hstay rfl h
  | miscRegister a o =>
    exact hstay rfl (hslots (slotFrame_miscRegister w a o ht.misc) h)
  | miscUnregister misc =>
    cases misc with
    | none => exact hstay rfl h
    | some m =>
      exact .inl ⟨hslots (slotFrame_miscUnregister w m) h, by simp [Call.drops], by simp [Call.drops]⟩
  | otherAcquire a =>
    exact hstay rfl (hslots (slotFrame_interfere w [a]) h)

theorem call_classHeld {w : World} {c : Call} (ht : Tabled w) (hh : ClassHeld w)
    (ho : orderly w c = true) : ClassHeld (call w c) := by
  intro id n hc
  have hexec : ((exec w c).1.drv id).cls = .obj n := hc
  rcases exec_cls ht hh ho hexec with ⟨h, h₁, h₂⟩ | h
  · exact holdersAfter_registered (hh id n h) h₁ h₂
  · exact h

theorem call_tabled {w : World} {c : Call} (ht : Tabled w) (hh : ClassHeld w)
    (ho : orderly w c = true) : Tabled (call w c) :=
  (exec_tabled ht hh ho).withHolders _

theorem run_tabled {cfg : DrvId → DriverConfig} {calls : List Call} {w : World}
    (ho : Along step (fun w c => orderly w c = true) (init cfg) calls)
    (hr : run step (init cfg) calls = some w) : Tabled w ∧ ClassHeld w := by
  refine run_along (I := fun w => Tabled w ∧ ClassHeld w) (fun w c w' hi ho hs => ?_) calls _ w
    ⟨init_tabled cfg, fun id c hc => by cases hc⟩ ho hr
  rw [step_eq_some hs]
  exact ⟨call_tabled hi.1 hi.2 ho, call_classHeld hi.1 hi.2 ho⟩

/-! ## The four functions without devm -/

/-- A call of one of the four, registering a driver only while it is not registered. -/
def plainCall (w : World) : Call → Bool
  | .driverRegister drv _ => drv.all fun id => !w.driverRegistered id
  | .driverUnregister _ | .deviceRegister _ _ | .deviceUnregister _ => true
  | _ => false

theorem orderly_of_plainCall {w : World} {c : Call} (h : plainCall w c = true) :
    orderly w c = true := by
  cases c with
  | driverRegister drv o =>
    cases drv with
    | none => rfl
    | some id => simpa [plainCall, orderly] using h
  | driverUnregister _ => rfl
  | deviceRegister _ _ => rfl
  | deviceUnregister _ => rfl
  | _ => cases h

/-- What the slot tables promise in a state. -/
structure SlotsInStep (w : World) : Prop where
  /-- registered with a driver exactly when in that driver's table, at the device's index -/
  slot : ∀ x id, ((w.dev x).registered = true ∧ (w.dev x).driver = some id) ↔
    ∃ t, (w.drv id).devices = some t ∧ t (w.dev x).index = some x
  /-- in no other slot of any table -/
  only : ∀ x id t i, (w.drv id).devices = some t → t i = some x →
    (w.dev x).driver = some id ∧ (w.dev x).index = i
  slotWrites : ∀ id tableLive inRange, .slotWrite id tableLive inRange ∈ w.k.calls →
    tableLive = true ∧ inRange = true
  /-- every `cdev_del` undoes a `cdev_add`, and only registered devices still await theirs -/
  cdevDel : ∀ x added, .cdevDel x added ∈ w.k.calls → added = true
  cdevs : ∀ x, w.k.calls.count (.cdevAdd x) =
    w.k.calls.count (.cdevDel x true) + if (w.dev x).registered then 1 else 0
  deviceDestroy : ∀ x classLive nodeLive, .deviceDestroy x classLive nodeLive ∈ w.k.calls →
    classLive = true ∧ nodeLive = true
  /-- unregistering a driver leaves none of its devices registered -/
  afterUnregister : ∀ id w', step w (.driverUnregister (some id)) = some w' →
    ∀ x, ¬ ((w'.dev x).registered = true ∧ (w'.dev x).driver = some id)

theorem Tabled.driverUnregister_none {w : World} (ht : Tabled w) (id : DrvId) (x : DevId) :
    ¬ (((driverUnregister w (some id)).dev x).registered = true ∧
      ((driverUnregister w (some id)).dev x).driver = some id) := by
  obtain ⟨hf, -⟩ := driverUnregister_replaced w id
  rw [hf.dev]
  rintro ⟨hr, hd⟩
  exact ht.unregisterSlots_vacant id x _ (home_eq_some.mpr ⟨hr, hd, rfl⟩)

theorem Tabled.slotsInStep {w : World} (ht : Tabled w) : SlotsInStep w := by
  have hat : ∀ id i x, (directory w).at_ id i = some x ↔
      ∃ t, (w.drv id).devices = some t ∧ t i = some x := fun id i x => Option.bind_eq_some_iff
  have hclean : ∀ c ∈ w.k.calls, c.ofDevice = true → c.clean = true := fun c hc hd =>
    ht.clean c (List.mem_filter.mpr ⟨hc, hd⟩)
  refine ⟨fun x id => ?_, fun x id t i h h' => ?_, fun id l r h => ?_, fun x a h => ?_, fun x => ?_,
    fun x l n h => ?_, fun id w' hs x => ?_⟩
  · rw [← hat, ← ht.coherent x id (w.dev x).index, home_eq_some]
    simp
  · have hhome := (ht.coherent x id i).mpr ((hat id i x).mpr ⟨t, h, h'⟩)
    exact (home_eq_some.mp hhome).2
  · simpa [KCall.clean] using hclean _ h rfl
  · simpa [KCall.clean] using hclean _ h rfl
  · have hb := ht.balance x
    rwa [Kernel.deviceCalls, List.count_filter rfl, List.count_filter rfl] at hb
  · simpa [KCall.clean] using hclean _ h rfl
  · rw [step_eq_some hs]
    exact ht.driverUnregister_none id x

/-- Tables, registered flags, cdevs, classes and class devices stay in step in every run of the
four functions. -/
theorem slots_in_step (cfg : DrvId → DriverConfig) (calls : List Call) (w : World)
    (hp : Along step (fun w c => plainCall w c = true) (init cfg) calls)
    (hr : run step (init cfg) calls = some w) : SlotsInStep w := by
  have ho : Along step (fun w c => orderly w c = true) (init cfg) calls :=
    hp.imp fun _ _ => orderly_of_plainCall
  exact (run_tabled ho hr).1.slotsInStep

def twoSlots : DrvId → DriverConfig := fun _ =>
  { name := some "nv_char", owner := some 0, count := 2, major := 0, devMode := 0 }

/-- Two devices compete for slot 1, and the driver is unregistered under the one that got it. -/
def contendedSlot : List Call :=
  let device (n : ℕ) : Call := .deviceRegister
    { drv := some 0, dev := some n, index := 1, name := some "echo", ops := none, priv := none }
    { cdevAdd := none, deviceCreate := none, deviceCreateFile := none, debugfsDir := true }
  [ .driverRegister (some 0)
      { kcalloc := true, region := none, dynMajor := 511, classCreate := none, debugfsRoot := true },
    device 0, device 1, .driverUnregister (some 0) ]

theorem slots_in_step_contended :
    ∃ w, run step (init twoSlots) contendedSlot = some w ∧
      .cdevDel (.cdev 1) true ∈ w.k.calls ∧ SlotsInStep w := by
  have hend : (run step (init twoSlots) contendedSlot).map (fun w =>
      decide (.cdevDel (.cdev 1) true ∈ w.k.calls)) = some true := by decide
  obtain ⟨w, hrun, hw⟩ := Option.map_eq_some_iff.mp hend
  exact ⟨w, hrun, of_decide_eq_true hw,
    slots_in_step twoSlots contendedSlot w (by decide) hrun⟩

end LinuxDriverFramework.NvChar
