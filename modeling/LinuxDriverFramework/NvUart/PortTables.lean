import LinuxDriverFramework.NvUart.Ports

/-! # Ports and the tables they sit in

`nv_uart_port_add` stores the driver and the line in the port, but nothing reads them again:
`nv_uart_port_remove` uses the driver it is given, and `nv_uart_driver_unregister` does not look for
ports. The two sides stay in step exactly in the runs whose callers look for themselves.

* `directory`: tables and ports as a slot directory.
* `PortsHeld`: what the tables and the ports say of each other.
* `orderly`: the callers' part. -/

namespace LinuxDriverFramework.NvUart
open Foundations
set_option autoImplicit false

def directory (w : World) : Directory ℕ ℕ :=
  .ofFlags (fun d => (w.drv d).uartDrv.state) (fun p => (w.port p).added)
    (fun p => (w.port p).driver) fun p => (w.port p).port.line

def World.size (w : World) (d : ℕ) : ℕ := (w.drv d).uartDrv.nr

theorem home_eq_some {w : World} {p d i : ℕ} : (directory w).home p = some (d, i) ↔
    (w.port p).added = true ∧ (w.port p).driver = some d ∧ (w.port p).port.line = i :=
  Directory.ofFlags_home

theorem home_of_not_added {w : World} {p : ℕ} (h : (w.port p).added = false) :
    (directory w).home p = none :=
  Directory.ofFlags_home_none h

theorem at_eq_some {w : World} {d i p : ℕ} : (directory w).at_ d i = some p ↔
    ∃ t, (w.drv d).uartDrv.state = some t ∧ t i = some p := Option.bind_eq_some_iff

/-! ## The promise -/

/-- A port is added exactly when it sits in the table of its driver at its line, and then that
driver is registered; every removal so far was made in the table of the port's own driver. -/
structure PortsHeld (w : World) : Prop where
  added_iff : ∀ p, (w.port p).added = true ↔ ∃ d t, (w.port p).driver = some d ∧
    (w.drv d).uartDrv.state = some t ∧ t (w.port p).line.toNat = some p
  registered : ∀ p, (w.port p).added = true →
    ∃ d, (w.port p).driver = some d ∧ (w.drv d).registered = true
  own : ∀ d p o live, .removeOnePort d p o live ∈ w.calls → o = some d ∧ live = true

/-- An added port is removed from its own driver, and a driver is unregistered after its ports. -/
def orderly (w : World) : Call → Prop
  | .portRemove (some d) (some p) => (w.port p).added = true → (w.port p).driver = some d
  | .driverUnregister (some d) =>
    (w.drv d).registered = true → ∀ p, (w.port p).added = true → (w.port p).driver ≠ some d
  | _ => True

/-! ## The invariant -/

structure InStep (w : World) : Prop where
  sound : (directory w).Sound w.size
  line : ∀ p, (w.port p).line.toNat = (w.port p).port.line
  driver : ∀ p, (w.port p).added = true → (w.port p).driver.isSome
  state : ∀ d, (w.drv d).uartDrv.state.isSome = (w.drv d).registered
  own : ∀ d p o live, .removeOnePort d p o live ∈ w.calls → o = some d ∧ live = true

theorem InStep.home {w : World} (h : InStep w) {p : ℕ} (hp : (w.port p).added = true) :
    ∃ d, (w.port p).driver = some d ∧
      (directory w).home p = some (d, (w.port p).port.line) := by
  obtain ⟨d, hd⟩ := Option.isSome_iff_exists.mp (h.driver p hp)
  exact ⟨d, hd, home_eq_some.mpr ⟨hp, hd, rfl⟩⟩

theorem InStep.portsHeld {w : World} (h : InStep w) : PortsHeld w where
  added_iff p := by
    rw [h.line p]
    constructor
    · intro hp
      obtain ⟨d, hd, hhome⟩ := h.home hp
      obtain ⟨t, ht, hslot⟩ := at_eq_some.mp ((h.sound.coherent p d _).mp hhome)
      exact ⟨d, t, hd, ht, hslot⟩
    · rintro ⟨d, t, -, ht, hslot⟩
      exact (home_eq_some.mp ((h.sound.coherent p d _).mpr (at_eq_some.mpr ⟨t, ht, hslot⟩))).1
  registered p hp := by
    obtain ⟨d, hd, hhome⟩ := h.home hp
    obtain ⟨t, ht, -⟩ := at_eq_some.mp ((h.sound.coherent p d _).mp hhome)
    refine ⟨d, hd, ?_⟩
    rw [← h.state d, ht]
    rfl
  own := h.own

theorem InStep.vacant {w : World} (h : InStep w) {d : ℕ} (hd : (w.drv d).registered = false) :
    (directory w).Vacant d := by
  apply h.sound.coherent.vacant_of_none
  have hstate := h.state d
  rw [hd, Option.isSome_eq_false_iff, Option.isNone_iff_eq_none] at hstate
  exact hstate

theorem init_inStep (drivers : ℕ → DriverConfig) (ports : ℕ → PortConfig) :
    InStep (init drivers ports) where
  sound :=
    ⟨fun p d i => by simp [directory, Directory.ofFlags, Directory.at_, init],
      fun p d i h => by simp [directory, Directory.ofFlags, init] at h⟩
  line _ := rfl
  driver _ h := by cases h
  state _ := rfl
  own _ _ _ _ h := by cases h

/-! ## A driver changes -/

/-- Driver `d` gets a table or loses it, together with its flag, while none of its ports is added. -/
theorem InStep.modDrv {w : World} (h : InStep w) {d : ℕ} (hv : (directory w).Vacant d)
    (f : NvUartDriver → NvUartDriver) (l : List KCall)
    (hstate : (f (w.drv d)).uartDrv.state.isSome = (f (w.drv d)).registered)
    (hempty : ∀ t, (f (w.drv d)).uartDrv.state = some t → t = fun _ => none)
    (hl : ∀ d p o live, .removeOnePort d p o live ∈ l → .removeOnePort d p o live ∈ w.calls) :
    InStep { w.modDrv d f with calls := l } where
  sound := by
    have hdir : directory { w.modDrv d f with calls := l } =
        (directory w).setTable d (f (w.drv d)).uartDrv.state := by
      refine Directory.ext (funext fun d' => ?_) rfl
      by_cases hd : d' = d
      · subst hd; simp [directory, Directory.ofFlags, Directory.setTable]
      · simp [directory, Directory.ofFlags, Directory.setTable, hd]
    rw [hdir]
    refine ⟨h.sound.coherent.setTable hv fun i => ?_, fun p d' i hp => ?_⟩
    · cases ht : (f (w.drv d)).uartDrv.state with
      | none => rfl
      | some t =>
        rw [hempty t ht]
        rfl
    · have hd : d' ≠ d := by
        rintro rfl
        exact hv p i hp
      have hsize : World.size { w.modDrv d f with calls := l } d' = w.size d' := by
        simp [World.size, Function.update_of_ne hd]
      rw [hsize]
      exact h.sound.bounded p d' i hp
  line := h.line
  driver := h.driver
  state d' := by
    by_cases hd : d' = d
    · subst hd
      simpa using hstate
    · simpa [Function.update_of_ne hd] using h.state d'
  own d' p o live hm := h.own d' p o live (hl d' p o live hm)

theorem InStep.driverRegister {w : World} (h : InStep w) (drv : Option ℕ) (fails : Option Errno) :
    InStep (driverRegister w drv fails).1 := by
  unfold NvUart.driverRegister
  split
  · exact h
  · rename_i d
    split
    · exact h
    · split
      · exact h
      · rename_i hr
        have hfalse : (w.drv d).registered = false := by simpa using hr
        have hnone : (w.drv d).uartDrv.state = none := by
          have hstate := h.state d
          rwa [hfalse, Option.isSome_eq_false_iff, Option.isNone_iff_eq_none] at hstate
        cases fails with
        | some e =>
          refine h.modDrv (h.vacant hfalse) NvUartDriver.fillIn w.calls ?_ ?_ fun _ _ _ _ hm => hm
          · exact h.state d
          · intro t ht
            rw [NvUartDriver.fillIn, hnone] at ht
            cases ht
        | none =>
          have hworld : ((((w.modDrv d NvUartDriver.fillIn).setState d (some fun _ => none)).log
              (.registerDriver d)).modDrv d fun drv => { drv with registered := true }) =
              { w.modDrv d fun drv => { drv.fillIn with
                  uartDrv := { drv.fillIn.uartDrv with state := some fun _ => none }
                  registered := true } with calls := .registerDriver d :: w.calls } := by
            simp only [World.modDrv, World.setState, World.log, Function.update_self,
              Function.update_idem]
          simp only [uartRegisterDriver, hworld]
          refine h.modDrv (h.vacant hfalse) _ _ rfl (fun t ht => (Option.some.inj ht).symm) ?_
          intro d' p o live hm
          simpa using hm

theorem InStep.driverUnregister {w : World} (h : InStep w) (d : ℕ)
    (ho : orderly w (.driverUnregister (some d))) : InStep (driverUnregister w (some d)) := by
  cases hr : (w.drv d).registered with
  | false =>
    have hw : NvUart.driverUnregister w (some d) = w := by simp [NvUart.driverUnregister, hr]
    rwa [hw]
  | true =>
    have hv : (directory w).Vacant d := by
      intro p i hp
      obtain ⟨hadded, hd, -⟩ := home_eq_some.mp hp
      exact ho hr p hadded hd
    have hw : NvUart.driverUnregister w (some d) = { w.modDrv d fun drv => { drv with
        uartDrv := { drv.uartDrv with state := none }
        registered := false } with calls := .unregisterDriver d :: w.calls } := by
      simp only [NvUart.driverUnregister, hr, if_true, uartUnregisterDriver, World.modDrv,
        World.setState, World.log, Function.update_self, Function.update_idem]
    rw [hw]
    refine h.modDrv hv _ _ rfl (fun t ht => by cases ht) fun d' p o live hm => ?_
    simpa using hm

/-! ## A port changes -/

theorem directory_setState (w : World) (d : ℕ) (t : Option (ℕ → Option ℕ)) :
    directory (w.setState d t) = (directory w).setTable d t :=
  Directory.ofFlags_owner (fun drv : NvUartDriver => drv.uartDrv.state) w.drv d _

theorem setState_drv (w : World) (d d' : ℕ) (t : Option (ℕ → Option ℕ)) :
    ((w.setState d t).drv d').registered = (w.drv d').registered ∧
    ((w.setState d t).drv d').uartDrv.nr = (w.drv d').uartDrv.nr ∧
    ((w.setState d t).drv d').uartDrv.state =
      if d' = d then t else (w.drv d').uartDrv.state := by
  by_cases hd : d' = d
  · subst hd; simp [World.setState]
  · simp [World.setState, hd]

theorem InStep.setUp {w : World} (h : InStep w) {p : ℕ} (hp : (w.port p).added = false) (d : ℕ)
    (line : ℤ) : InStep (w.modPort p fun np => np.setUp d line) where
  sound := by
    have hdir : directory (w.modPort p fun np => np.setUp d line) = directory w := by
      refine Directory.ofFlags_item_same NvUartPort.added NvUartPort.driver
        (fun np : NvUartPort => np.port.line) w.port p ⟨rfl, fun hadded => ?_⟩
      rw [hp] at hadded
      cases hadded
    rw [hdir]
    exact h.sound
  line q := by
    by_cases hqp : q = p
    · subst hqp; simp [NvUartPort.setUp]
    · simpa [Function.update_of_ne hqp] using h.line q
  driver q hq := by
    by_cases hqp : q = p
    · subst hqp; simp [NvUartPort.setUp]
    · simp only [World.modPort_port, Function.update_of_ne hqp] at hq ⊢
      exact h.driver q hq
  state := h.state
  own := h.own

theorem setState_state {w : World} (h : InStep w) {d : ℕ} {t t' : ℕ → Option ℕ}
    (ht : (w.drv d).uartDrv.state = some t) (d' : ℕ) :
    ((w.setState d (some t')).drv d').uartDrv.state.isSome =
      ((w.setState d (some t')).drv d').registered := by
  obtain ⟨hreg, -, hstate⟩ := setState_drv w d d' (some t')
  rw [hreg, hstate, ← h.state d']
  split
  · rename_i hd
    rw [hd, ht]
    rfl
  · rfl

theorem setState_size (w : World) (d : ℕ) (t : Option (ℕ → Option ℕ)) :
    (w.setState d t).size = w.size :=
  funext fun d' => (setState_drv w d d' t).2.1

theorem InStep.put {w : World} (h : InStep w) {p d : ℕ} {t : ℕ → Option ℕ}
    (hp : (w.port p).added = false) (hd : (w.port p).driver = some d)
    (ht : (w.drv d).uartDrv.state = some t) (hlt : (w.port p).port.line < w.size d)
    (hfree : t (w.port p).port.line = none) :
    InStep (((w.setState d (some (Function.update t (w.port p).port.line (some p)))).log
      (.addOnePort d p)).modPort p fun np => { np with added := true }) where
  sound := by
    let w₁ := w.setState d (some (Function.update t (w.port p).port.line (some p)))
    let w₂ := (w₁.log (.addOnePort d p)).modPort p fun np => { np with added := true }
    have hdir : directory w₂ = (directory w).put d (w.port p).port.line p := by
      refine Directory.ext ?_ (funext fun q => ?_)
      · change (directory w₁).table = _
        rw [directory_setState]
        simp [Directory.put, Directory.write, Directory.setTable, directory, Directory.ofFlags, ht]
      · change _ = Function.update (directory w).home p (some (d, (w.port p).port.line)) q
        by_cases hqp : q = p
        · subst hqp
          rw [Function.update_self]
          exact home_eq_some.mpr (by simp [w₂, w₁, World.setState, hd])
        · simp [w₂, w₁, World.setState, directory, Directory.ofFlags, Function.update_of_ne hqp]
    have hsize : w₂.size = w.size := setState_size w d _
    change (directory w₂).Sound w₂.size
    rw [hdir, hsize]
    have hat : (directory w).at_ d (w.port p).port.line = none := by
      simp [directory, Directory.ofFlags, Directory.at_, ht, hfree]
    change ((Directory.Op.put d (w.port p).port.line p).apply (directory w)).Sound w.size
    refine Directory.Op.sound_apply h.sound ?_ hat
    exact ⟨home_of_not_added hp, by simp [directory, Directory.ofFlags, ht], hlt⟩
  line q := by
    by_cases hqp : q = p
    · subst hqp; simpa using h.line q
    · simpa [Function.update_of_ne hqp] using h.line q
  driver q hq := by
    by_cases hqp : q = p
    · subst hqp; simp [World.setState, hd]
    · simp only [World.modPort_port, Function.update_of_ne hqp] at hq ⊢
      exact h.driver q hq
  state := setState_state h ht
  own d' q o live hm := h.own d' q o live (by simpa using hm)

theorem uartAddOnePort_ok {w w' : World} {d p : ℕ} {fails : Option Errno}
    (h : uartAddOnePort w d p fails = .ok w') :
    ∃ t, (w.drv d).uartDrv.state = some t ∧ (w.port p).port.line < w.size d ∧
      t (w.port p).port.line = none ∧
      w' = (w.setState d (some (Function.update t (w.port p).port.line (some p)))).log
        (.addOnePort d p) := by
  unfold uartAddOnePort at h
  simp only at h
  split at h
  · cases h
  · cases h
  · rename_i t ht
    split at h
    · cases h
    · rename_i hfits
      simp only [not_or, not_le, Option.not_isSome_iff_eq_none] at hfits
      exact ⟨t, ht, hfits.1, hfits.2, (Except.ok.inj h).symm⟩

theorem InStep.portAdd {w : World} (h : InStep w) (drv np : Option ℕ) (line : ℤ)
    (fails : Option Errno) : InStep (portAdd w drv np line fails).1 := by
  unfold NvUart.portAdd
  split
  · rename_i d p
    split
    · exact h
    · split
      · exact h
      · rename_i hadded
        have hp : (w.port p).added = false := by simpa using hadded
        have h₁ := h.setUp hp d line
        simp only
        split
        · exact h₁
        · rename_i w₂ hw₂
          obtain ⟨t, ht, hlt, hfree, rfl⟩ := uartAddOnePort_ok hw₂
          refine h₁.put ?_ ?_ ht hlt hfree
          · simpa [NvUartPort.setUp] using hp
          · simp [NvUartPort.setUp]
  · exact h

theorem InStep.portRemove {w : World} (h : InStep w) (d p : ℕ)
    (ho : orderly w (.portRemove (some d) (some p))) :
    InStep (portRemove w (some d) (some p)) := by
  cases hp : (w.port p).added with
  | false =>
    have hw : NvUart.portRemove w (some d) (some p) = w := by simp [NvUart.portRemove, hp]
    rwa [hw]
  | true =>
    have hd : (w.port p).driver = some d := ho hp
    have hhome : (directory w).home p = some (d, (w.port p).port.line) :=
      home_eq_some.mpr ⟨hp, hd, rfl⟩
    obtain ⟨t, ht, -⟩ := at_eq_some.mp ((h.sound.coherent p d _).mp hhome)
    have hlt : (w.port p).port.line < (w.drv d).uartDrv.nr := h.sound.bounded p d _ hhome
    let w₁ := w.setState d (some (Function.update t (w.port p).port.line none))
    let w₂ : World := { w₁.modPort p fun np => { np with added := false } with
      calls := .removeOnePort d p (some d) true :: w.calls }
    have hw : NvUart.portRemove w (some d) (some p) = w₂ := by
      simp only [NvUart.portRemove, hp, if_true, uartRemoveOnePort, ht, hd, hlt]
      rfl
    rw [hw]
    refine ⟨?_, fun q => ?_, fun q hq => ?_, setState_state h ht, fun d' q o live hm => ?_⟩
    · have hdir : directory w₂ = (directory w).remove p := by
        simp only [Directory.remove, hhome]
        refine Directory.ext ?_ (funext fun q => ?_)
        · change (directory w₁).table = _
          rw [directory_setState]
          simp [Directory.write, Directory.setTable, directory, Directory.ofFlags, ht]
        · change _ = Function.update (directory w).home p none q
          by_cases hqp : q = p
          · subst hqp
            rw [Function.update_self]
            exact home_of_not_added (by simp [w₂])
          · simp [w₂, w₁, World.setState, directory, Directory.ofFlags, Function.update_of_ne hqp]
      have hsize : w₂.size = w.size := setState_size w d _
      rw [hdir, hsize]
      change ((Directory.Op.remove p).apply (directory w)).Sound w.size
      exact Directory.Op.sound_apply h.sound trivial trivial
    · by_cases hqp : q = p
      · subst hqp; simpa [w₂, w₁] using h.line q
      · simpa [w₂, w₁, Function.update_of_ne hqp] using h.line q
    · by_cases hqp : q = p
      · subst hqp
        simp [w₂] at hq
      · simp only [w₂, World.modPort_port, Function.update_of_ne hqp] at hq ⊢
        exact h.driver q hq
    · rcases List.mem_cons.mp hm with hnew | hold
      · cases hnew
        exact ⟨rfl, rfl⟩
      · exact h.own d' q o live hold

/-! ## Runs -/

theorem step_inStep {w w' : World} {c : Call} (h : InStep w) (ho : orderly w c)
    (hs : step w c = some w') : InStep w' := by
  obtain rfl := Option.some.inj hs
  cases c with
  | driverRegister drv fails => exact h.driverRegister drv fails
  | driverUnregister drv =>
    cases drv with
    | none => exact h
    | some d => exact h.driverUnregister d ho
  | portAdd drv np line fails => exact h.portAdd drv np line fails
  | portRemove drv np =>
    cases drv with
    | none => exact h
    | some d =>
      cases np with
      | none => exact h
      | some p => exact h.portRemove d p ho

/-- A removal from another driver is on record at once, and a driver that is unregistered before
its ports leaves them without a registered driver. -/
theorem not_portsHeld_of_disorderly {w : World} {c : Call} (ho : ¬ orderly w c) :
    ¬ PortsHeld (exec w c).1 := by
  intro h
  apply ho
  cases c with
  | driverRegister drv fails => trivial
  | driverUnregister drv =>
    cases drv with
    | none => trivial
    | some d =>
      intro hr p hp hd
      have hw : ((driverUnregister w (some d)).drv d).registered = false ∧
          (driverUnregister w (some d)).port = w.port := by
        simp only [driverUnregister, hr, if_true, uartUnregisterDriver]
        exact ⟨by simp, rfl⟩
      obtain ⟨d', hd', hr'⟩ := h.registered p (by rw [exec, hw.2]; exact hp)
      rw [exec, hw.2, hd] at hd'
      obtain rfl := Option.some.inj hd'
      rw [exec, hw.1] at hr'
      cases hr'
  | portAdd drv np line fails => trivial
  | portRemove drv np =>
    cases drv with
    | none => trivial
    | some d =>
      cases np with
      | none => trivial
      | some p =>
        intro hp
        have hlog : ∃ live, .removeOnePort d p (w.port p).driver live ∈
            (portRemove w (some d) (some p)).calls := by
          simp only [portRemove, hp, if_true, uartRemoveOnePort]
          split <;> exact ⟨_, List.mem_cons_self⟩
        obtain ⟨live, hlive⟩ := hlog
        exact (h.own d p _ live hlive).1

/-- Ports and tables stay in step throughout a run exactly if its callers keep to the order. -/
theorem ports_held_iff (drivers : ℕ → DriverConfig) (ports : ℕ → PortConfig) (calls : List Call) :
    Throughout step PortsHeld (init drivers ports) calls ↔
      Along step orderly (init drivers ports) calls := by
  refine throughout_iff_along (I := InStep) (D := fun _ _ => True) (fun _ h => h.portsHeld)
    (fun w c w' h _ ho hs => step_inStep h ho hs) (fun w c _ _ ho => ?_) calls _
    (init_inStep drivers ports) (along_true calls _)
  exact ⟨_, rfl, not_portsHeld_of_disorderly ho⟩

/-! ## Two drivers, one port each -/

def ttyDriver : ℕ → DriverConfig := fun _ =>
  { name := some "nv_uart", owner := some 0, devName := some "ttyNV", nrPorts := 1 }

def twoTtys : List Call :=
  [.driverRegister (some 0) none, .driverRegister (some 1) none,
    .portAdd (some 0) (some 0) 0 none, .portAdd (some 1) (some 1) 0 none]

/-- Removed through driver 1, port 0 stays in the table of driver 0, port 1 loses its slot and is
still added; and a driver that is unregistered leaves its port added. -/
theorem port_removed_from_another_driver :
    (∃ w, run step (init ttyDriver fun _ => ⟨0, 0⟩)
        (twoTtys ++ [.portRemove (some 1) (some 0)]) = some w ∧
      (w.port 0).added = false ∧ (directory w).at_ 0 0 = some 0 ∧
      (w.port 1).added = true ∧ (directory w).at_ 1 0 = none ∧ ¬ PortsHeld w) ∧
    ∃ w, run step (init ttyDriver fun _ => ⟨0, 0⟩)
        (twoTtys ++ [.driverUnregister (some 0)]) = some w ∧
      (w.port 0).added = true ∧ (w.drv 0).registered = false ∧ ¬ PortsHeld w := by
  constructor
  · refine ⟨_, rfl, rfl, rfl, rfl, rfl, fun h => ?_⟩
    obtain ⟨d, t, hd, ht, hslot⟩ := (h.added_iff 1).mp rfl
    obtain rfl : 1 = d := Option.some.inj hd
    obtain rfl := Option.some.inj ht
    cases hslot
  · refine ⟨_, rfl, rfl, rfl, fun h => ?_⟩
    obtain ⟨d, hd, hr⟩ := h.registered 0 rfl
    obtain rfl : 0 = d := Option.some.inj hd
    cases hr

end LinuxDriverFramework.NvUart
