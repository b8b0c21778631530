import LinuxDriverFramework.Binding.Driver
import LinuxDriverFramework.Foundations.Runs
import Mathlib.Data.Fintype.Basic

/-! # Drivers that come and go on a bus

The registration functions of `nv_pci`, `nv_usb`, `nv_spi`, `nv_i2c` and `nv_sdio` keep a flag beside
what the bus core knows. The core binds devices to the drivers it knows; the wrappers' `probe` takes
its driver from the match and all other entry points take theirs from the device.

* `Wrapper`: what the five have of their own.
* `Bus`, `step`: any number of drivers and devices, in any order of calls.
* `Sound`: the flag is set while the core has the driver and is not registering it, a bound device
  has a context of the driver it is bound to, and every driver whose members were read was known to
  the core.
* `sound_throughout_iff`: matches that name another driver, and unregistrations of one driver that
  overlap, are all there is against it. -/

namespace LinuxDriverFramework.Registry
open Binding Foundations
set_option autoImplicit false

/-- The members of the ops structures behind the entry points other than `probe`; `disconnect` is
the `remove` of USB. -/
inductive Member
  | remove | suspend | resume | resetResume | shutdown | alert
  deriving DecidableEq, Repr

/-- `struct nv_pci_driver` and its siblings; a pointer is true where it is not NULL. -/
structure Driver extends BusDriver where
  named : Bool
  owner : Bool
  idTable : Bool
  ofMatchTable : Bool
  members : Member → Bool

structure Wrapper where
  Dev : Type
  Rest : Type
  Undo : Type
  argsOk : Driver → Bool
  /-- the entry points that the registration installs -/
  entries : List Member
  probe : Dev → Option BusDriver → Option BusDriver → Rest → Dev × Ret
  remove : Dev → Option BusDriver → Undo → Dev
  /-- the driver-data pointer is set -/
  held : Dev → Bool
  /-- `probe` gives up before it has a context -/
  early : Option BusDriver → Option BusDriver → Rest → Bool
  early_refused : ∀ x id dev r, early id dev r = true → (probe x id dev r).2.isOk = false
  accepted_held : ∀ x id dev r, (probe x id dev r).2.isOk = true → held (probe x id dev r).1 = true

/-- Where a driver stands with the core: `attaching` while `pci_register_driver` or its sibling has
not returned, `leaving` while the `pci_unregister_driver` that found it has not. -/
inductive Phase
  | out | attaching | active | leaving
  deriving DecidableEq, Repr

/-- An entry point has read the members of `driver` for a device whose context is `context`'s. -/
structure Call where
  driver : ℕ
  known : Bool
  context : Option ℕ

structure Bus (W : Wrapper) (V : Type) where
  /-- `drv->registered` -/
  registered : ℕ → Bool
  phase : ℕ → Phase
  /-- calls of `pci_unregister_driver` that have not returned -/
  inside : ℕ → ℕ
  /-- `dev.driver` -/
  bound : V → Option ℕ
  dev : V → W.Dev
  /-- the `driver` member of the context that the driver-data pointer refers to -/
  context : V → Option ℕ
  calls : List Call

inductive Label (W : Wrapper) (V : Type)
  | register (d : ℕ) (core : Option Errno)
  | attached (d : ℕ)
  | bind (v : V) (d : ℕ) (id : Option ℕ) (rest : W.Rest)
  | entry (v : V) (m : Member)
  | unbind (v : V) (undo : W.Undo)
  | unregister (d : ℕ)
  | detached (d : ℕ)

variable {W : Wrapper} {V : Type}

def Bus.start (dev : V → W.Dev) (context : V → Option ℕ) : Bus W V where
  registered := fun _ => false
  phase := fun _ => .out
  inside := fun _ => 0
  bound := fun _ => none
  dev := dev
  context := context
  calls := []

def Bus.known (s : Bus W V) (d : ℕ) : Bool := s.phase d != .out

def Bus.setDriver (s : Bus W V) (d : ℕ) (registered : Bool) (phase : Phase) (inside : ℕ) :
    Bus W V :=
  { s with
    registered := Function.update s.registered d registered
    phase := Function.update s.phase d phase
    inside := Function.update s.inside d inside }

section Step

variable (tbl : ℕ → Driver)

/-- `nv_*_driver_register` up to the return of the core, which does not take a driver twice. -/
def driverRegister (s : Bus W V) (d : ℕ) (core : Option Errno) : Bus W V × Ret :=
  if !W.argsOk (tbl d) then (s, .error .EINVAL)
  else if s.registered d then (s, .error .EBUSY)
  else if s.known d then (s, .error .EBUSY)
  else
    match core with
    | some e => (s, .error e)
    | none => (s.setDriver d (s.registered d) .attaching (s.inside d), .ok ())

/-- `nv_*_driver_unregister` up to the point where the core detaches the devices. The flag is set
until the core returns, so a second call gets there as well. -/
def driverUnregister (s : Bus W V) (d : ℕ) : Bus W V :=
  if s.registered d then
    let phase := if s.phase d = .active then .leaving else s.phase d
    s.setDriver d (s.registered d) phase (s.inside d + 1)
  else s

variable [DecidableEq V]

/-- The core offers device `v` to driver `d`, with the driver that the match names. -/
def Bus.bind (s : Bus W V) (v : V) (d : ℕ) (id : Option ℕ) (rest : W.Rest) : Bus W V :=
  let fromId := id.map fun i => (tbl i).toBusDriver
  let fromDev := some (tbl d).toBusDriver
  let r := W.probe (s.dev v) fromId fromDev rest
  let context :=
    if W.early fromId fromDev rest then s.context v
    else if W.held r.1 then some (id.getD d)
    else none
  { s with
    bound := Function.update s.bound v (if r.2.isOk then some d else none)
    dev := Function.update s.dev v r.1
    context := Function.update s.context v context
    calls := ⟨id.getD d, s.known (id.getD d), some (id.getD d)⟩ :: s.calls }

/-- The wrapper returns before it looks at the members if there is no context. -/
def Bus.called (s : Bus W V) (v : V) (d : ℕ) : List Call :=
  if W.held (s.dev v) then ⟨d, s.known d, s.context v⟩ :: s.calls else s.calls

def Bus.unbind (s : Bus W V) (v : V) (d : ℕ) (undo : W.Undo) : Bus W V :=
  { s with
    bound := Function.update s.bound v none
    dev := Function.update s.dev v (W.remove (s.dev v) (some (tbl d).toBusDriver) undo)
    context := Function.update s.context v none
    calls := s.called v d }

variable [Fintype V]

def step (s : Bus W V) : Label W V → Option (Bus W V)
  | .register d core => some (driverRegister tbl s d core).1
  | .attached d =>
    if s.phase d = .attaching then some (s.setDriver d true .active (s.inside d)) else none
  | .bind v d id rest =>
    if (s.phase d = .attaching ∨ s.phase d = .active) ∧ s.bound v = none then
      some (s.bind tbl v d id rest)
    else none
  | .entry v m =>
    match s.bound v with
    | some d => if m ∈ W.entries then some { s with calls := s.called v d } else none
    | none => none
  | .unbind v undo =>
    match s.bound v with
    | some d => some (s.unbind tbl v d undo)
    | none => none
  | .unregister d => some (driverUnregister s d)
  | .detached d =>
    if s.inside d ≠ 0 ∧ ∀ v, s.bound v ≠ some d then
      let phase := if s.phase d = .leaving then .out else s.phase d
      some (s.setDriver d false phase (s.inside d - 1))
    else none

end Step

/-! ## Soundness -/

structure Sound (s : Bus W V) : Prop where
  flag : ∀ d, s.registered d = true ↔ s.phase d = .active ∨ s.phase d = .leaving
  /-- the core is in one call for a driver that leaves, and in none for the others -/
  inside : ∀ d, s.inside d = if s.phase d = .leaving then 1 else 0
  bound : ∀ v d, s.bound v = some d →
    s.known d = true ∧ W.held (s.dev v) = true ∧ s.context v = some d
  calls : ∀ c ∈ s.calls, c.known = true ∧ c.context = some c.driver

theorem sound_start (dev : V → W.Dev) (context : V → Option ℕ) :
    Sound (Bus.start dev context : Bus W V) where
  flag := fun d => by simp [Bus.start]
  inside := fun _ => rfl
  bound := fun _ _ h => by cases h
  calls := fun _ h => by cases h

/-- No driver is unregistered while the core is still inside another unregistration of it. -/
def Apart (s : Bus W V) : Label W V → Prop
  | .unregister d => s.registered d = true → s.inside d = 0
  | _ => True

instance (s : Bus W V) : (a : Label W V) → Decidable (Apart s a)
  | .unregister _ => inferInstanceAs (Decidable (_ → _))
  | .register .. | .attached .. | .bind .. | .entry .. | .unbind .. | .detached .. =>
    inferInstanceAs (Decidable True)

/-- The driver that the match names is known to the core, and it is the one that the device is
offered to if it accepts. -/
def Own [DecidableEq V] (tbl : ℕ → Driver) (s : Bus W V) : Label W V → Prop
  | .bind v d id rest =>
    (s.phase d = .attaching ∨ s.phase d = .active) ∧ s.bound v = none →
      s.known (id.getD d) = true ∧
      ((W.probe (s.dev v) (id.map fun i => (tbl i).toBusDriver) (some (tbl d).toBusDriver)
        rest).2.isOk = true → id.getD d = d)
  | _ => True

section Steps

variable {tbl : ℕ → Driver} {s : Bus W V} {d : ℕ}

theorem known_iff : s.known d = true ↔ s.phase d ≠ .out := by
  simp [Bus.known]

/-- The driver moves to a phase that goes with its flag and the calls inside the core, and stays
known if a device is bound to it. -/
theorem Sound.setDriver (h : Sound s) {r : Bool} {p : Phase} {n : ℕ}
    (hr : r = true ↔ p = .active ∨ p = .leaving) (hn : n = if p = .leaving then 1 else 0)
    (hp : p = .out → ∀ v, s.bound v ≠ some d) : Sound (s.setDriver d r p n) where
  flag := by
    intro e
    by_cases he : e = d
    · rw [he]
      simpa [Bus.setDriver] using hr
    · simpa [Bus.setDriver, Function.update_of_ne he] using h.flag e
  inside := by
    intro e
    by_cases he : e = d
    · rw [he]
      simpa [Bus.setDriver] using hn
    · simpa [Bus.setDriver, Function.update_of_ne he] using h.inside e
  bound := by
    intro v e hb
    obtain ⟨hknown, hheld, hctx⟩ := h.bound v e hb
    refine ⟨?_, hheld, hctx⟩
    by_cases he : e = d
    · subst he
      refine known_iff.mpr ?_
      simp only [Bus.setDriver, Function.update_self]
      exact fun hout => hp hout v hb
    · rw [known_iff] at hknown ⊢
      simpa [Bus.setDriver, Function.update_of_ne he] using hknown
  calls := h.calls

theorem driverRegister_sound (h : Sound s) (core : Option Errno) :
    Sound (driverRegister tbl s d core).1 := by
  unfold driverRegister
  by_cases hargs : (!W.argsOk (tbl d)) = true
  · rw [if_pos hargs]
    exact h
  · rw [if_neg hargs]
    by_cases hreg : s.registered d = true
    · rw [if_pos hreg]
      exact h
    · rw [if_neg hreg]
      by_cases hknown : s.known d = true
      · rw [if_pos hknown]
        exact h
      · rw [if_neg hknown]
        cases core with
        | some e => exact h
        | none =>
          have hout : s.phase d = .out := by simpa [known_iff] using hknown
          have hinside := h.inside d
          rw [hout] at hinside
          exact h.setDriver (by simpa using hreg) hinside fun he => by cases he

theorem driverUnregister_sound (h : Sound s) (hapart : s.registered d = true → s.inside d = 0) :
    Sound (driverUnregister s d) := by
  unfold driverUnregister
  by_cases hreg : s.registered d = true
  · have hnone := hapart hreg
    have hactive : s.phase d = .active := by
      refine ((h.flag d).mp hreg).resolve_right fun hleaving => ?_
      have hinside := h.inside d
      rw [if_pos hleaving, hnone] at hinside
      cases hinside
    simp only [hreg, hactive, hnone, if_true]
    exact h.setDriver (by simp) rfl fun he => by cases he
  · rw [if_neg hreg]
    exact h

/-- A second unregistration enters the core beside the first one. -/
theorem driverUnregister_not_sound
    (hbad : ¬ (s.registered d = true → s.inside d = 0)) : ¬ Sound (driverUnregister s d) := by
  obtain ⟨hreg, hne⟩ := Classical.not_imp.mp hbad
  intro hs
  have hinside := hs.inside d
  simp only [driverUnregister, hreg, if_true, Bus.setDriver, Function.update_self] at hinside
  have hone : ∀ p : Phase, (if p = .leaving then 1 else 0) ≤ 1 := by
    intro p
    split <;> decide
  have htwo := hinside.trans_le (hone _)
  omega

theorem called_sound (h : Sound s) {v : V} (hb : s.bound v = some d) :
    ∀ c ∈ s.called v d, c.known = true ∧ c.context = some c.driver := by
  obtain ⟨hknown, hheld, hctx⟩ := h.bound v d hb
  intro c hc
  rw [Bus.called, if_pos hheld] at hc
  rcases List.mem_cons.mp hc with rfl | hold
  · exact ⟨hknown, hctx⟩
  · exact h.calls c hold

variable [DecidableEq V]

theorem unbind_sound (h : Sound s) {v : V} (hb : s.bound v = some d) (undo : W.Undo) :
    Sound (s.unbind tbl v d undo) where
  flag := h.flag
  inside := h.inside
  bound := by
    intro u e hu
    by_cases huv : u = v
    · rw [huv] at hu
      simp [Bus.unbind] at hu
    · simp only [Bus.unbind, Function.update_of_ne huv] at hu ⊢
      exact h.bound u e hu
  calls := called_sound h hb

variable {v : V} {id : Option ℕ} {rest : W.Rest}

theorem bind_sound (h : Sound s) (hd : s.phase d = .attaching ∨ s.phase d = .active)
    (hknown : s.known (id.getD d) = true)
    (hown : (W.probe (s.dev v) (id.map fun i => (tbl i).toBusDriver) (some (tbl d).toBusDriver)
      rest).2.isOk = true → id.getD d = d) : Sound (s.bind tbl v d id rest) where
  flag := h.flag
  inside := h.inside
  bound := by
    intro u e hu
    by_cases huv : u = v
    · subst huv
      simp only [Bus.bind, Function.update_self] at hu ⊢
      cases hok : (W.probe (s.dev u) (id.map fun i => (tbl i).toBusDriver)
          (some (tbl d).toBusDriver) rest).2.isOk with
      | false =>
        rw [hok] at hu
        cases hu
      | true =>
        rw [hok] at hu
        obtain rfl := Option.some.inj hu
        have hheld := W.accepted_held _ _ _ _ hok
        have hearly : ¬ W.early (id.map fun i => (tbl i).toBusDriver)
            (some (tbl d).toBusDriver) rest = true := by
          intro he
          rw [W.early_refused _ _ _ _ he] at hok
          cases hok
        rw [if_neg hearly, if_pos hheld, hown hok]
        refine ⟨known_iff.mpr fun hout => ?_, hheld, rfl⟩
        rw [show s.phase d = .out from hout] at hd
        rcases hd with hd | hd <;> cases hd
    · simp only [Bus.bind, Function.update_of_ne huv] at hu ⊢
      exact h.bound u e hu
  calls := by
    intro c hc
    rcases List.mem_cons.mp hc with rfl | hold
    · exact ⟨hknown, rfl⟩
    · exact h.calls c hold

/-- A match that names another driver shows at once. -/
theorem bind_not_sound
    (hbad : ¬ (s.known (id.getD d) = true ∧
      ((W.probe (s.dev v) (id.map fun i => (tbl i).toBusDriver) (some (tbl d).toBusDriver)
        rest).2.isOk = true → id.getD d = d))) : ¬ Sound (s.bind tbl v d id rest) := by
  intro hs
  apply hbad
  have hcall := hs.calls ⟨id.getD d, s.known (id.getD d), some (id.getD d)⟩ List.mem_cons_self
  refine ⟨hcall.1, fun hok => ?_⟩
  have hbound : (s.bind tbl v d id rest).bound v = some d := by
    simp only [Bus.bind, Function.update_self, hok, if_true]
  obtain ⟨-, hheld, hctx⟩ := hs.bound v d hbound
  have hearly : ¬ W.early (id.map fun i => (tbl i).toBusDriver)
      (some (tbl d).toBusDriver) rest = true := by
    intro he
    rw [W.early_refused _ _ _ _ he] at hok
    cases hok
  simp only [Bus.bind, Function.update_self] at hheld hctx
  rw [if_neg hearly, if_pos hheld] at hctx
  exact Option.some.inj hctx

variable [Fintype V]

theorem step_sound (s : Bus W V) (a : Label W V) (s' : Bus W V) (h : Sound s)
    (hown : Own tbl s a) (hapart : Apart s a) (hs : step tbl s a = some s') : Sound s' := by
  cases a with
  | register d core => exact Option.some.inj hs ▸ driverRegister_sound h core
  | attached d =>
    simp only [step] at hs
    split at hs
    · rename_i hatt
      have hinside := h.inside d
      rw [hatt] at hinside
      exact Option.some.inj hs ▸ h.setDriver (by simp) hinside fun hout => by cases hout
    · cases hs
  | bind v d id rest =>
    simp only [step] at hs
    by_cases hen : (s.phase d = .attaching ∨ s.phase d = .active) ∧ s.bound v = none
    · rw [if_pos hen] at hs
      obtain ⟨hknown, hsame⟩ := hown hen
      exact Option.some.inj hs ▸ bind_sound h hen.1 hknown hsame
    · rw [if_neg hen] at hs
      cases hs
  | entry v m =>
    simp only [step] at hs
    cases hb : s.bound v with
    | none => simp only [hb, reduceCtorEq] at hs
    | some d =>
      simp only [hb] at hs
      split at hs
      · exact Option.some.inj hs ▸ ⟨h.flag, h.inside, h.bound, called_sound h hb⟩
      · cases hs
  | unbind v undo =>
    simp only [step] at hs
    cases hb : s.bound v with
    | none => simp only [hb, reduceCtorEq] at hs
    | some d =>
      simp only [hb] at hs
      exact Option.some.inj hs ▸ unbind_sound h hb undo
  | unregister d => exact Option.some.inj hs ▸ driverUnregister_sound h hapart
  | detached d =>
    simp only [step] at hs
    by_cases hen : s.inside d ≠ 0 ∧ ∀ v, s.bound v ≠ some d
    · rw [if_pos hen] at hs
      have hinside := h.inside d
      have hleaving : s.phase d = .leaving := by
        by_contra hne
        rw [if_neg hne] at hinside
        exact hen.1 hinside
      rw [if_pos hleaving] at hinside
      simp only [hleaving, hinside, if_true] at hs
      exact Option.some.inj hs ▸ h.setDriver (by simp) rfl fun _ => hen.2
    · rw [if_neg hen] at hs
      cases hs

theorem step_not_sound (s : Bus W V) (a : Label W V) (hbad : ¬ (Own tbl s a ∧ Apart s a)) :
    ∃ s', step tbl s a = some s' ∧ ¬ Sound s' := by
  cases a with
  | bind v d id rest =>
    have hown : ¬ Own tbl s (.bind v d id rest) := fun hown => hbad ⟨hown, trivial⟩
    simp only [Own, Classical.not_imp] at hown
    obtain ⟨hen, hother⟩ := hown
    exact ⟨_, if_pos hen, bind_not_sound hother⟩
  | unregister d =>
    exact ⟨_, rfl, driverUnregister_not_sound fun hapart => hbad ⟨trivial, hapart⟩⟩
  | _ => exact absurd ⟨trivial, trivial⟩ hbad

variable (tbl) in
theorem sound_throughout_iff (s : Bus W V) (h : Sound s) (acts : List (Label W V)) :
    Throughout (step tbl) Sound s acts ↔
      Along (step tbl) (fun s a => Own tbl s a ∧ Apart s a) s acts :=
  throughout_iff_along (I := Sound) (D := fun _ _ => True) (fun _ hs => hs)
    (fun s a s' hs _ hgood hst => step_sound s a s' hs hgood.1 hgood.2 hst)
    (fun s a _ _ hbad => step_not_sound s a hbad) acts s h (along_true acts s)

end Steps

end LinuxDriverFramework.Registry
