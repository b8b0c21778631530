import LinuxDriverFramework.Foundations.Runs
import LinuxDriverFramework.NvUsb.Binding
import Mathlib.Logic.Function.Basic

/-! # Autosuspend on a device with several interfaces

`usb_enable_autosuspend` and `usb_disable_autosuspend` set one switch of the USB device and keep no
count, while `nv_usb_probe` and `nv_usb_disconnect` call them for one interface each.

* `Composite`, `step`: the interfaces of a device with its switch, bound and unbound in any order.
* `ProbeEffect`: what a probe can do to the switch and to the context.
* `autosuspend_follows_iff`: when the switch is on exactly while somebody has asked for it. -/

namespace LinuxDriverFramework.NvUsb
open Foundations Binding
set_option autoImplicit false

section

variable {ι : Type} [DecidableEq ι]

structure Composite (ι : Type) where
  intf : ι → BusIntf
  /-- the interface has a driver -/
  bound : ι → Bool
  /-- `power/control` of the device says `auto` -/
  allowed : Bool

inductive Event (ι : Type)
  | probe (i : ι) (a : Attempt Context (Option Errno))
  | disconnect (i : ι) (a : Removal Context)

/-- The interface with the switch of its device. -/
def Composite.at (s : Composite ι) (i : ι) : BusIntf := { s.intf i with autosuspend := s.allowed }

def Composite.put (s : Composite ι) (i : ι) (b : BusIntf) (bound : Bool) : Composite ι where
  intf := Function.update s.intf i b
  bound := Function.update s.bound i bound
  allowed := b.autosuspend

def compositeStep (s : Composite ι) : Event ι → Option (Composite ι)
  | .probe i a =>
    if s.bound i then none
    else
      let r := probe (s.at i) a
      some (s.put i r.1 r.2.isOk)
  | .disconnect i a => if s.bound i then some (s.put i (disconnect (s.at i) a) false) else none

/-- The device as it is plugged in. -/
def pluggedIn (intf : ι → UsbInterface) (udev : ℕ) : Composite ι where
  intf i := ⟨intf i, udev, none, false⟩
  bound _ := false
  allowed := false

/-- The context of the interface has switched autosuspend on and not off again. -/
def BusIntf.asked (b : BusIntf) : Bool := b.intfdata.any Context.autosuspendEnabled

def Composite.asks (s : Composite ι) (i : ι) : Prop := s.bound i = true ∧ (s.intf i).asked = true

def Follows (s : Composite ι) : Prop := s.allowed = true ↔ ∃ i, s.asks i

/-! ## What one probe does -/

/-- The callbacks of the driver leave `dev->autosuspend_enabled` to the framework. They are
functions of the context: that they leave the switch of the device alone is assumed throughout. -/
def KeepsFlag (f : Context → Context) : Prop :=
  ∀ dev, (f dev).autosuspendEnabled = dev.autosuspendEnabled

def EventKeepsFlag : Event ι → Prop
  | .probe _ a => KeepsFlag a.opsProbe
  | .disconnect _ a => KeepsFlag a.opsRemove

/-- The probe switches autosuspend on before it calls `ops->probe`. -/
def switchesOn (b : BusIntf) (a : Attempt Context (Option Errno)) : Bool :=
  a.driver.any fun drv => drv.hasFlag flagEnableAutosuspend && !selectExit b a drv

/-- `on`: the switch is touched; `ok`: the driver takes the interface. -/
inductive ProbeEffect (b : BusIntf) (r : BusIntf × Ret) (on ok : Bool) : Prop
  | refused (h : on = false) (hs : r.1.autosuspend = b.autosuspend) (hr : r.2.isOk = false)
  | takenBack (h : on = true) (ho : ok = false) (hs : r.1.autosuspend = false)
      (hr : r.2.isOk = false)
  | accepted (ho : ok = true) (hs : r.1.autosuspend = (b.autosuspend || on)) (hr : r.2.isOk = true)
      (ha : r.1.asked = on)

theorem probe_effect {a : Attempt Context (Option Errno)} (b : BusIntf)
    (hkeep : KeepsFlag a.opsProbe) : ProbeEffect b (probe b a) (switchesOn b a) a.opsResult.isOk := by
  cases hd : a.driver with
  | none =>
    obtain ⟨hsame, hr⟩ : (probe b a).1 = b ∧ (probe b a).2.isOk = false :=
      Attempt.probe_none hd
    refine .refused (by rw [switchesOn, hd]; rfl) ?_ hr
    exact congrArg BusIntf.autosuspend hsame
  | some drv =>
    have hprobe : probe b a = probeContext b a drv := Attempt.probe_some hd
    have hon : switchesOn b a = (drv.hasFlag flagEnableAutosuspend && !selectExit b a drv) := by
      rw [switchesOn, hd, Option.any_some]
    rw [hprobe, hon]
    have hsel : (if drv.hasFlag flagSkipAltsetting then ((World.probed b.intf b.udev), .ok ())
        else selectAltsetting (.probed b.intf b.udev) 0 a.outcomes).2.isOk = !selectExit b a drv := by
      rw [selectExit]
      cases drv.hasFlag flagSkipAltsetting with
      | true => rfl
      | false => exact select_isOk b.intf b.udev a.outcomes
    unfold probeContext
    simp only
    generalize (if drv.hasFlag flagSkipAltsetting then ((World.probed b.intf b.udev), .ok ())
      else selectAltsetting (.probed b.intf b.udev) 0 a.outcomes) = sel at hsel
    obtain ⟨usb, ret⟩ := sel
    cases ret with
    | error e =>
      have hexit : selectExit b a drv = true := by
        cases hs : selectExit b a drv with
        | true => rfl
        | false =>
          rw [hs] at hsel
          cases hsel
      exact .refused (by rw [hexit, Bool.not_true, Bool.and_false]) rfl rfl
    | ok =>
      have hexit : selectExit b a drv = false := by
        cases hs : selectExit b a drv with
        | false => rfl
        | true =>
          rw [hs] at hsel
          cases hsel
      rw [hexit, Bool.not_false, Bool.and_true]
      have hkeep' := hkeep ⟨usb, drv, none, drv.hasFlag flagEnableAutosuspend⟩
      cases hf : drv.hasFlag flagEnableAutosuspend with
      | true =>
        rw [hf] at hkeep'
        simp only [if_true]
        cases a.opsResult with
        | error e =>
          simp only [hkeep', if_true]
          exact .takenBack rfl rfl rfl rfl
        | ok => exact .accepted rfl (Bool.or_true _).symm rfl hkeep'
      | false =>
        rw [hf] at hkeep'
        simp only [Bool.false_eq_true, if_false]
        cases a.opsResult with
        | error e =>
          simp only [hkeep', Bool.false_eq_true, if_false]
          exact .refused rfl rfl rfl
        | ok => exact .accepted rfl (Bool.or_false _).symm rfl hkeep'

theorem disconnect_effect {a : Removal Context} (b : BusIntf) (hkeep : KeepsFlag a.opsRemove) :
    (disconnect b a).autosuspend = (b.autosuspend && !b.asked) ∧
      (disconnect b a).asked = false := by
  cases hb : b.intfdata with
  | none =>
    have hasked : b.asked = false := by rw [BusIntf.asked, hb]; rfl
    simp only [disconnect, hb, hasked, Bool.not_false, Bool.and_true, and_self]
  | some dev =>
    have hasked : b.asked = dev.autosuspendEnabled := by rw [BusIntf.asked, hb]; rfl
    have hdev : (if removing a.fromDev then a.opsRemove dev else dev).autosuspendEnabled =
        dev.autosuspendEnabled := by
      split
      · exact hkeep dev
      · rfl
    simp only [disconnect, hb, hasked, hdev]
    cases hd : dev.autosuspendEnabled with
    | true => exact ⟨(Bool.and_false _).symm, rfl⟩
    | false => exact ⟨(Bool.and_true _).symm, rfl⟩

/-! ## Over runs -/

/-- The event does not switch autosuspend off while another interface still asks for it. -/
def NoOther (s : Composite ι) : Event ι → Prop
  | .probe i a => s.bound i = false → switchesOn (s.at i) a = true → a.opsResult.isOk = false →
      ∀ j, ¬ s.asks j
  | .disconnect i _ => s.asks i → ∀ j, s.asks j → j = i

theorem asks_put_self (s : Composite ι) (i : ι) (b : BusIntf) (bound : Bool) :
    (s.put i b bound).asks i ↔ bound = true ∧ b.asked = true := by
  simp only [Composite.asks, Composite.put, Function.update_self]

theorem asks_put_other (s : Composite ι) {i j : ι} (h : j ≠ i) (b : BusIntf) (bound : Bool) :
    (s.put i b bound).asks j ↔ s.asks j := by
  simp only [Composite.asks, Composite.put, Function.update_of_ne h]

theorem exists_asks_put (s : Composite ι) (i : ι) (b : BusIntf) (bound : Bool) :
    (∃ j, (s.put i b bound).asks j) ↔
      (bound = true ∧ b.asked = true) ∨ ∃ j, j ≠ i ∧ s.asks j := by
  constructor
  · rintro ⟨j, hj⟩
    by_cases hji : j = i
    · subst hji
      exact .inl ((asks_put_self s j b bound).mp hj)
    · exact .inr ⟨j, hji, (asks_put_other s hji b bound).mp hj⟩
  · rintro (h | ⟨j, hji, hj⟩)
    · exact ⟨i, (asks_put_self s i b bound).mpr h⟩
    · exact ⟨j, (asks_put_other s hji b bound).mpr hj⟩

omit [DecidableEq ι] in
/-- The interface is not bound, so only the others can ask. -/
theorem others_of_unbound {s : Composite ι} {i : ι} (h : s.bound i = false) :
    (∃ j, j ≠ i ∧ s.asks j) ↔ ∃ j, s.asks j := by
  refine ⟨fun ⟨j, _, hj⟩ => ⟨j, hj⟩, fun ⟨j, hj⟩ => ⟨j, ?_, hj⟩⟩
  rintro rfl
  rw [hj.1] at h
  cases h

theorem follows_probe {s : Composite ι} {i : ι} {a : Attempt Context (Option Errno)}
    (hf : Follows s) (hb : s.bound i = false) (hkeep : KeepsFlag a.opsProbe) :
    Follows (s.put i (probe (s.at i) a).1 (probe (s.at i) a).2.isOk) ↔ NoOther s (.probe i a) := by
  have heff := probe_effect (s.at i) hkeep
  have hsame : (s.at i).autosuspend = s.allowed := rfl
  rw [Follows, exists_asks_put, others_of_unbound hb, Composite.put, NoOther]
  simp only [hb, forall_const]
  cases heff with
  | refused h hs hr =>
    rw [hs, hr, hsame, h]
    simp only [Bool.false_eq_true, false_and, false_or, false_implies, iff_true]
    exact hf
  | takenBack h ho hs hr =>
    rw [hs, hr, h, ho]
    simp
  | accepted ho hs hr ha =>
    rw [hs, hr, ha, ho, hsame, Bool.or_eq_true]
    simp only [Bool.true_eq_false, false_implies, implies_true, iff_true, true_and]
    rw [or_comm]
    exact or_congr_right hf

theorem follows_disconnect {s : Composite ι} {i : ι} {a : Removal Context} (hf : Follows s)
    (hb : s.bound i = true) (hkeep : KeepsFlag a.opsRemove) :
    Follows (s.put i (disconnect (s.at i) a) false) ↔ NoOther s (.disconnect i a) := by
  obtain ⟨hs, -⟩ := disconnect_effect (s.at i) hkeep
  have hsame : (s.at i).autosuspend = s.allowed := rfl
  have hasked : (s.at i).asked = (s.intf i).asked := rfl
  rw [Follows, exists_asks_put, Composite.put, NoOther]
  simp only [hs, hsame, hasked, Bool.false_eq_true, false_and, false_or]
  cases ha : (s.intf i).asked with
  | false =>
    have hno : ¬ s.asks i := by
      rintro ⟨-, h⟩
      rw [ha] at h
      cases h
    have hothers : (∃ j, j ≠ i ∧ s.asks j) ↔ ∃ j, s.asks j := by
      refine ⟨fun ⟨j, _, hj⟩ => ⟨j, hj⟩, fun ⟨j, hj⟩ => ⟨j, ?_, hj⟩⟩
      rintro rfl
      exact hno hj
    simp only [Bool.not_false, Bool.and_true, hothers, hno, false_implies, iff_true]
    exact hf
  | true =>
    have hasks : s.asks i := ⟨hb, ha⟩
    simp only [Bool.not_true, Bool.and_false, Bool.false_eq_true, false_iff, hasks, forall_const,
      not_exists, not_and]
    exact forall_congr' fun j => ⟨fun h hj => by_contra fun hne => h hne hj,
      fun h hne hj => hne (h hj)⟩

theorem follows_step {s s' : Composite ι} {e : Event ι} (hf : Follows s) (hkeep : EventKeepsFlag e)
    (hs : compositeStep s e = some s') : Follows s' ↔ NoOther s e := by
  cases e with
  | probe i a =>
    simp only [compositeStep] at hs
    split at hs
    · cases hs
    · rename_i hb
      obtain rfl := Option.some.inj hs
      exact follows_probe hf (Bool.not_eq_true _ ▸ hb) hkeep
  | disconnect i a =>
    simp only [compositeStep] at hs
    split at hs
    · rename_i hb
      obtain rfl := Option.some.inj hs
      exact follows_disconnect hf hb hkeep
    · cases hs

/-- An event that is not possible does no harm. -/
theorem exists_step {s : Composite ι} {e : Event ι} (h : ¬ NoOther s e) :
    ∃ s', compositeStep s e = some s' := by
  cases e with
  | probe i a =>
    have hb : s.bound i = false := by
      by_contra hb
      exact h fun hb' => absurd hb' hb
    exact ⟨_, if_neg (by rw [hb]; exact Bool.false_ne_true)⟩
  | disconnect i a =>
    have hb : s.bound i = true := by
      by_contra hb
      exact h fun hasks => absurd hasks.1 hb
    exact ⟨_, if_pos hb⟩

/-- From the moment the device is plugged in. -/
theorem autosuspend_follows_iff (intf : ι → UsbInterface) (udev : ℕ) (events : List (Event ι))
    (hkeep : ∀ e ∈ events, EventKeepsFlag e) :
    Throughout compositeStep Follows (pluggedIn intf udev) events ↔
      Along compositeStep NoOther (pluggedIn intf udev) events := by
  refine throughout_iff_along (I := Follows) (D := fun _ e => EventKeepsFlag e) (fun _ h => h)
    (fun s e s' hf hd hg hs => (follows_step hf hd hs).mpr hg) (fun s e hf hd hn => ?_) events _ ?_
    (along_of_labels hkeep _)
  · obtain ⟨s', hs⟩ := exists_step hn
    exact ⟨s', hs, fun hf' => hn ((follows_step hf hd hs).mp hf')⟩
  · refine iff_of_false Bool.false_ne_true ?_
    rintro ⟨i, hi, -⟩
    cases hi

end

def plainIntf : UsbInterface := ⟨[⟨0, []⟩], ⟨0, []⟩, List.mem_singleton.mpr rfl⟩

/-- A driver with `NV_USB_FLAG_ENABLE_AUTOSUSPEND` takes the interface. -/
def flaggedProbe : Attempt Context (Option Errno) :=
  ⟨some ⟨"drv", some ⟨true, true⟩, 2⟩, none, true, none, id, .ok ()⟩

/-- Two interfaces are bound, one of them is disconnected. -/
theorem autosuspend_lost_by_disconnect :
    ¬ Throughout compositeStep Follows (pluggedIn (fun _ : Bool => plainIntf) 0)
      [.probe true flaggedProbe, .probe false flaggedProbe, .disconnect true ⟨none, id⟩] := by
  intro h
  have hkeep : ∀ e ∈ [Event.probe true flaggedProbe, .probe false flaggedProbe,
      .disconnect true ⟨none, id⟩], EventKeepsFlag e := by
    intro e he
    simp only [List.mem_cons, List.not_mem_nil, or_false] at he
    rcases he with rfl | rfl | rfl <;> exact fun _ => rfl
  have halong := (autosuspend_follows_iff (fun _ : Bool => plainIntf) 0 _ hkeep).mp h
  have hlast := ((halong.2 _ rfl).2 _ rfl).1
  have hsame := hlast ⟨rfl, rfl⟩ false ⟨rfl, rfl⟩
  cases hsame

end LinuxDriverFramework.NvUsb
