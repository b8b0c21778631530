import LinuxDriverFramework.Foundations.ReadModifyWrite
import LinuxDriverFramework.NvPwm.ChannelMap
import Mathlib.Data.List.FinRange
import Mathlib.Data.List.Permutation

/-! # Concurrent calls of `nv_pwm_config` and `nv_pwm_enable`

`nv_pwm` takes no lock: an `nv_pwm_enable` reads the state of its channel and applies it later,
with other calls in between.

* `Update`: a call, and what it does without interruption.
* `protocol`: the same calls in atomic steps, a `get_state` and an apply.
* `Undisturbed`: between the two steps of an `nv_pwm_enable` nothing but the enabled bit of its
  channel has changed.
* `undisturbed_serial`: runs of that kind are serial and lose no configuration. -/

namespace LinuxDriverFramework.NvPwm
open Foundations
set_option autoImplicit false

inductive Update
  | config (index period duty : ℕ) (enabled : Bool)
  | enable (index : ℕ) (on : Bool)
  deriving DecidableEq, Repr

def Update.call (core : PwmCore) (nchip : NvPwmChip DemoPriv) (s : DemoPriv) : Update → DemoPriv × Ret
  | .config index period duty enabled => NvPwm.config core (some nchip) s index period duty enabled
  | .enable index on => NvPwm.enable core (some nchip) s index on

def serialCalls (core : PwmCore) (nchip : NvPwmChip DemoPriv) (s : DemoPriv) (calls : List Update) :
    DemoPriv :=
  calls.foldl (fun s u => (u.call core nchip s).1) s

/-! ## The calls in atomic steps -/

section Protocol

variable (core : PwmCore) (nchip : NvPwmChip DemoPriv) (calls : List Update)

/-- The snapshot of an `nv_pwm_config` is what `pwm_init_state` fills in; all of it is overwritten. -/
def protocol : Protocol DemoPriv (Fin calls.length) PwmState Ret where
  snapshot := fun i s =>
    match calls.get i with
    | .config index .. => .ok (core.initState index)
    | .enable index _ =>
      match enableRead core (some nchip) s index with
      | .error e => .error (.error e)
      | .ok state => .ok state
  commit := fun i state s =>
    match calls.get i with
    | .config index period duty enabled => config core (some nchip) s index period duty enabled
    | .enable index on => enableApply core (some nchip) s index on state

theorem exec_eq_call (i : Fin calls.length) (s : DemoPriv) :
    (protocol core nchip calls).exec i s = (calls.get i).call core nchip s := by
  cases hu : calls.get i with
  | config index period duty enabled =>
    simp only [Protocol.exec, protocol, hu]
    rfl
  | enable index on =>
    simp only [Protocol.exec, protocol, hu, Update.call, enable]
    cases enableRead core (some nchip) s index <;> rfl

theorem serial_eq_serialCalls (s : DemoPriv) (order : List (Fin calls.length)) :
    ((protocol core nchip calls).serial s order).1 =
      serialCalls core nchip s (order.map calls.get) := by
  induction order generalizing s with
  | nil => rfl
  | cons i order ih =>
    show ((protocol core nchip calls).serial ((protocol core nchip calls).exec i s).1 order).1 = _
    rw [ih, exec_eq_call]
    rfl

abbrev Concurrent := Protocol.Config DemoPriv (Fin calls.length) PwmState Ret

variable {calls}

/-- The call that is about to apply the state it has read finds the same period, duty cycle and
polarity on its channel. -/
def Undisturbed (c : Concurrent calls) (i : Fin calls.length) : Prop :=
  ∀ state, c.phase i = .holding state → ∀ index on, calls.get i = .enable index on →
    state.period = (c.shared.ch index).period ∧ state.duty = (c.shared.ch index).duty ∧
      state.polarity = (c.shared.ch index).polarity

/-- A step of an `nv_pwm_enable` leaves period, duty cycle and polarity of every channel alone. -/
def KeepsConfig (c : Concurrent calls) (i : Fin calls.length) : Prop :=
  ∀ index on, calls.get i = .enable index on → ∀ c', (protocol core nchip calls).step c i = some c' →
    ∀ j, (c'.shared.ch j).period = (c.shared.ch j).period ∧
      (c'.shared.ch j).duty = (c.shared.ch j).duty ∧
      (c'.shared.ch j).polarity = (c.shared.ch j).polarity

/-- A call that has read a state is about a channel that exists. -/
def OnChannel (c : Concurrent calls) : Prop :=
  ∀ i state, c.phase i = .holding state → ∀ index on, calls.get i = .enable index on →
    index < demoNpwm

variable {core nchip} (h : Registered nchip)
include h

theorem onChannel_step {c c' : Concurrent calls} {i : Fin calls.length} (hc : OnChannel c)
    (hs : (protocol core nchip calls).step c i = some c') : OnChannel c' := by
  have hfinish : ∀ r, OnChannel (c.finish i r) := by
    intro r j state hj index on hu
    rw [Protocol.Config.phase_finish] at hj
    by_cases hji : j = i
    · rw [if_pos hji] at hj
      cases hj
    · rw [if_neg hji] at hj
      exact hc j state hj index on hu
  unfold Protocol.step at hs
  split at hs
  · split at hs
    · rw [← Option.some.inj hs]
      exact hfinish _
    · rename_i v hv
      rw [← Option.some.inj hs]
      intro j state hj index on hu
      rw [Protocol.Config.phase_hold] at hj
      by_cases hji : j = i
      · subst hji
        by_contra hno
        simp only [protocol, hu, enableRead_invalid h hno] at hv
        cases hv
      · rw [if_neg hji] at hj
        exact hc j state hj index on hu
  · rw [← Option.some.inj hs]
    exact hfinish _
  · cases hs

theorem upToDate_of_undisturbed {c : Concurrent calls} {i : Fin calls.length} (hc : OnChannel c)
    (hg : Undisturbed c i) : (protocol core nchip calls).UpToDate c i := by
  intro state hstate
  rw [exec_eq_call]
  cases hu : calls.get i with
  | config index period duty enabled =>
    simp only [protocol, hu]
    rfl
  | enable index on =>
    obtain ⟨hperiod, hduty, hpolarity⟩ := hg state hstate index on hu
    have hi := hc i state hstate index on hu
    have heq : { state with enabled := on } = { c.shared.ch index with enabled := on } := by
      rw [hperiod, hduty, hpolarity]
    simp only [protocol, hu, Update.call, enable_channel h hi, enableApply]
    rw [heq]

theorem enable_keeps (s : DemoPriv) (index : ℕ) (on : Bool) (j : ℕ) :
    let s' := (enable core (some nchip) s index on).1
    (s'.ch j).period = (s.ch j).period ∧ (s'.ch j).duty = (s.ch j).duty ∧
      (s'.ch j).polarity = (s.ch j).polarity := by
  by_cases hi : index < demoNpwm
  · rw [enable_channel h hi]
    obtain ⟨-, e, he⟩ | hok := applyMightSleep_cases core h hi s { s.ch index with enabled := on }
    · rw [he]
      exact ⟨rfl, rfl, rfl⟩
    · rw [hok]
      by_cases hj : j = index
      · subst hj
        simp only [Function.update_self, and_self]
      · simp only [Function.update_of_ne hj, and_self]
  · rw [enable_invalid h hi]
    exact ⟨rfl, rfl, rfl⟩

theorem keepsConfig_of_undisturbed {c : Concurrent calls} {i : Fin calls.length} (hc : OnChannel c)
    (hg : Undisturbed c i) : KeepsConfig core nchip c i := by
  intro index on hu c' hs j
  obtain ⟨-, ⟨v, rfl⟩ | rfl⟩ :=
    (protocol core nchip calls).step_cases (upToDate_of_undisturbed h hc hg) hs
  · exact ⟨rfl, rfl, rfl⟩
  · show (((protocol core nchip calls).exec i c.shared).1.ch j).period = _ ∧
      (((protocol core nchip calls).exec i c.shared).1.ch j).duty = _ ∧
      (((protocol core nchip calls).exec i c.shared).1.ch j).polarity = _
    rw [exec_eq_call, hu]
    exact enable_keeps h c.shared index on j

/-- If every `nv_pwm_enable` applies to an undisturbed channel, then the calls have the effect of
some serial order, and no enable undoes a configuration. -/
theorem undisturbed_serial (s₀ : DemoPriv) (schedule : List (Fin calls.length))
    (c : Concurrent calls)
    (hr : Foundations.run (protocol core nchip calls).step (.init s₀) schedule = some c)
    (hall : ∀ i, ∃ r, c.phase i = .finished r)
    (hg : Along (protocol core nchip calls).step Undisturbed (.init s₀) schedule) :
    (∃ order, order.Perm calls ∧ serialCalls core nchip s₀ order = c.shared) ∧
      Along (protocol core nchip calls).step (KeepsConfig core nchip) (.init s₀) schedule := by
  have hinit : OnChannel (.init s₀ : Concurrent calls) := fun i state hi => by cases hi
  have hstep : ∀ c i c', OnChannel c → Undisturbed c i →
      (protocol core nchip calls).step c i = some c' → OnChannel c' :=
    fun c i c' hc _ hs => onChannel_step h hc hs
  refine ⟨?_, hg.imp_of_invariant hstep (fun c i => keepsConfig_of_undisturbed h) hinit⟩
  have hdate : Along (protocol core nchip calls).step (protocol core nchip calls).UpToDate
      (.init s₀) schedule :=
    hg.imp_of_invariant hstep (fun c i => upToDate_of_undisturbed h) hinit
  have hserial := (protocol core nchip calls).serial_of_upToDate schedule hr hdate
  refine ⟨(c.done.map Prod.fst).map calls.get, ?_, ?_⟩
  · -- every call has finished, and finished once
    have hperm : (c.done.map Prod.fst).Perm (List.finRange calls.length) := by
      refine (List.perm_ext_iff_of_nodup hserial.nodup (List.nodup_finRange _)).mpr fun i => ?_
      obtain ⟨r, hi⟩ := hall i
      have hmem := List.mem_map_of_mem (f := Prod.fst) ((hserial.finished i r).mp hi)
      exact ⟨fun _ => List.mem_finRange i, fun _ => hmem⟩
    have hcalls := hperm.map calls.get
    rw [List.map_get_finRange] at hcalls
    exact hcalls
  · rw [← serial_eq_serialCalls, hserial.serial]

end Protocol

/-! ## Calls that overlap and leave each other's channel alone -/

/-- Two calls of `nv_pwm_enable` for channel 0, and
`nv_pwm_config(chip, 1, 2000000, 500000, true)`. -/
def offOnConfig : List Update := [.enable 0 false, .enable 0 true, .config 1 2000000 500000 true]

/-- All three have begun before the first of them is applied. -/
def interleaved : List (Fin offOnConfig.length) :=
  [⟨0, by decide⟩, ⟨1, by decide⟩, ⟨2, by decide⟩, ⟨1, by decide⟩, ⟨2, by decide⟩, ⟨0, by decide⟩]

def allConfigured : DemoPriv := ⟨fun _ => configured 1000000 250000 false⟩

theorem undisturbed_serial_interleaved :
    ∃ c : Concurrent offOnConfig,
      Foundations.run (protocol strictCore demoChip offOnConfig).step (.init allConfigured)
        interleaved = some c ∧
      (∃ order, order.Perm offOnConfig ∧
        serialCalls strictCore demoChip allConfigured order = c.shared) ∧
      Along (protocol strictCore demoChip offOnConfig).step (KeepsConfig strictCore demoChip)
        (.init allConfigured) interleaved := by
  refine ⟨_, rfl, undisturbed_serial registered_demoChip allConfigured interleaved _ rfl ?_ ?_⟩
  · rintro ⟨i, hi⟩
    match i, hi with
    | 0, _ => exact ⟨.ok (), rfl⟩
    | 1, _ => exact ⟨.ok (), rfl⟩
    | 2, _ => exact ⟨.ok (), rfl⟩
  -- the three calls read
  · refine ⟨fun _ hs => (by cases hs), fun c hc => ?_⟩
    obtain rfl := Option.some.inj hc
    refine ⟨fun _ hs => (by cases hs), fun c hc => ?_⟩
    obtain rfl := Option.some.inj hc
    refine ⟨fun _ hs => (by cases hs), fun c hc => ?_⟩
    obtain rfl := Option.some.inj hc
    -- and are applied; the channel that was turned on has kept its period, duty cycle and polarity
    refine ⟨fun state hs index on hu => ?_, fun c hc => ?_⟩
    · cases hs
      cases hu
      exact ⟨rfl, rfl, rfl⟩
    · obtain rfl := Option.some.inj hc
      refine ⟨fun _ _ _ _ hu => (by cases hu), fun c hc => ?_⟩
      obtain rfl := Option.some.inj hc
      refine ⟨fun state hs index on hu => ?_, fun _ _ => trivial⟩
      cases hs
      cases hu
      exact ⟨rfl, rfl, rfl⟩

/-! ## An enable and a configuration of one channel -/

/-- `nv_pwm_enable(chip, 0, false)` and `nv_pwm_config(chip, 0, 1000000, 250000, true)`. -/
def offAndConfig : List Update := [.enable 0 false, .config 0 1000000 250000 true]

def callOff : Fin offAndConfig.length := ⟨0, by decide⟩

def callConfig : Fin offAndConfig.length := ⟨1, by decide⟩

def afterSchedule (schedule : List (Fin offAndConfig.length)) : Option (Concurrent offAndConfig) :=
  Foundations.run (protocol strictCore demoChip offAndConfig).step (.init demoZero) schedule

/-- The enable reads, the configuration is applied, the enable applies what it has read. -/
def overlapping : List (Fin offAndConfig.length) := [callOff, callConfig, callConfig, callOff]

/-- The configuration succeeds, and at the end nothing of it is left: no serial order of the two
calls ends like that. -/
theorem enable_loses_config : ∃ c, afterSchedule overlapping = some c ∧
    c.phase callConfig = .finished (.ok ()) ∧ c.phase callOff = .finished (.ok ()) ∧
    (c.shared.ch 0).period = 0 ∧
    ∀ order, order.Perm offAndConfig → serialCalls strictCore demoChip demoZero order ≠ c.shared := by
  refine ⟨(afterSchedule overlapping).get rfl, rfl, rfl, rfl, rfl, ?_⟩
  intro order hperm heq
  have hperiod : ((serialCalls strictCore demoChip demoZero order).ch 0).period = 1000000 := by
    rcases List.perm_pair.mp hperm with rfl | rfl
    · rfl
    · rfl
  rw [heq] at hperiod
  exact absurd hperiod (by decide)

end LinuxDriverFramework.NvPwm
