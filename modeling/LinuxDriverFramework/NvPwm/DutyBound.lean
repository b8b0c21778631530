import LinuxDriverFramework.NvPwm.ChannelMap

/-! # Duty cycles and periods of the demo chip

A duty cycle above the period is refused by `nv_pwm_config` and by `demo_apply` unless the period is
0, and by the PWM core only for a channel that is on.

* `Bounded`: what all three checks together let through.
* `stored_bounded`: a state that reaches a channel is bounded.
* `run_bounded`: so are all channels in every state of a run. -/

namespace LinuxDriverFramework.NvPwm
set_option autoImplicit false

/-- The core rejects a channel that is switched on without a period. -/
def PwmCore.NeedsPeriod (core : PwmCore) : Prop :=
  ∀ state, state.enabled = true → state.period = 0 → core.reject state ≠ none

/-- The duty cycle is within the period, or there is no period and the channel is off, as far as
that is up to the core. -/
def Bounded (core : PwmCore) (state : PwmState) : Prop :=
  state.duty ≤ state.period ∨ (state.period = 0 ∧ (core.NeedsPeriod → state.enabled = false))

section Step

variable {core : PwmCore} {nchip : NvPwmChip DemoPriv} {s : DemoPriv} {index : ℕ}

/-- What gets past the core and `demo_apply`. -/
theorem stored_bounded (core : PwmCore) (h : Registered nchip) (hi : index < demoNpwm)
    (s : DemoPriv) (state : PwmState) :
    (applyMightSleep core nchip s index state).1 = s ∨
      Bounded core state ∧ (applyMightSleep core nchip s index state).1 =
        { s with ch := Function.update s.ch index state } := by
  have hlt : ¬ demoNpwm ≤ index := by omega
  unfold applyMightSleep
  cases hr : core.reject state with
  | some e => exact .inl rfl
  | none =>
    simp only [nvPwmApply, h.ops, Option.bind_some, demoOps, demoApply, if_neg hlt]
    by_cases hbad : (decide (state.period < state.duty) && state.period != 0) = true
    · rw [if_pos hbad]
      exact .inl rfl
    · rw [if_neg hbad]
      refine .inr ⟨?_, rfl⟩
      by_cases hle : state.duty ≤ state.period
      · exact .inl hle
      · have hzero : state.period = 0 := by
          by_contra hne
          exact hbad (by simp [hne]; omega)
        refine .inr ⟨hzero, fun hneeds => ?_⟩
        cases hon : state.enabled with
        | false => rfl
        | true => exact absurd hr (hneeds state hon hzero)

theorem apply_keeps (h : Registered nchip) (hi : index < demoNpwm)
    (hs : ∀ i, Bounded core (s.ch i)) (state : PwmState) (i : ℕ) :
    Bounded core ((applyMightSleep core nchip s index state).1.ch i) := by
  obtain hstay | ⟨hb, hnew⟩ := stored_bounded core h hi s state
  · rw [hstay]
    exact hs i
  · rw [hnew]
    show Bounded core (Function.update s.ch index state i)
    by_cases hii : i = index
    · rw [hii, Function.update_self]
      exact hb
    · rw [Function.update_of_ne hii]
      exact hs i

theorem step_keeps (h : Registered nchip) (hs : ∀ i, Bounded core (s.ch i)) (c : Call) (i : ℕ) :
    Bounded core ((step core nchip s c).1.ch i) := by
  cases c with
  | config index period duty enabled =>
    show Bounded core ((config core (some nchip) s index period duty enabled).1.ch i)
    by_cases hi : index < demoNpwm
    · rw [config_channel h hi]
      split
      · exact hs i
      · exact apply_keeps h hi hs _ i
    · rw [config_invalid h hi]
      exact hs i
  | enable index on =>
    show Bounded core ((enable core (some nchip) s index on).1.ch i)
    by_cases hi : index < demoNpwm
    · rw [enable_channel h hi]
      exact apply_keeps h hi hs _ i
    · rw [enable_invalid h hi]
      exact hs i
  | getConfig index => exact hs i

end Step

theorem run_keeps (core : PwmCore) {nchip : NvPwmChip DemoPriv} (h : Registered nchip)
    (calls : List Call) {s : DemoPriv} (hs : ∀ i, Bounded core (s.ch i)) (i : ℕ) :
    Bounded core ((run core nchip s calls).1.ch i) := by
  induction calls generalizing s with
  | nil => exact hs i
  | cons c calls ih => exact ih (step_keeps h hs c)

/-- From zero on, no run leaves a channel with a duty cycle above a period that is not 0. -/
theorem run_bounded (core : PwmCore) (nchip : NvPwmChip DemoPriv) (h : Registered nchip)
    (calls : List Call) (i : Fin demoNpwm) :
    Bounded core ((run core nchip demoZero calls).1.map i) :=
  run_keeps core h calls (fun _ => .inl (Nat.le_refl 0)) i

theorem run_bounded_demo :
    Bounded strictCore ((run strictCore demoChip demoZero
      [.config 0 0 5 false, .enable 0 true, .config 1 10 20 true]).1.map ⟨0, by decide⟩) :=
  run_bounded strictCore demoChip registered_demoChip _ _

/-- A channel that is off takes a duty cycle without a period. -/
theorem duty_without_period :
    ¬ ∀ (core : PwmCore) (nchip : NvPwmChip DemoPriv), Registered nchip →
      ∀ (calls : List Call) (i : Fin demoNpwm),
        ((run core nchip demoZero calls).1.map i).duty ≤
          ((run core nchip demoZero calls).1.map i).period := by
  intro h
  have hle := h strictCore demoChip registered_demoChip [.config 0 0 5 false] ⟨0, by decide⟩
  exact absurd hle (by decide)

end LinuxDriverFramework.NvPwm
