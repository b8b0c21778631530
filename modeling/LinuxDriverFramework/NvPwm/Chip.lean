import LinuxDriverFramework.Kernel.Base
import Mathlib.Logic.Function.Basic

/-! # `nv_pwm`: configuring the channels of a chip

`nv_pwm_config`, `nv_pwm_enable` and `nv_pwm_get_config` of `nv_pwm.c` with the callbacks of
`nv_pwm_demo.c`.

* `PwmState`: period and duty cycle in nanoseconds, polarity, and whether the channel is on.
* `PwmCore`: what the PWM core of the kernel does, as far as it is not the chip's own callbacks.
* `NvPwmChip σ`: a chip whose driver keeps its data in `σ`.
* `DemoPriv`: the four channels of the demo chip. -/

namespace LinuxDriverFramework.NvPwm
set_option autoImplicit false

inductive Polarity
  | normal
  | inversed
  deriving DecidableEq, Repr

structure PwmState where
  period : ℕ
  duty : ℕ
  polarity : Polarity
  enabled : Bool
  deriving DecidableEq, Repr

/-- The PWM core: `pwm_init_state`, `pwm_get_state`, and which states `pwm_apply_might_sleep`
rejects before it calls the chip. -/
structure PwmCore where
  initState : ℕ → PwmState
  getState : ℕ → PwmState
  reject : PwmState → Option Errno
  rejects_only : ∀ s e, reject s = some e → s.enabled = true ∧ (s.period = 0 ∨ s.period < s.duty)

variable {σ : Type}

/-- `struct nv_pwm_chip_ops`; the channel is `pwm->hwpwm`. -/
structure ChipOps (σ : Type) where
  apply : Option (σ → ℕ → PwmState → σ × Ret)
  getState : Option (σ → ℕ → Except Errno PwmState)

structure NvPwmChip (σ : Type) where
  chip : Option ℕ
  ops : Option (ChipOps σ)
  npwm : ℕ
  added : Bool

/-! ## `nv_pwm.c` -/

/-- `nv_pwm_chip_get_pwm`: a channel by its number. -/
def getPwm (nchip : Option (NvPwmChip σ)) (index : ℕ) : Option ℕ :=
  match nchip with
  | none => none
  | some c => if c.chip.isNone || decide (c.npwm ≤ index) then none else some index

/-- `nv_pwm_apply`, which the core calls. -/
def nvPwmApply (nchip : NvPwmChip σ) (s : σ) (pwm : ℕ) (state : PwmState) : σ × Ret :=
  match nchip.ops.bind (·.apply) with
  | none => (s, .error .ENODEV)
  | some apply => apply s pwm state

def applyMightSleep (core : PwmCore) (nchip : NvPwmChip σ) (s : σ) (pwm : ℕ) (state : PwmState) :
    σ × Ret :=
  match core.reject state with
  | some e => (s, .error e)
  | none => nvPwmApply nchip s pwm state

def config (core : PwmCore) (nchip : Option (NvPwmChip σ)) (s : σ) (index period duty : ℕ)
    (enabled : Bool) : σ × Ret :=
  match nchip with
  | none => (s, .error .EINVAL)
  | some c =>
    if c.chip.isNone then (s, .error .EINVAL)
    else
      match getPwm nchip index with
      | none => (s, .error .EINVAL)
      | some pwm =>
        if period < duty && period != 0 then (s, .error .EINVAL)
        else
          let state := core.initState pwm
          let state := { state with
            period := period, duty := duty, enabled := enabled, polarity := .normal }
          applyMightSleep core c s pwm state

/-- `nv_pwm_enable` up to the state it has read. -/
def enableRead (core : PwmCore) (nchip : Option (NvPwmChip σ)) (s : σ) (index : ℕ) :
    Except Errno PwmState :=
  match nchip with
  | none => .error .EINVAL
  | some c =>
    if c.chip.isNone then .error .EINVAL
    else
      match getPwm nchip index with
      | none => .error .EINVAL
      | some pwm =>
        match c.ops.bind (·.getState) with
        | some getState => getState s pwm
        | none => .ok (core.getState pwm)

/-- The rest of `nv_pwm_enable`. -/
def enableApply (core : PwmCore) (nchip : Option (NvPwmChip σ)) (s : σ) (index : ℕ) (enable : Bool)
    (state : PwmState) : σ × Ret :=
  match nchip with
  | none => (s, .error .EINVAL)
  | some c => applyMightSleep core c s index { state with enabled := enable }

def enable (core : PwmCore) (nchip : Option (NvPwmChip σ)) (s : σ) (index : ℕ) (enable : Bool) :
    σ × Ret :=
  match enableRead core nchip s index with
  | .error e => (s, .error e)
  | .ok state => enableApply core nchip s index enable state

/-- `nv_pwm_get_config`; `out` says that there is somewhere to store the state. -/
def getConfig (core : PwmCore) (nchip : Option (NvPwmChip σ)) (s : σ) (index : ℕ) (out : Bool) :
    Except Errno PwmState :=
  match nchip with
  | none => .error .EINVAL
  | some c =>
    if c.chip.isNone || !out then .error .EINVAL
    else
      match getPwm nchip index with
      | none => .error .EINVAL
      | some pwm =>
        match c.ops.bind (·.getState) with
        | some getState => getState s pwm
        | none => .ok (core.getState pwm)

/-- The outcomes of `pwmchip_alloc`, which returns the chip, and of `pwmchip_add`. -/
structure RegisterOutcomes where
  alloc : Option ℕ
  add : Option Errno

/-- `nv_pwm_chip_register` with a parent device. -/
def chipRegister (nchip : NvPwmChip σ) (npwm : ℕ) (o : RegisterOutcomes) : NvPwmChip σ × Ret :=
  match nchip.ops with
  | none => (nchip, .error .EINVAL)
  | some ops =>
    if ops.apply.isNone || ops.getState.isNone || npwm == 0 then (nchip, .error .EINVAL)
    else if nchip.added then (nchip, .error .EBUSY)
    else
      match o.alloc with
      | none => (nchip, .error .ENOMEM)
      | some chip =>
        let nchip := { nchip with chip := some chip, npwm := npwm }
        match o.add with
        | some e => ({ nchip with chip := none }, .error e)
        | none => ({ nchip with added := true }, .ok ())

/-! ## `nv_pwm_demo.c` -/

/-- `NV_PWM_NPWM`. -/
def demoNpwm : ℕ := 4

/-- `struct demo_priv`; only the first `NV_PWM_NPWM` channels are there. -/
structure DemoPriv where
  ch : ℕ → PwmState

def demoApply (p : DemoPriv) (hwpwm : ℕ) (state : PwmState) : DemoPriv × Ret :=
  if demoNpwm ≤ hwpwm then (p, .error .EINVAL)
  else if state.period < state.duty && state.period != 0 then (p, .error .EINVAL)
  else ({ p with ch := Function.update p.ch hwpwm state }, .ok ())

def demoGetState (p : DemoPriv) (hwpwm : ℕ) : Except Errno PwmState :=
  if demoNpwm ≤ hwpwm then .error .EINVAL else .ok (p.ch hwpwm)

def demoOps : ChipOps DemoPriv := ⟨some demoApply, some demoGetState⟩

def demoRegisterChip (nchip : NvPwmChip DemoPriv) (o : RegisterOutcomes) :
    NvPwmChip DemoPriv × Ret :=
  chipRegister { nchip with ops := some demoOps } demoNpwm o

/-- A chip as a successful `demo_register_chip` leaves it. -/
structure Registered (nchip : NvPwmChip DemoPriv) : Prop where
  chip : nchip.chip.isSome
  ops : nchip.ops = some demoOps
  npwm : nchip.npwm = demoNpwm

theorem registered_of_register {nchip nchip' : NvPwmChip DemoPriv} {o : RegisterOutcomes}
    (h : demoRegisterChip nchip o = (nchip', .ok ())) : Registered nchip' := by
  unfold demoRegisterChip chipRegister at h
  have hno : (demoOps.apply.isNone || demoOps.getState.isNone || demoNpwm == 0) = false := rfl
  simp only [hno, Bool.false_eq_true, if_false] at h
  split at h
  · cases h
  · cases hc : o.alloc with
    | none =>
      simp only [hc] at h
      cases h
    | some chip =>
      cases ha : o.add with
      | some e =>
        simp only [hc, ha] at h
        cases h
      | none =>
        simp only [hc, ha] at h
        cases h
        exact ⟨rfl, rfl, rfl⟩

/-- The chip that `demo_register_chip` makes of the static `demo_chip`. -/
def demoChip : NvPwmChip DemoPriv := (demoRegisterChip ⟨none, none, 0, false⟩ ⟨some 0, none⟩).1

theorem registered_demoChip : Registered demoChip := ⟨rfl, rfl, rfl⟩

/-! ## What the calls do on a registered demo chip -/

/-- A duty cycle above the period, which the driver refuses unless the period is 0, or a period of 0
on a channel that is on, which the core may refuse. -/
def PwmState.Refusable (state : PwmState) : Prop :=
  state.period < state.duty ∧ state.period ≠ 0 ∨ state.enabled = true ∧ state.period = 0

theorem refused_iff {period duty : ℕ} :
    (decide (period < duty) && period != 0) = true ↔ period < duty ∧ period ≠ 0 := by
  rw [Bool.and_eq_true, decide_eq_true_eq, bne_iff_ne]

section Demo

variable {core : PwmCore} {nchip : NvPwmChip DemoPriv} {s : DemoPriv} {index : ℕ}

theorem getPwm_channel (h : Registered nchip) (hi : index < demoNpwm) :
    getPwm (some nchip) index = some index := by
  have hlt : ¬ demoNpwm ≤ index := by omega
  simp only [getPwm, h.npwm, Option.isNone_eq_false_iff.mpr h.chip, Bool.false_or,
    decide_eq_true_eq, if_neg hlt]

theorem getPwm_none (h : Registered nchip) (hi : ¬ index < demoNpwm) :
    getPwm (some nchip) index = none := by
  have hle : demoNpwm ≤ index := by omega
  simp only [getPwm, h.npwm, hle, decide_true, Bool.or_true, if_true]

/-- Apply on a channel: the state is stored, or it is refusable and nothing happens. -/
theorem applyMightSleep_cases (core : PwmCore) (h : Registered nchip) (hi : index < demoNpwm)
    (s : DemoPriv) (state : PwmState) :
    (state.Refusable ∧ ∃ e, applyMightSleep core nchip s index state = (s, .error e)) ∨
    applyMightSleep core nchip s index state =
      ({ s with ch := Function.update s.ch index state }, .ok ()) := by
  have hlt : ¬ demoNpwm ≤ index := by omega
  unfold applyMightSleep
  cases hcore : core.reject state with
  | some e =>
    obtain ⟨hon, hbad⟩ := core.rejects_only state e hcore
    by_cases hz : state.period = 0
    · exact .inl ⟨.inr ⟨hon, hz⟩, e, rfl⟩
    · exact .inl ⟨.inl ⟨hbad.resolve_left hz, hz⟩, e, rfl⟩
  | none =>
    simp only [nvPwmApply, h.ops, Option.bind_some, demoOps, demoApply, if_neg hlt]
    split
    · rename_i hbad
      exact .inl ⟨.inl (refused_iff.mp hbad), _, rfl⟩
    · exact .inr rfl

theorem config_invalid (h : Registered nchip) (hi : ¬ index < demoNpwm) (period duty : ℕ)
    (enabled : Bool) :
    config core (some nchip) s index period duty enabled = (s, .error .EINVAL) := by
  simp only [config, getPwm_none h hi, ite_self]

/-- The state that a call of `nv_pwm_config` asks for. -/
def configured (period duty : ℕ) (enabled : Bool) : PwmState := ⟨period, duty, .normal, enabled⟩

theorem config_channel (h : Registered nchip) (hi : index < demoNpwm) (period duty : ℕ)
    (enabled : Bool) :
    config core (some nchip) s index period duty enabled =
      if period < duty && period != 0 then (s, .error .EINVAL)
      else applyMightSleep core nchip s index (configured period duty enabled) := by
  simp only [config, Option.isNone_eq_false_iff.mpr h.chip, Bool.false_eq_true, if_false,
    getPwm_channel h hi]
  rfl

theorem enableRead_channel (h : Registered nchip) (hi : index < demoNpwm) :
    enableRead core (some nchip) s index = .ok (s.ch index) := by
  have hlt : ¬ demoNpwm ≤ index := by omega
  simp only [enableRead, Option.isNone_eq_false_iff.mpr h.chip, Bool.false_eq_true, if_false,
    getPwm_channel h hi, h.ops, Option.bind_some, demoOps, demoGetState, if_neg hlt]

theorem enableRead_invalid (h : Registered nchip) (hi : ¬ index < demoNpwm) :
    enableRead core (some nchip) s index = .error .EINVAL := by
  simp only [enableRead, getPwm_none h hi, ite_self]

theorem enable_channel (h : Registered nchip) (hi : index < demoNpwm) (on : Bool) :
    enable core (some nchip) s index on =
      applyMightSleep core nchip s index { s.ch index with enabled := on } := by
  simp only [enable, enableRead_channel h hi, enableApply]

theorem enable_invalid (h : Registered nchip) (hi : ¬ index < demoNpwm) (on : Bool) :
    enable core (some nchip) s index on = (s, .error .EINVAL) := by
  simp only [enable, enableRead_invalid h hi]

theorem getConfig_channel (h : Registered nchip) (hi : index < demoNpwm) :
    getConfig core (some nchip) s index true = .ok (s.ch index) := by
  have hlt : ¬ demoNpwm ≤ index := by omega
  simp only [getConfig, Option.isNone_eq_false_iff.mpr h.chip, Bool.not_true, Bool.or_false,
    Bool.false_eq_true, if_false, getPwm_channel h hi, h.ops, Option.bind_some, demoOps,
    demoGetState, if_neg hlt]

theorem getConfig_invalid (h : Registered nchip) (hi : ¬ index < demoNpwm) :
    getConfig core (some nchip) s index true = .error .EINVAL := by
  simp only [getConfig, getPwm_none h hi, ite_self]

end Demo

end LinuxDriverFramework.NvPwm
