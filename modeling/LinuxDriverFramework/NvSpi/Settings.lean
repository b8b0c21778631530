import LinuxDriverFramework.Foundations.Runs
import LinuxDriverFramework.NvSpi.Binding

/-! # The two copies of the settings

`nv_spi_set_speed` and `nv_spi_set_mode` write the `spi_device` and the context before `spi_setup`
has its say; `nv_spi_probe` copies the settings before it.

* `SetupResult`: `spi_setup` fails, or it lowers the speed to the limit of the controller.
* `setSpeed`, `setMode`: the two functions.
* `Call`, `World`: runs on one device, with the last call and the state before it.
* `Settled`: after a success both copies agree, after an error both are as before.
* `Call.Harmless`: the condition for that, and `settled_iff_harmless`. -/

namespace LinuxDriverFramework.NvSpi
open Foundations Binding
set_option autoImplicit false

/-! ## The calls -/

inductive SetupResult
  | fails (e : Errno)
  | ok (limit : UInt32)
  deriving DecidableEq, Repr

def lowered (limit hz : UInt32) : UInt32 := if limit < hz then limit else hz

def SetupResult.outcome (settings : SpiSettings) : SetupResult → SetupOutcome
  | .fails e => ⟨.error e, settings⟩
  | .ok limit => ⟨.ok (), { settings with maxSpeedHz := lowered limit settings.maxSpeedHz }⟩

/-- `nv_spi_set_speed`, on the context that the driver-data pointer refers to. -/
def setSpeed (spi : SpiDevice) (hz : UInt32) (r : SetupResult) : SpiDevice × Ret :=
  match spi.drvdata with
  | none => (spi, .error .EINVAL)
  | some dev =>
    if dev.spi.isNone || hz == 0 then (spi, .error .EINVAL)
    else
      let settings := { spi.settings with maxSpeedHz := hz }
      let dev := { dev with maxSpeedHz := hz }
      setup { spi with settings := settings, drvdata := some dev } dev (r.outcome settings)

def setMode (spi : SpiDevice) (mode : UInt8) (r : SetupResult) : SpiDevice × Ret :=
  match spi.drvdata with
  | none => (spi, .error .EINVAL)
  | some dev =>
    if dev.spi.isNone then (spi, .error .EINVAL)
    else
      let settings := { spi.settings with mode := mode.toUInt32 }
      let dev := { dev with mode := mode }
      setup { spi with settings := settings, drvdata := some dev } dev (r.outcome settings)

/-- A call of `nv_spi_probe` without the skip-setup flag; `ops->probe` hangs its own data into the
context. -/
structure ProbeCall where
  fromId : Option BusDriver
  fromDev : Option BusDriver
  kzalloc : Bool
  setup : SetupResult
  priv : Option ℕ
  opsResult : Ret
  noSkip : ∀ drv, probing fromId fromDev = some drv → drv.hasFlag flagSkipSpiSetup = false

def ProbeCall.attempt (c : ProbeCall) (spi : SpiDevice) : Attempt NvSpiDev SetupOutcome where
  fromId := c.fromId
  fromDev := c.fromDev
  kzalloc := c.kzalloc
  outcomes := c.setup.outcome spi.settings
  opsProbe := fun dev => { dev with priv := c.priv }
  opsResult := c.opsResult

/-- After a probe that fails the driver core frees the context and clears the pointer. -/
def probed (spi : SpiDevice) (c : ProbeCall) : SpiDevice × Ret :=
  match probe spi (c.attempt spi) with
  | (spi, .error e) => ({ spi with drvdata := none }, .error e)
  | (spi, .ok ()) => (spi, .ok ())

inductive Call
  | probe (c : ProbeCall)
  | setSpeed (hz : UInt32) (r : SetupResult)
  | setMode (mode : UInt8) (r : SetupResult)

def exec (spi : SpiDevice) : Call → SpiDevice × Ret
  | .probe c => probed spi c
  | .setSpeed hz r => NvSpi.setSpeed spi hz r
  | .setMode mode r => NvSpi.setMode spi mode r

structure World where
  spi : SpiDevice
  /-- the device before the last call, and what the call returned -/
  last : Option (SpiDevice × Ret)

def World.unbound (spi : SpiDevice) : World := ⟨{ spi with drvdata := none }, none⟩

/-- A device is probed while no driver is bound to it. -/
def step (w : World) (c : Call) : Option World :=
  match c, w.spi.drvdata with
  | .probe _, some _ => none
  | c, _ =>
    let r := exec w.spi c
    some ⟨r.1, some (w.spi, r.2)⟩

/-! ## The two copies -/

/-- The copies of speed and mode in the context. -/
def SpiDevice.cached (spi : SpiDevice) : Option (UInt32 × UInt8) :=
  spi.drvdata.map fun dev => (dev.maxSpeedHz, dev.mode)

/-- The context has the settings that are in effect. -/
def InStep (spi : SpiDevice) (dev : NvSpiDev) : Prop :=
  dev.maxSpeedHz = spi.settings.maxSpeedHz ∧ dev.mode.toUInt32 = spi.settings.mode

/-- What is promised of one call. -/
structure SettledAfter (before after : SpiDevice) (ret : Ret) : Prop where
  success : ret = .ok () → ∃ dev, after.drvdata = some dev ∧ InStep after dev
  error : ret ≠ .ok () → after.cached = before.cached ∧ after.settings = before.settings

def Settled (w : World) : Prop :=
  ∀ before ret, w.last = some (before, ret) → SettledAfter before w.spi ret

/-! ## The condition -/

/-- An accepted setting is not lowered, and a refused one is what is set already; at a probe the
mode fits into an octet. -/
def Call.Harmless (spi : SpiDevice) : Call → Prop
  | .probe c => spi.drvdata = none → (c.attempt spi).driver.isSome = true →
      ∀ limit, c.setup = .ok limit → ¬ limit < spi.settings.maxSpeedHz ∧
        (c.opsResult = .ok () → spi.settings.mode.toUInt8.toUInt32 = spi.settings.mode)
  | .setSpeed hz r => spi.drvdata.isSome = true → hz ≠ 0 →
      match r with
      | .fails _ => hz = spi.settings.maxSpeedHz
      | .ok limit => ¬ limit < hz
  | .setMode mode r => spi.drvdata.isSome = true →
      match r with
      | .fails _ => mode.toUInt32 = spi.settings.mode
      | .ok limit => ¬ limit < spi.settings.maxSpeedHz

/-! ## One call -/

theorem lowered_eq_iff (limit hz : UInt32) : lowered limit hz = hz ↔ ¬ limit < hz := by
  unfold lowered
  by_cases h : limit < hz
  · rw [if_pos h]
    exact iff_of_false (fun he => absurd h (he ▸ UInt32.lt_irrefl limit)) fun hn => hn h
  · rw [if_neg h]
    exact iff_of_true rfl h

/-- Every context refers to its device. -/
def PointsBack (spi : SpiDevice) : Prop := ∀ dev, spi.drvdata = some dev → dev.spi.isSome = true

def AllInStep (spi : SpiDevice) : Prop := ∀ dev, spi.drvdata = some dev → InStep spi dev

theorem settledAfter_same {spi : SpiDevice} {e : Errno} : SettledAfter spi spi (.error e) :=
  ⟨fun h => (by cases h), fun _ => ⟨rfl, rfl⟩⟩

/-- A call that keeps its promise leaves the copies in step. -/
theorem SettledAfter.inStep {before after : SpiDevice} {ret : Ret}
    (h : SettledAfter before after ret) (hb : AllInStep before) : AllInStep after := by
  intro dev hdev
  by_cases hret : ret = .ok ()
  · obtain ⟨dev', hdev', hin⟩ := h.success hret
    obtain rfl := Option.some.inj (hdev'.symm.trans hdev)
    exact hin
  · obtain ⟨hcached, hsettings⟩ := h.error hret
    rw [SpiDevice.cached, SpiDevice.cached, hdev] at hcached
    obtain ⟨dev₀, hdev₀, hpair⟩ := Option.map_eq_some_iff.mp hcached.symm
    obtain ⟨hspeed, hmode⟩ := Prod.mk.inj hpair
    obtain ⟨hspeed₀, hmode₀⟩ := hb dev₀ hdev₀
    exact ⟨by rw [← hspeed, hspeed₀, hsettings], by rw [← hmode, hmode₀, hsettings]⟩

section Set

variable {spi : SpiDevice}

theorem pointsBack_setup (asked : SpiSettings) {new : NvSpiDev} (o : SetupOutcome)
    (hback : new.spi.isSome = true) :
    PointsBack (setup { spi with settings := asked, drvdata := some new } new o).1 := by
  obtain ⟨self, hself⟩ := Option.isSome_iff_exists.mp hback
  intro dev hdev
  simp only [setup, hself] at hdev
  obtain rfl := Option.some.inj hdev
  exact hback

/-- A write of both copies, and then `spi_setup`. -/
theorem settledAfter_setup (asked : SpiSettings) (new : NvSpiDev) (r : SetupResult)
    {dev : NvSpiDev} (hdev : spi.drvdata = some dev) (hback : new.spi.isSome = true) :
    let after := setup { spi with settings := asked, drvdata := some new } new (r.outcome asked)
    SettledAfter spi after.1 after.2 ↔
      match r with
      | .fails _ => (new.maxSpeedHz, new.mode) = (dev.maxSpeedHz, dev.mode) ∧ asked = spi.settings
      | .ok limit => new.maxSpeedHz = lowered limit asked.maxSpeedHz ∧
          new.mode.toUInt32 = asked.mode := by
  obtain ⟨self, hself⟩ := Option.isSome_iff_exists.mp hback
  simp only [setup, hself]
  cases r with
  | fails e =>
    constructor
    · intro h
      obtain ⟨hcached, hsettings⟩ := h.error (by intro he; cases he)
      rw [SpiDevice.cached, SpiDevice.cached, hdev] at hcached
      exact ⟨Option.some.inj hcached, hsettings⟩
    · intro h
      refine ⟨fun he => (by cases he), fun _ => ⟨?_, h.2⟩⟩
      rw [SpiDevice.cached, SpiDevice.cached, hdev]
      exact congrArg some h.1
  | ok limit =>
    constructor
    · intro h
      obtain ⟨dev', hdev', hin⟩ := h.success rfl
      obtain rfl := Option.some.inj hdev'
      exact hin
    · intro h
      exact ⟨fun _ => ⟨new, rfl, h⟩, fun hno => absurd rfl hno⟩

variable (hin : AllInStep spi) (hback : PointsBack spi)
include hin hback

theorem setSpeed_settled_iff (hz : UInt32) (r : SetupResult) :
    SettledAfter spi (setSpeed spi hz r).1 (setSpeed spi hz r).2 ↔
      (Call.setSpeed hz r).Harmless spi := by
  unfold setSpeed Call.Harmless
  cases hdev : spi.drvdata with
  | none => exact iff_of_true settledAfter_same fun h => by cases h
  | some dev =>
    have hself := hback dev hdev
    obtain ⟨hspeed, hmode⟩ := hin dev hdev
    by_cases hzero : hz = 0
    · subst hzero
      simp only [beq_self_eq_true, Bool.or_true, if_true]
      exact iff_of_true settledAfter_same fun _ h => absurd rfl h
    · have hcheck : (dev.spi.isNone || hz == 0) = false := by
        rw [beq_eq_false_iff_ne.mpr hzero, Bool.or_false, Option.isNone_eq_false_iff]
        exact hself
      simp only [hcheck, Bool.false_eq_true, if_false]
      refine (settledAfter_setup { spi.settings with maxSpeedHz := hz }
        { dev with maxSpeedHz := hz } r hdev hself).trans ?_
      cases r with
      | fails e =>
        constructor
        · rintro ⟨-, hsame⟩ - -
          exact congrArg SpiSettings.maxSpeedHz hsame
        · intro h
          obtain rfl := h rfl hzero
          exact ⟨by rw [hspeed], rfl⟩
      | ok limit =>
        have hlow := lowered_eq_iff limit hz
        constructor
        · rintro ⟨hlowered, -⟩ - -
          exact hlow.mp hlowered.symm
        · intro h
          exact ⟨(hlow.mpr (h rfl hzero)).symm, hmode⟩

theorem setMode_settled_iff (mode : UInt8) (r : SetupResult) :
    SettledAfter spi (setMode spi mode r).1 (setMode spi mode r).2 ↔
      (Call.setMode mode r).Harmless spi := by
  unfold setMode Call.Harmless
  cases hdev : spi.drvdata with
  | none => exact iff_of_true settledAfter_same fun h => by cases h
  | some dev =>
    have hself := hback dev hdev
    obtain ⟨hspeed, hmode⟩ := hin dev hdev
    have hcheck : dev.spi.isNone = false := Option.isNone_eq_false_iff.mpr hself
    simp only [hcheck, Bool.false_eq_true, if_false]
    refine (settledAfter_setup { spi.settings with mode := mode.toUInt32 }
      { dev with mode := mode } r hdev hself).trans ?_
    cases r with
    | fails e =>
      constructor
      · rintro ⟨-, hsame⟩ -
        exact congrArg SpiSettings.mode hsame
      · intro h
        have hset := h rfl
        have hoctet : mode = dev.mode := UInt8.toUInt32_inj.mp (hset.trans hmode.symm)
        exact ⟨by rw [hoctet], by rw [hset]⟩
    | ok limit =>
      have hlow := lowered_eq_iff limit spi.settings.maxSpeedHz
      constructor
      · rintro ⟨hlowered, -⟩ -
        exact hlow.mp (hlowered.symm.trans hspeed)
      · intro h
        exact ⟨hspeed.trans (hlow.mpr (h rfl)).symm, rfl⟩

end Set

section Probe

variable {spi : SpiDevice} (c : ProbeCall)

theorem noSkip_driver {drv : BusDriver} (h : (c.attempt spi).driver = some drv) :
    drv.hasFlag flagSkipSpiSetup = false := by
  obtain ⟨-, hdrv⟩ := Option.ite_none_right_eq_some.mp h
  exact c.noSkip drv hdrv

/-- The device after `spi_setup` has accepted it. -/
def setUp (spi : SpiDevice) (limit : UInt32) (dev : Option NvSpiDev) : SpiDevice :=
  { spi with
    settings := { spi.settings with maxSpeedHz := lowered limit spi.settings.maxSpeedHz }
    drvdata := dev }

/-- A probe that does not get past `spi_setup` leaves an unbound device as it was. -/
theorem probed_refused (hnone : spi.drvdata = none)
    (h : (c.attempt spi).driver = none ∨ ∃ e, c.setup = .fails e) :
    ∃ e, probed spi c = (spi, .error e) := by
  have hclear : { spi with drvdata := none } = spi := by
    rw [← hnone]
  have hprobed : (probe spi (c.attempt spi)).2.isOk = false ∧
      { (probe spi (c.attempt spi)).1 with drvdata := none } = spi := by
    cases hdrv : (c.attempt spi).driver with
    | none =>
      have hnothing : (probe spi (c.attempt spi)).1 = spi ∧
          (probe spi (c.attempt spi)).2.isOk = false := Attempt.probe_none hdrv
      refine ⟨hnothing.2, ?_⟩
      rw [hnothing.1]
      exact hclear
    | some drv =>
      obtain ⟨e, he⟩ := h.resolve_left (by rw [hdrv]; exact Option.some_ne_none drv)
      have hprobe : probe spi (c.attempt spi) = probeContext spi (c.attempt spi) drv :=
        Attempt.probe_some hdrv
      have hcontext : probeContext spi (c.attempt spi) drv =
          ({ spi with drvdata := some (spi.context drv) }, .error e) := by
        simp only [probeContext, noSkip_driver c hdrv, Bool.false_eq_true, if_false, setup,
          SpiDevice.context, ProbeCall.attempt, he, SetupResult.outcome]
      rw [hprobe, hcontext]
      exact ⟨rfl, hclear⟩
  obtain ⟨hret, hspi⟩ := hprobed
  unfold probed
  cases hp : probe spi (c.attempt spi) with
  | mk spi' ret =>
    rw [hp] at hret hspi
    cases ret with
    | ok u => cases hret
    | error e => exact ⟨e, Prod.ext hspi rfl⟩

theorem probed_set_up {drv : BusDriver} (hdrv : (c.attempt spi).driver = some drv) {limit : UInt32}
    (hr : c.setup = .ok limit) :
    probed spi c = match c.opsResult with
      | .error e => (setUp spi limit none, .error e)
      | .ok () => (setUp spi limit (some { spi.context drv with priv := c.priv }), .ok ()) := by
  have hprobe : probe spi (c.attempt spi) = probeContext spi (c.attempt spi) drv :=
    Attempt.probe_some hdrv
  have hops : (c.attempt spi).opsResult = c.opsResult := rfl
  unfold probed
  rw [hprobe]
  simp only [probeContext, noSkip_driver c hdrv, Bool.false_eq_true, if_false, setup,
    SpiDevice.context, ProbeCall.attempt, hr, SetupResult.outcome]
  cases c.opsResult <;> rfl

theorem setUp_settings {limit : UInt32} (h : ¬ limit < spi.settings.maxSpeedHz)
    (dev : Option NvSpiDev) : (setUp spi limit dev).settings = spi.settings := by
  simp only [setUp, (lowered_eq_iff limit spi.settings.maxSpeedHz).mpr h]

theorem probed_settled_iff (hnone : spi.drvdata = none) :
    SettledAfter spi (probed spi c).1 (probed spi c).2 ↔ (Call.probe c).Harmless spi := by
  cases hdrv : (c.attempt spi).driver with
  | none =>
    obtain ⟨e, he⟩ := probed_refused c hnone (.inl hdrv)
    rw [he]
    refine iff_of_true settledAfter_same fun _ h => ?_
    rw [hdrv] at h
    cases h
  | some drv =>
    have hsome : (c.attempt spi).driver.isSome = true := by
      rw [hdrv]
      rfl
    cases hr : c.setup with
    | fails e =>
      obtain ⟨e, he⟩ := probed_refused c hnone (.inr ⟨e, hr⟩)
      rw [he]
      refine iff_of_true settledAfter_same fun _ _ limit h => ?_
      rw [hr] at h
      cases h
    | ok limit =>
      have hlow := lowered_eq_iff limit spi.settings.maxSpeedHz
      rw [probed_set_up c hdrv hr]
      cases hops : c.opsResult with
      | error e =>
        constructor
        · intro h _ _ limit' hr'
          obtain rfl := SetupResult.ok.inj (hr.symm.trans hr')
          have hsettings := (h.error (by intro he; cases he)).2
          refine ⟨hlow.mp (congrArg SpiSettings.maxSpeedHz hsettings), fun hok => ?_⟩
          rw [hops] at hok
          cases hok
        · intro h
          obtain ⟨hlimit, -⟩ := h hnone hsome limit hr
          refine ⟨fun he => (by cases he), fun _ => ⟨?_, setUp_settings hlimit none⟩⟩
          rw [SpiDevice.cached, SpiDevice.cached, hnone]
          rfl
      | ok u =>
        constructor
        · intro h _ _ limit' hr'
          obtain rfl := SetupResult.ok.inj (hr.symm.trans hr')
          obtain ⟨dev, hdev, hspeed, hmode⟩ := h.success rfl
          obtain rfl := Option.some.inj hdev
          exact ⟨hlow.mp hspeed.symm, fun _ => hmode⟩
        · intro h
          obtain ⟨hlimit, hoctet⟩ := h hnone hsome limit hr
          refine ⟨fun _ => ⟨_, rfl, (hlow.mpr hlimit).symm, hoctet hops⟩, fun hno => ?_⟩
          exact absurd rfl hno

end Probe

/-! ## Runs -/

theorem exec_pointsBack {spi : SpiDevice} (h : PointsBack spi) (c : Call)
    (hc : ∀ p, c = .probe p → spi.drvdata = none) : PointsBack (exec spi c).1 := by
  cases c with
  | probe p =>
    have hnone := hc p rfl
    show PointsBack (probed spi p).1
    cases hdrv : (p.attempt spi).driver with
    | none =>
      obtain ⟨e, he⟩ := probed_refused p hnone (.inl hdrv)
      rw [he]
      exact h
    | some drv =>
      cases hr : p.setup with
      | fails e =>
        obtain ⟨e, he⟩ := probed_refused p hnone (.inr ⟨e, hr⟩)
        rw [he]
        exact h
      | ok limit =>
        rw [probed_set_up p hdrv hr]
        cases p.opsResult with
        | error e => exact fun dev hdev => by cases hdev
        | ok u =>
          intro dev hdev
          obtain rfl := Option.some.inj hdev
          rfl
  | setSpeed hz r =>
    show PointsBack (setSpeed spi hz r).1
    unfold setSpeed
    cases hdev : spi.drvdata with
    | none => exact h
    | some dev =>
      have hself := h dev hdev
      by_cases hcheck : (dev.spi.isNone || hz == 0) = true
      · simp only [hcheck, if_true]
        exact h
      · simp only [Bool.not_eq_true] at hcheck
        simp only [hcheck, Bool.false_eq_true, if_false]
        exact pointsBack_setup { spi.settings with maxSpeedHz := hz } _ hself
  | setMode mode r =>
    show PointsBack (setMode spi mode r).1
    unfold setMode
    cases hdev : spi.drvdata with
    | none => exact h
    | some dev =>
      have hself := h dev hdev
      simp only [Option.isNone_eq_false_iff.mpr hself, Bool.false_eq_true, if_false]
      exact pointsBack_setup { spi.settings with mode := mode.toUInt32 } _ hself

/-- What holds between the calls of a harmless run. -/
structure Invariant (w : World) : Prop where
  inStep : AllInStep w.spi
  back : PointsBack w.spi
  settled : Settled w

theorem invariant_unbound (spi : SpiDevice) : Invariant (.unbound spi) :=
  ⟨fun _ h => (by cases h), fun _ h => (by cases h), fun _ _ h => (by cases h)⟩

theorem exec_settled_iff {w : World} (hi : Invariant w) (c : Call)
    (hc : ∀ p, c = .probe p → w.spi.drvdata = none) :
    SettledAfter w.spi (exec w.spi c).1 (exec w.spi c).2 ↔ c.Harmless w.spi := by
  cases c with
  | probe p => exact probed_settled_iff p (hc p rfl)
  | setSpeed hz r => exact setSpeed_settled_iff hi.inStep hi.back hz r
  | setMode mode r => exact setMode_settled_iff hi.inStep hi.back mode r

/-- A device that is bound is not probed; any other call is made. -/
theorem step_cases (w : World) (c : Call) :
    (step w c = none ∧ c.Harmless w.spi) ∨
    ((∀ p, c = .probe p → w.spi.drvdata = none) ∧
      step w c = some ⟨(exec w.spi c).1, some (w.spi, (exec w.spi c).2)⟩) := by
  cases c with
  | probe p =>
    cases hdev : w.spi.drvdata with
    | none => exact .inr ⟨fun _ _ => rfl, by simp only [step, hdev]⟩
    | some dev =>
      refine .inl ⟨by simp only [step, hdev], fun h => ?_⟩
      rw [hdev] at h
      cases h
  | setSpeed hz r => exact .inr ⟨fun p h => (by cases h), rfl⟩
  | setMode mode r => exact .inr ⟨fun p h => (by cases h), rfl⟩

/-- The promise is kept after every call of a run just when all its calls are harmless. -/
theorem settled_iff_harmless (spi : SpiDevice) (calls : List Call) :
    Throughout step Settled (.unbound spi) calls ↔
      Along step (fun w c => c.Harmless w.spi) (.unbound spi) calls := by
  refine throughout_iff_along (I := Invariant) (D := fun _ _ => True) (fun w hi => hi.settled) ?_ ?_
    calls _ (invariant_unbound spi) (along_true calls _)
  · intro w c w' hi _ hharmless hw
    obtain ⟨hnone, -⟩ | ⟨hc, hsome⟩ := step_cases w c
    · rw [hnone] at hw
      cases hw
    · obtain rfl := Option.some.inj (hsome.symm.trans hw)
      have hsettled := (exec_settled_iff hi c hc).mpr hharmless
      refine ⟨hsettled.inStep hi.inStep, exec_pointsBack hi.back c hc, ?_⟩
      intro before ret hlast
      cases hlast
      exact hsettled
  · intro w c hi _ hbad
    obtain ⟨-, hharmless⟩ | ⟨hc, hsome⟩ := step_cases w c
    · exact absurd hharmless hbad
    · refine ⟨_, hsome, fun hsettled => hbad ?_⟩
      exact (exec_settled_iff hi c hc).mp (hsettled _ _ rfl)

/-! ## A controller with a limit -/

def slowDevice : SpiDevice := ⟨0, 0, 0, ⟨1000000, 0, 8⟩, none⟩

/-- A probe that succeeds, on a controller with a limit of 25 MHz. -/
def plainProbe : ProbeCall where
  fromId := some ⟨"nv_spi_demo", some ⟨true, true⟩, 0⟩
  fromDev := none
  kzalloc := true
  setup := .ok 25000000
  priv := none
  opsResult := .ok ()
  noSkip := by
    intro drv h
    obtain rfl := Option.some.inj h
    rfl

/-- 50 MHz are asked for and 25 MHz granted: the context keeps 50 MHz. -/
theorem cached_above_limit :
    ¬ ∀ (spi : SpiDevice) (calls : List Call), Throughout step Settled (.unbound spi) calls := by
  intro h
  have hrun := ((h slowDevice [.probe plainProbe, .setSpeed 50000000 (.ok 25000000)]).2 _ rfl).2 _
    rfl
  obtain ⟨dev, hdev, hspeed, -⟩ := (hrun _ _ rfl).success rfl
  obtain rfl := Option.some.inj hdev
  exact absurd hspeed (by decide)

end LinuxDriverFramework.NvSpi
