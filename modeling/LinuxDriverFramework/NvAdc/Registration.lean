import LinuxDriverFramework.Foundations.Custody
import LinuxDriverFramework.Foundations.Runs
import LinuxDriverFramework.Kernel.Base

/-! # `nv_adc`: registering the `iio_dev`

`nv_adc_register` and `nv_adc_unregister` of `nv_adc.c`, the transition system of their runs, and
who holds which `iio_dev` in it.

* `NvAdcDev`: `struct nv_adc_dev`.
* `IioDev`: what the framework writes into an `iio_dev`. -/

namespace LinuxDriverFramework.NvAdc
open Foundations
set_option autoImplicit false

/-- The members of `struct nv_adc_ops`. -/
inductive Callback
  | readRaw | writeRaw
  deriving DecidableEq, Repr

abbrev Ops := Callback → Bool

structure NvAdcDev where
  indioDev : Option ℕ
  ops : Option Ops
  priv : Option ℕ
  registered : Bool

structure IioDev where
  /-- `iio_priv(indio)->adev` -/
  adev : ℕ
  parent : ℕ
  name : String
  channels : ℕ
  numChannels : ℕ
  /-- between `iio_device_register` and `iio_device_unregister` -/
  visible : Bool
  deriving DecidableEq, Repr

inductive KCall
  | iioDeviceAlloc (n : ℕ)
  | iioDeviceRegister (n : ℕ)
  | iioDeviceUnregister (n : ℕ) (live : Bool)
  | iioDeviceFree (n : ℕ) (live : Bool)
  deriving DecidableEq, Repr

structure World where
  dev : ℕ → NvAdcDev
  indios : ℕ → Option IioDev
  nextIndio : ℕ
  calls : List KCall

@[simps] def World.modDev (w : World) (x : ℕ) (f : NvAdcDev → NvAdcDev) : World :=
  { w with dev := Function.update w.dev x (f (w.dev x)) }

/-! ## Kernel functions -/

/-- `iio_device_alloc` and the assignments to the new `iio_dev`. -/
@[simps] def World.iioDeviceAlloc (w : World) (d : IioDev) : World :=
  { w with
    indios := Function.update w.indios w.nextIndio (some d)
    nextIndio := w.nextIndio + 1
    calls := .iioDeviceAlloc w.nextIndio :: w.calls }

@[simps] def World.iioDeviceRegister (w : World) (n : ℕ) : World :=
  { w with
    indios := Function.update w.indios n ((w.indios n).map fun d => { d with visible := true })
    calls := .iioDeviceRegister n :: w.calls }

@[simps] def World.iioDeviceUnregister (w : World) (n : ℕ) : World :=
  { w with
    indios := Function.update w.indios n ((w.indios n).map fun d => { d with visible := false })
    calls := .iioDeviceUnregister n (w.indios n).isSome :: w.calls }

@[simps] def World.iioDeviceFree (w : World) (n : ℕ) : World :=
  { w with
    indios := Function.update w.indios n none
    calls := .iioDeviceFree n (w.indios n).isSome :: w.calls }

/-! ## `nv_adc.c` -/

structure Args where
  parent : Option ℕ
  adev : Option ℕ
  name : Option String
  channels : Option ℕ
  numChannels : ℕ

structure Outcomes where
  iioDeviceAlloc : Bool
  iioDeviceRegister : Option Errno

/-- From `iio_device_alloc` on. -/
def registerChecked (w : World) (x : ℕ) (d : IioDev) (o : Outcomes) : World × Ret :=
  if !o.iioDeviceAlloc then (w, .error .ENOMEM)
  else
    let n := w.nextIndio
    let w := (w.iioDeviceAlloc d).modDev x fun d => { d with indioDev := some n }
    match o.iioDeviceRegister with
    | some e => ((w.iioDeviceFree n).modDev x fun d => { d with indioDev := none }, .error e)
    | none => ((w.iioDeviceRegister n).modDev x fun d => { d with registered := true }, .ok ())

def register (w : World) (a : Args) (o : Outcomes) : World × Ret :=
  match a.parent, a.adev, a.name, a.channels with
  | some parent, some x, some name, some channels =>
    if a.numChannels = 0 then (w, .error .EINVAL)
    else
      match (w.dev x).ops with
      | none => (w, .error .EINVAL)
      | some ops =>
        if ops .readRaw = false then (w, .error .EINVAL)
        else if (w.dev x).registered then (w, .error .EBUSY)
        else
          registerChecked w x
            { adev := x
              parent := parent
              name := name
              channels := channels
              numChannels := a.numChannels
              visible := false } o
  | _, _, _, _ => (w, .error .EINVAL)

def unregister (w : World) (dev : Option ℕ) : World :=
  match dev with
  | none => w
  | some x =>
    if (w.dev x).registered then
      match (w.dev x).indioDev with
      | none => w
      | some n =>
        ((w.iioDeviceUnregister n).iioDeviceFree n).modDev x fun d =>
          { d with indioDev := none, registered := false }
    else w

/-! ## Runs -/

inductive Call
  | register (a : Args) (o : Outcomes)
  | unregister (dev : Option ℕ)

def exec (w : World) : Call → World × Ret
  | .register a o => register w a o
  | .unregister dev => (unregister w dev, .ok ())

def step (w : World) (c : Call) : Option World := some (exec w c).1

/-- What a module fills in before it registers a device. -/
structure DevConfig where
  ops : Option Ops
  priv : Option ℕ

def init (cfg : ℕ → DevConfig) : World where
  dev := fun x =>
    { indioDev := none, ops := (cfg x).ops, priv := (cfg x).priv, registered := false }
  indios := fun _ => none
  nextIndio := 0
  calls := []

/-! ## Who holds which `iio_dev` -/

/-- `iio_device_free` gives an `iio_dev` back; it and `iio_device_unregister` need one that is
there. -/
def reading : Reading NvAdcDev KCall where
  pointer d := .ofOption d.indioDev
  mark d := d.registered
  gives
    | .iioDeviceFree m _, n => n = m
    | _, _ => false
  misuse
    | .iioDeviceUnregister _ live => !live
    | .iioDeviceFree _ live => !live
    | _ => false

def custody (w : World) : Custody ℕ := reading.custody w.dev w.indios w.nextIndio w.calls

theorem custody_modDev (w : World) (x : ℕ) (f : NvAdcDev → NvAdcDev) :
    custody (w.modDev x f) =
      (custody w).place x (.ofOption (f (w.dev x)).indioDev) (f (w.dev x)).registered :=
  reading.custody_update w.dev w.indios w.nextIndio w.calls x (f (w.dev x))

theorem custody_iioDeviceAlloc (w : World) (d : IioDev) :
    custody (w.iioDeviceAlloc d) = (custody w).issue :=
  (Reading.custody_skip _ _ _ _ (fun _ => rfl) rfl).trans
    (reading.custody_issue w.dev w.indios w.nextIndio w.calls d)

theorem custody_iioDeviceRegister (w : World) (n : ℕ) :
    custody (w.iioDeviceRegister n) = custody w :=
  (Reading.custody_skip _ _ _ _ (fun _ => rfl) rfl).trans
    (reading.custody_modify w.dev w.indios w.nextIndio w.calls n _)

theorem custody_iioDeviceUnregister (w : World) (n : ℕ) :
    custody (w.iioDeviceUnregister n) = (custody w).use n :=
  (reading.custody_modify _ _ _ _ n _).trans
    (Reading.custody_use w.dev w.indios w.nextIndio w.calls (fun _ => rfl) rfl)

theorem custody_iioDeviceFree (w : World) (n : ℕ) :
    custody (w.iioDeviceFree n) = (custody w).release n :=
  Reading.custody_release w.dev w.indios w.nextIndio w.calls (fun _ => rfl) rfl

theorem sound_registerChecked {w : World} {x : ℕ} (h : (custody w).Sound)
    (hx : (w.dev x).registered = false) (d : IioDev) (o : Outcomes) :
    (custody (registerChecked w x d o).1).Sound := by
  unfold registerChecked
  cases o.iioDeviceAlloc with
  | false => exact h
  | true =>
    cases o.iioDeviceRegister with
    | some e =>
      simp only [Bool.not_true, Bool.false_eq_true, if_false]
      rw [custody_modDev, custody_iioDeviceFree, custody_modDev, custody_iioDeviceAlloc,
        Custody.release_place, Custody.place_place]
      simp only [World.modDev_dev, World.iioDeviceFree_dev, World.iioDeviceAlloc_dev,
        Function.update_self, hx]
      exact h.attempt hx
    | none =>
      simp only [Bool.not_true, Bool.false_eq_true, if_false]
      rw [custody_modDev, custody_iioDeviceRegister, custody_modDev, custody_iioDeviceAlloc,
        Custody.place_place]
      simp only [World.modDev_dev, World.iioDeviceRegister_dev, World.iioDeviceAlloc_dev,
        Function.update_self]
      exact h.take hx

theorem sound_register {w : World} (h : (custody w).Sound) (a : Args) (o : Outcomes) :
    (custody (register w a o).1).Sound := by
  unfold register
  split
  · rename_i x _ _ _ _ _ _
    split
    · exact h
    · split
      · exact h
      · split
        · exact h
        · cases hx : (w.dev x).registered with
          | true => exact h
          | false => exact sound_registerChecked h hx _ o
  · exact h

theorem sound_unregister {w : World} (h : (custody w).Sound) (dev : Option ℕ) :
    (custody (unregister w dev)).Sound := by
  cases dev with
  | none => exact h
  | some x =>
    cases hx : (w.dev x).registered with
    | false => simpa [unregister, hx] using h
    | true =>
      obtain ⟨n, hn, -⟩ := h.held_of_marked hx
      have hptr : (w.dev x).indioDev = some n := Pointer.ofOption_eq_object.mp hn
      simp only [unregister, hx, if_true, hptr]
      rw [custody_modDev, custody_iioDeviceFree, custody_iioDeviceUnregister]
      exact h.drop hn

theorem sound_step {w w' : World} {c : Call} (h : (custody w).Sound) (hs : step w c = some w') :
    (custody w').Sound := by
  obtain rfl : (exec w c).1 = w' := Option.some.inj hs
  cases c with
  | register a o => exact sound_register h a o
  | unregister dev => exact sound_unregister h dev

theorem sound_throughout (cfg : ℕ → DevConfig) (calls : List Call) :
    Throughout step (fun w => (custody w).Sound) (init cfg) calls :=
  throughout_of_along (fun _ h => h) (fun _ _ _ h _ hs => sound_step h hs) calls (init cfg)
    (Custody.sound_initial rfl (fun _ => rfl) (fun _ => rfl) (fun _ => rfl) (fun _ => rfl) rfl)
    (along_true calls (init cfg))

end LinuxDriverFramework.NvAdc
