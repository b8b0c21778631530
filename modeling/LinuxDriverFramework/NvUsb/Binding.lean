import LinuxDriverFramework.Binding.Driver
import LinuxDriverFramework.NvUsb.Endpoints

/-! # `nv_usb_probe` and `nv_usb_disconnect`

The exit after a failed `ops->probe` takes the driver-data pointer back; the one after a failed
`nv_usb_select_altsetting` does not.

* `Context`, `BusIntf`: the `nv_usb_dev`, and the interface on the bus that refers to it.
* `probe`, `disconnect`: the functions of `nv_usb.c`.
* `leaks`: the attempts that take the exit without it. -/

namespace LinuxDriverFramework.NvUsb
open Foundations Binding
set_option autoImplicit false

/-- The bit of `NV_USB_FLAG_SKIP_ALTSETTING`. -/
def flagSkipAltsetting : ℕ := 0

/-- The bit of `NV_USB_FLAG_ENABLE_AUTOSUSPEND`. -/
def flagEnableAutosuspend : ℕ := 1

/-- `struct nv_usb_dev`; `usb` holds its interface, its endpoints and its alternate setting. -/
structure Context where
  usb : World
  driver : BusDriver
  priv : Option ℕ
  autosuspendEnabled : Bool

/-- An interface on the bus; `intfdata` is what the driver-data pointer refers to, `autosuspend`
whether the device may be suspended. -/
structure BusIntf where
  intf : UsbInterface
  udev : ℕ
  intfdata : Option Context
  autosuspend : Bool

/-- The pointer refers to `dev`, which may have changed the setting of its interface. -/
def BusIntf.refer (b : BusIntf) (dev : Context) : BusIntf :=
  { b with intf := dev.usb.intf.getD b.intf, intfdata := some dev }

/-- `nv_usb_probe` from the new context on; `outcomes` is that of the request on the bus that
`usb_set_interface` makes. -/
def probeContext (b : BusIntf) (a : Attempt Context (Option Errno)) (drv : BusDriver) :
    BusIntf × Ret :=
  let dev : Context := ⟨.probed b.intf b.udev, drv, none, false⟩
  let b := b.refer dev
  match
    if drv.hasFlag flagSkipAltsetting then (dev.usb, .ok ())
    else selectAltsetting dev.usb 0 a.outcomes with
  | (usb, .error e) => (b.refer { dev with usb := usb }, .error e)
  | (usb, .ok ()) =>
    let dev := { dev with usb := usb }
    let (b, dev) :=
      if drv.hasFlag flagEnableAutosuspend then
        ({ b with autosuspend := true }, { dev with autosuspendEnabled := true })
      else (b, dev)
    let dev := a.opsProbe dev
    let b := b.refer dev
    match a.opsResult with
    | .error e =>
      let b := if dev.autosuspendEnabled then { b with autosuspend := false } else b
      ({ b with intfdata := none }, .error e)
    | .ok () => (b, .ok ())

def probe (b : BusIntf) (a : Attempt Context (Option Errno)) : BusIntf × Ret :=
  a.probe b (probeContext b a)

def disconnect (b : BusIntf) (a : Removal Context) : BusIntf :=
  match b.intfdata with
  | none => b
  | some dev =>
    let dev := if removing a.fromDev then a.opsRemove dev else dev
    let b := b.refer dev
    let b := if dev.autosuspendEnabled then { b with autosuspend := false } else b
    { b with intfdata := none }

/-! ## The driver-data pointer -/

def binding : Binding BusIntf (Attempt Context (Option Errno)) (Removal Context) Errno where
  probe := probe
  remove := disconnect
  held b := b.intfdata.isSome

/-- Setting 0 is not current, and the interface has none or the request for it fails. -/
def UsbInterface.selectFails (i : UsbInterface) (outcome : Option Errno) : Bool :=
  i.cur.bAlternateSetting != 0 &&
    (!(i.altsettings.any fun alt => alt.bAlternateSetting == 0) || outcome.isSome)

/-- The driver has the setting selected, which fails. -/
def selectExit (b : BusIntf) (a : Attempt Context (Option Errno)) (drv : BusDriver) : Bool :=
  !drv.hasFlag flagSkipAltsetting && b.intf.selectFails a.outcomes

def leaks (b : BusIntf) (a : Attempt Context (Option Errno)) : Bool := a.driver.any (selectExit b a)

theorem setInterface_isOk (i : UsbInterface) (outcome : Option Errno) :
    (i.setInterface 0 outcome).2.isOk =
      ((i.altsettings.any fun alt => alt.bAlternateSetting == 0) && outcome.isNone) := by
  have hany : (i.altsettings.any fun alt => alt.bAlternateSetting == 0) =
      (i.altsettings.find? fun alt => (alt.bAlternateSetting : ℤ) == 0).isSome := by
    rw [List.isSome_find?]
    exact congrArg i.altsettings.any (funext fun alt => Bool.eq_iff_iff.mpr (by simp))
  rw [hany]
  unfold UsbInterface.setInterface
  split
  · rename_i h
    rw [h]
    rfl
  · rename_i alt h
    have hfound := congrArg Option.isSome h
    cases outcome <;> simp only [hfound] <;> rfl

theorem select_isOk (i : UsbInterface) (udev : ℕ) (outcome : Option Errno) :
    (selectAltsetting (.probed i udev) 0 outcome).2.isOk = !i.selectFails outcome := by
  have hset := setInterface_isOk i outcome
  by_cases hcur : i.cur.bAlternateSetting = 0
  · simp [selectAltsetting, World.probed, UsbInterface.selectFails, hcur, Except.isOk, Except.toBool]
  · have hbne : (i.cur.bAlternateSetting != 0) = true := bne_iff_ne.mpr hcur
    have hfails : (!i.selectFails outcome) = (i.setInterface 0 outcome).2.isOk := by
      rw [hset, UsbInterface.selectFails, hbne, Bool.true_and, Bool.not_or, Bool.not_not,
        Option.not_isSome]
    rw [hfails]
    simp only [selectAltsetting, World.probed, Int.natCast_eq_zero, hcur, if_false]
    split
    · rename_i heq
      rw [heq]
    · rename_i heq
      rw [heq]

theorem held_disconnect (b : BusIntf) (a : Removal Context) :
    binding.held (disconnect b a) = false := by
  unfold disconnect
  split
  · rename_i h
    simp [binding, h]
  · rfl

section Context

variable {b : BusIntf} {a : Attempt Context (Option Errno)} {drv : BusDriver}

/-- The exit without a setting leaves the pointer. -/
theorem probe_selectExit (hs : selectExit b a drv = true) :
    binding.held (probeContext b a drv).1 = true ∧ (probeContext b a drv).2.isOk = false := by
  obtain ⟨hflag, hfails⟩ := Bool.and_eq_true_iff.mp hs
  have hsel := select_isOk b.intf b.udev a.outcomes
  rw [hfails] at hsel
  rw [Bool.not_eq_true'] at hflag
  simp only [binding, probeContext, hflag, Bool.false_eq_true, if_false]
  split
  · exact ⟨rfl, rfl⟩
  · rename_i heq
    rw [heq] at hsel
    cases hsel

/-- Past the setting the pointer stays set just when the driver accepts the device. -/
theorem probe_past_select (hs : selectExit b a drv = false) :
    binding.held (probeContext b a drv).1 = (probeContext b a drv).2.isOk := by
  have hsel := select_isOk b.intf b.udev a.outcomes
  simp only [binding, probeContext]
  split
  · rename_i usb e heq
    cases hflag : drv.hasFlag flagSkipAltsetting with
    | true => simp [hflag] at heq
    | false =>
      simp only [hflag, Bool.false_eq_true, if_false] at heq
      rw [selectExit, hflag, Bool.not_false, Bool.true_and] at hs
      rw [heq, hs] at hsel
      cases hsel
  · cases a.opsResult with
    | error e => rfl
    | ok _ => rfl

end Context

theorem leaks_exactly : binding.LeaksExactly leaks := by
  apply leaksExactly_of (fun _ _ => rfl) _ _ held_disconnect
  · intro b a drv hr
    cases hs : selectExit b a drv with
    | true => exact (probe_selectExit hs).1
    | false => exact (probe_past_select hs).trans hr
  · intro b a drv hr
    cases hs : selectExit b a drv with
    | true => exact absurd ((probe_selectExit hs).2.symm.trans hr) Bool.false_ne_true
    | false => rfl

end LinuxDriverFramework.NvUsb
