import LinuxDriverFramework.Binding.Registry
import LinuxDriverFramework.NvI2c.Binding
import LinuxDriverFramework.NvPci.Binding
import LinuxDriverFramework.NvSdio.Binding
import LinuxDriverFramework.NvSpi.Binding
import LinuxDriverFramework.NvUsb.Binding

/-! # The five buses

`nv_pci`, `nv_usb`, `nv_spi`, `nv_i2c` and `nv_sdio` as wrappers of `Registry`: their checks of a
driver, the entry points they install, and their `probe` and `remove` functions on any device.

On each of them the flags, the contexts and the callbacks are sound in all runs exactly when every
match names a driver that the core knows and, if the device is taken, the one that it is offered
to, and no unregistration of a driver overlaps another one. -/

namespace LinuxDriverFramework.BusRegistries
open Binding Registry Foundations
set_option autoImplicit false

/-! ## What the wrappers have in common -/

/-- An attempt without its drivers. -/
structure Rest (C O : Type) where
  kzalloc : Bool
  outcomes : O
  opsProbe : C → C
  opsResult : Ret

def Rest.attempt {C O : Type} (r : Rest C O) (fromId fromDev : Option BusDriver) : Attempt C O :=
  ⟨fromId, fromDev, r.kzalloc, r.outcomes, r.opsProbe, r.opsResult⟩

/-- A wrapper whose `probe` begins as `Attempt.probe` does. -/
def ofAttempt {σ C O : Type} (argsOk : Driver → Bool) (entries : List Member)
    (body : σ → Attempt C O → BusDriver → σ × Ret) (remove : σ → Removal C → σ) (held : σ → Bool)
    (accepted : ∀ s a drv, (body s a drv).2.isOk = true → held (body s a drv).1 = true) :
    Wrapper where
  Dev := σ
  Rest := Rest C O
  Undo := C → C
  argsOk := argsOk
  entries := entries
  probe s fromId fromDev r := (r.attempt fromId fromDev).probe s (body s (r.attempt fromId fromDev))
  remove s fromDev opsRemove := remove s ⟨fromDev, opsRemove⟩
  held := held
  early fromId fromDev r := (r.attempt fromId fromDev).driver.isNone
  early_refused := fun _ _ _ _ h => (Attempt.probe_none (Option.isNone_iff_eq_none.mp h)).2
  accepted_held := by
    intro s fromId fromDev r hok
    cases hd : (r.attempt fromId fromDev).driver with
    | none =>
      rw [(Attempt.probe_none hd).2] at hok
      cases hok
    | some drv =>
      rw [Attempt.probe_some hd] at hok ⊢
      exact accepted s _ drv hok

/-- `drv->name`, `drv->owner`, `drv->id_table` and `drv->ops` are not NULL. -/
def hasIdTable (drv : Driver) : Bool := drv.named && drv.owner && drv.idTable && drv.ops.isSome

/-- `nv_spi_driver_register` takes a table for the device tree instead. -/
def hasSpiTable (drv : Driver) : Bool :=
  drv.named && drv.owner && drv.ops.isSome && (drv.idTable || drv.ofMatchTable)

/-! ## The wrappers -/

def pci : Wrapper :=
  ofAttempt hasIdTable [.remove, .suspend, .resume, .shutdown] NvPci.probeContext NvPci.remove
    NvPci.binding.held fun pdev a drv _ => NvPci.held_probeContext pdev a drv

def usb : Wrapper :=
  ofAttempt hasIdTable [.remove, .suspend, .resume, .resetResume, .shutdown] NvUsb.probeContext
    NvUsb.disconnect NvUsb.binding.held fun b a drv hok => by
      cases hs : NvUsb.selectExit b a drv with
      | true => exact absurd ((NvUsb.probe_selectExit hs).2.symm.trans hok) Bool.false_ne_true
      | false => exact (NvUsb.probe_past_select hs).trans hok

def spi : Wrapper :=
  ofAttempt hasSpiTable [.remove, .shutdown] NvSpi.probeContext NvSpi.remove NvSpi.binding.held
    fun x a drv hok => by
      cases hs : NvSpi.setupExit x a drv with
      | true => exact absurd ((NvSpi.probe_setupExit hs).2.symm.trans hok) Bool.false_ne_true
      | false => exact (NvSpi.probe_past_setup hs).trans hok

theorem i2c_accepted (c : NvI2c.I2cClient) (a : Attempt NvI2c.NvI2cDev Unit) (drv : BusDriver)
    (hok : (NvI2c.probeContext c a drv).2.isOk = true) :
    NvI2c.binding.held (NvI2c.probeContext c a drv).1 = true := by
  simp only [NvI2c.binding, NvI2c.probeContext] at hok ⊢
  cases ho : a.opsResult with
  | error e =>
    rw [ho] at hok
    cases hok
  | ok _ => rfl

def i2c : Wrapper :=
  ofAttempt hasIdTable [.remove, .shutdown, .alert] NvI2c.probeContext NvI2c.remove
    NvI2c.binding.held i2c_accepted

/-- What `nv_sdio_probe` finds besides the driver. `ops->probe` leaves the driver-data pointer to
the wrapper. -/
structure SdioRest where
  ops : NvSdio.Ops
  curBlksize : ℕ
  env : NvSdio.Surroundings
  keeps : ∀ op, ops.probe = some op → ∀ s,
    ((op true).exec (NvSdio.perform env) s).1.1.drvdata = s.1.drvdata

def SdioRest.attempt (r : SdioRest) (fromId fromDev : Option BusDriver) : NvSdio.Attempt :=
  ⟨(probing fromId fromDev).map fun _ => r.ops, r.curBlksize, r.env⟩

/-- No driver with a `probe`, or no memory. -/
def SdioRest.early (r : SdioRest) (fromId fromDev : Option BusDriver) : Bool :=
  ((r.attempt fromId fromDev).ops.bind NvSdio.Ops.probe).isNone || !r.env 0 .kzalloc

theorem sdio_early_refused (d : NvSdio.Data) (r : SdioRest) (fromId fromDev : Option BusDriver)
    (h : r.early fromId fromDev = true) :
    (NvSdio.binding.probe d (r.attempt fromId fromDev)).2.isOk = false := by
  simp only [NvSdio.binding, NvSdio.probe]
  cases hop : (r.attempt fromId fromDev).ops.bind NvSdio.Ops.probe with
  | none => rfl
  | some op =>
    have hz : r.env 0 .kzalloc = false := by simpa [SdioRest.early, hop] using h
    simp only [Program.exec_bind, NvSdio.call, Program.exec_request, NvSdio.perform]
    simp only [SdioRest.attempt, hz, Bool.not_false, if_true]
    rfl

theorem sdio_accepted (d : NvSdio.Data) (r : SdioRest) (fromId fromDev : Option BusDriver)
    (h : (NvSdio.binding.probe d (r.attempt fromId fromDev)).2.isOk = true) :
    NvSdio.binding.held (NvSdio.binding.probe d (r.attempt fromId fromDev)).1 = true := by
  simp only [NvSdio.binding, NvSdio.probe] at h ⊢
  cases hop : (r.attempt fromId fromDev).ops.bind NvSdio.Ops.probe with
  | none =>
    rw [hop] at h
    cases h
  | some op =>
    have hops : r.ops.probe = some op := by
      obtain ⟨ops, ho, hp⟩ := Option.bind_eq_some_iff.mp hop
      obtain ⟨drv, -, rfl⟩ := Option.map_eq_some_iff.mp ho
      exact hp
    obtain ⟨alloc, halloc⟩ : ∃ alloc : Bool,
        (NvSdio.call .kzalloc).exec (NvSdio.perform (r.attempt fromId fromDev).env) (d, 0) =
          ((d, 1), alloc) := ⟨_, rfl⟩
    simp only [hop, Program.exec_bind] at h ⊢
    rw [halloc] at h ⊢
    cases alloc with
    | false => cases h
    | true =>
      simp only [NvSdio.call, Bool.not_true, Bool.false_eq_true, if_false, Program.exec_bind,
        Program.exec_request, NvSdio.perform] at h ⊢
      -- the pointer is set before `ops->probe`, which leaves it alone
      split at h
      · cases h
      · exact r.keeps op hops _

def sdio : Wrapper where
  Dev := NvSdio.Data
  Rest := SdioRest
  Undo := NvSdio.Ops × NvSdio.Surroundings
  argsOk := hasIdTable
  entries := [.remove]
  probe d fromId fromDev r := NvSdio.binding.probe d (r.attempt fromId fromDev)
  remove d fromDev u :=
    NvSdio.binding.remove d ⟨if removing fromDev then some u.1 else none, u.2⟩
  held := NvSdio.binding.held
  early fromId fromDev r := r.early fromId fromDev
  early_refused := fun d fromId fromDev r h => sdio_early_refused d r fromId fromDev h
  accepted_held := fun d fromId fromDev r h => sdio_accepted d r fromId fromDev h

/-! ## All five -/

inductive Kind
  | pci | usb | spi | i2c | sdio
  deriving DecidableEq, Repr

def Kind.wrapper : Kind → Wrapper
  | .pci => BusRegistries.pci
  | .usb => BusRegistries.usb
  | .spi => BusRegistries.spi
  | .i2c => BusRegistries.i2c
  | .sdio => BusRegistries.sdio

/-- The match names no driver, as in the tables of the demo drivers, or the one it belongs to. -/
def Plain {W : Wrapper} {V : Type} : Label W V → Prop
  | .bind _ d id _ => id = none ∨ id = some d
  | _ => True

theorem own_of_plain {W : Wrapper} {V : Type} [DecidableEq V] (tbl : ℕ → Driver) (s : Bus W V)
    (a : Label W V) (h : Plain a) : Own tbl s a := by
  cases a with
  | bind v d id rest =>
    have hsame : id.getD d = d := by
      rcases h with rfl | rfl <;> rfl
    rintro ⟨hphase, -⟩
    rw [hsame]
    refine ⟨known_iff.mpr fun hout => ?_, fun _ => rfl⟩
    rw [hout] at hphase
    rcases hphase with h' | h' <;> cases h'
  | _ => trivial

def demoDriver : Driver where
  name := "nv_i2c_demo"
  ops := some ⟨true, true⟩
  flags := 0
  named := true
  owner := true
  idTable := true
  ofMatchTable := false
  members := fun _ => false

/-- The module is loaded, takes a client, is shut down with it and unloaded. -/
def i2cLoadUnload : List (Label Kind.i2c.wrapper Unit) :=
  [.register 7 none, .bind () 7 none ⟨true, (), id, .ok ()⟩, .attached 7, .entry () .shutdown,
    .unregister 7, .unbind () id, .detached 7]

def i2cStart : Bus Kind.i2c.wrapper Unit :=
  Bus.start (fun _ => (⟨0, 1, 0x50, none⟩ : NvI2c.I2cClient)) fun _ => none

end LinuxDriverFramework.BusRegistries
