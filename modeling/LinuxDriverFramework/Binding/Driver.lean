import LinuxDriverFramework.Foundations.Binding
import LinuxDriverFramework.Kernel.Base

/-! # What the bus wrappers' probe functions have in common

`nv_pci`, `nv_usb`, `nv_spi`, `nv_i2c` and `nv_sdio` each embed the bus's driver structure in their
own, find it again from the id or the device, allocate a context and hand it to `ops->probe`.

* `BusDriver`: the members of the drivers that the entry points read.
* `Attempt`, `Removal`: what an entry point finds, and how its steps go.
* `Attempt.probe`: the checks and the allocation that all probe functions begin with. -/

namespace LinuxDriverFramework.Binding
set_option autoImplicit false

/-- Which of `ops->probe` and `ops->remove` (for USB `ops->disconnect`) is not NULL. -/
structure BusOps where
  probe : Bool
  remove : Bool

structure BusDriver where
  name : String
  ops : Option BusOps
  flags : ℕ

/-- `drv->flags & BIT(bit)`. -/
def BusDriver.hasFlag (drv : BusDriver) (bit : ℕ) : Bool := drv.flags.testBit bit

/-- `!drv || !drv->ops || !drv->ops->probe` fails, for the driver found through the id or, if there
is none, through the device. -/
def probing (fromId fromDev : Option BusDriver) : Option BusDriver :=
  (fromId <|> fromDev).filter fun drv => drv.ops.any BusOps.probe

/-- `drv && drv->ops && drv->ops->remove`. -/
def removing (fromDev : Option BusDriver) : Bool := fromDev.any fun drv => drv.ops.any BusOps.remove

/-- One call of a probe function, with a device that is not NULL; `C` is the context type and `O`
the outcomes of the bus's own steps. What `ops->probe` does to the context and what it returns is
free. -/
structure Attempt (C O : Type) where
  fromId : Option BusDriver
  fromDev : Option BusDriver
  kzalloc : Bool
  outcomes : O
  opsProbe : C → C
  opsResult : Ret

structure Removal (C : Type) where
  fromDev : Option BusDriver
  opsRemove : C → C

section Probe

variable {σ C O : Type}

/-- The probe functions up to `devm_kzalloc`; `body` goes on with the driver that was found. -/
def Attempt.probe (a : Attempt C O) (bus : σ) (body : BusDriver → σ × Ret) : σ × Ret :=
  match probing a.fromId a.fromDev with
  | none => (bus, .error .ENODEV)
  | some drv => if !a.kzalloc then (bus, .error .ENOMEM) else body drv

/-- The driver of an attempt that gets as far as a context. -/
def Attempt.driver (a : Attempt C O) : Option BusDriver :=
  if a.kzalloc then probing a.fromId a.fromDev else none

variable {a : Attempt C O} {bus : σ} {body : BusDriver → σ × Ret}

theorem Attempt.probe_none (h : a.driver = none) :
    (a.probe bus body).1 = bus ∧ (a.probe bus body).2.isOk = false := by
  unfold Attempt.probe
  cases hd : probing a.fromId a.fromDev with
  | none => exact ⟨rfl, rfl⟩
  | some drv =>
    cases hk : a.kzalloc with
    | true => simp [Attempt.driver, hd, hk] at h
    | false => exact ⟨rfl, rfl⟩

theorem Attempt.probe_some {drv : BusDriver} (h : a.driver = some drv) :
    a.probe bus body = body drv := by
  obtain ⟨hk, hd⟩ := Option.ite_none_right_eq_some.mp h
  simp only [Attempt.probe, hd, hk, Bool.not_true, Bool.false_eq_true, if_false]

end Probe

/-! ## Which attempts leave the pointer -/

variable {σ C O : Type} {d : Foundations.Binding σ (Attempt C O) (Removal C) Errno}

/-- An attempt without a context touches nothing; the others are judged by their exits. -/
theorem leaksExactly_of {body : σ → Attempt C O → BusDriver → σ × Ret}
    {bad : σ → Attempt C O → BusDriver → Bool} (probe : ∀ s a, d.probe s a = a.probe s (body s a))
    (refused : ∀ s a drv, (body s a drv).2.isOk = false → d.held (body s a drv).1 = bad s a drv)
    (accepted : ∀ s a drv, (body s a drv).2.isOk = true → bad s a drv = false)
    (removed : ∀ s b, d.held (d.remove s b) = false) :
    d.LeaksExactly fun s a => a.driver.any (bad s a) where
  refused s a hc hr := by
    rw [probe] at hr ⊢
    cases hd : a.driver with
    | none => rw [(Attempt.probe_none hd).1, hc, Option.any_none]
    | some drv =>
      rw [Attempt.probe_some hd] at hr ⊢
      exact refused s a drv hr
  accepted s a _ hr := by
    cases hd : a.driver with
    | none => exact Option.any_none
    | some drv =>
      rw [probe, Attempt.probe_some hd] at hr
      exact accepted s a drv hr
  removed := removed

end LinuxDriverFramework.Binding
