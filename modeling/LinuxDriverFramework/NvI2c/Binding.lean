import LinuxDriverFramework.Binding.Driver

/-! # `nv_i2c_probe` and `nv_i2c_remove` -/

namespace LinuxDriverFramework.NvI2c
open Foundations Binding
set_option autoImplicit false

/-- `struct nv_i2c_dev`, set up by `nv_i2c_probe`. -/
structure NvI2cDev where
  client : ℕ
  driver : BusDriver
  priv : Option ℕ
  adapterNr : ℕ
  addr : ℕ

/-- `struct i2c_client`; `clientdata` is what the driver-data pointer refers to. -/
structure I2cClient where
  self : ℕ
  adapterNr : ℕ
  addr : ℕ
  clientdata : Option NvI2cDev

/-- `nv_i2c_probe` from the new context on. -/
def probeContext (c : I2cClient) (a : Attempt NvI2cDev Unit) (drv : BusDriver) : I2cClient × Ret :=
  let dev : NvI2cDev := ⟨c.self, drv, none, c.adapterNr, c.addr⟩
  let c := { c with clientdata := some dev }
  let c := { c with clientdata := some (a.opsProbe dev) }
  match a.opsResult with
  | .error e => ({ c with clientdata := none }, .error e)
  | .ok () => (c, .ok ())

def probe (c : I2cClient) (a : Attempt NvI2cDev Unit) : I2cClient × Ret :=
  a.probe c (probeContext c a)

/-- `ops->remove` has its last look at the context before the pointer is cleared. -/
def remove (c : I2cClient) (a : Removal NvI2cDev) : I2cClient :=
  match c.clientdata with
  | none => c
  | some dev =>
    let c := if removing a.fromDev then { c with clientdata := some (a.opsRemove dev) } else c
    { c with clientdata := none }

def binding : Binding I2cClient (Attempt NvI2cDev Unit) (Removal NvI2cDev) Errno where
  probe := probe
  remove := remove
  held c := c.clientdata.isSome

theorem held_remove (c : I2cClient) (a : Removal NvI2cDev) : binding.held (remove c a) = false := by
  unfold remove
  split
  · rename_i h
    simp [binding, h]
  · rfl

theorem leaks_never : binding.LeaksExactly fun _ _ => false := by
  have hexits : binding.LeaksExactly fun _ a => a.driver.any fun _ => false := by
    apply leaksExactly_of (fun _ _ => rfl) _ (fun _ _ _ _ => rfl) held_remove
    intro c a drv hr
    simp only [binding, probeContext] at hr ⊢
    cases ho : a.opsResult with
    | error e => rfl
    | ok _ =>
      rw [ho] at hr
      cases hr
  simpa only [Option.any_false] using hexits

end LinuxDriverFramework.NvI2c
