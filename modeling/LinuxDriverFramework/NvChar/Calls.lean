import LinuxDriverFramework.Foundations.Runs
import LinuxDriverFramework.NvChar.Driver

/-! # Runs of framework calls, one call at a time

`Call` is a call with the outcomes of its kernel steps, `exec` its effect and result, and `step`
the transition of the registration world: a call is always possible, only a release needs an open
descriptor. `init` is the world of a module that has filled in its driver structures and called
nothing yet. Beside what the source computes, `step` keeps the list of outstanding registrations. -/

namespace LinuxDriverFramework.NvChar
open Foundations
set_option autoImplicit false

inductive Call
  | driverRegister (drv : Option DrvId) (o : RegisterOutcomes)
  | driverUnregister (drv : Option DrvId)
  | driverRegisterDevm (dev : Option DeviceId) (drv : Option DrvId) (o : DevmOutcomes)
      (others : Others)
  | driverUnregisterDevm (drv : Option DrvId)
  | devmDetach (dev : DeviceId)
  | deviceRegister (a : DeviceArgs) (o : DeviceOutcomes)
  | deviceUnregister (dev : Option ℕ)
  | charOpen (x : DevId) (o : OpenOutcomes)
  | charRelease (f : File) (opsRelease : Ret)
  | miscRegister (a : MiscArgs) (o : MiscOutcomes)
  | miscUnregister (misc : Option ℕ)
  | otherAcquire (a : Acquisition)

/-- The holder a call adds when it returns 0. -/
def Call.acquires : Call → Option Holder
  | .driverRegister (some id) _ => some (.driver id)
  | .driverRegisterDevm _ (some id) _ _ => some (.devm id)
  | .miscRegister a _ => a.misc.map .misc
  | _ => none

def Call.drops : Call → Option Holder
  | .driverUnregister (some id) => some (.driver id)
  | .driverUnregisterDevm (some id) => some (.devm id)
  | .miscUnregister (some n) => some (.misc n)
  | _ => none

def exec (w : World) : Call → World × Ret
  | .driverRegister drv o => driverRegister w drv o
  | .driverUnregister drv => (driverUnregister w drv, .ok ())
  | .driverRegisterDevm dev drv o others => driverRegisterDevm w dev drv o others
  | .driverUnregisterDevm drv => (driverUnregisterDevm w drv, .ok ())
  | .devmDetach dev => (devmDetach w dev, .ok ())
  | .deviceRegister a o => deviceRegisterParent w a o
  | .deviceUnregister (some n) => (deviceUnregister w (.cdev n), .ok ())
  | .deviceUnregister none => (w, .ok ())
  | .charOpen x o => charOpen w x o
  | .charRelease f r => charRelease w f r
  | .miscRegister a o => miscRegister w a o
  | .miscUnregister (some n) => (miscUnregister w n, .ok ())
  | .miscUnregister none => (w, .ok ())
  | .otherAcquire a => (w.interfere [a], .ok ())

/-- The outstanding registrations after a call with result `r`. -/
def holdersAfter (hs : List Holder) (c : Call) (r : Ret) : List Holder :=
  match c.acquires, r, c.drops with
  | some h, .ok (), _ => h :: hs
  | _, _, some h => hs.erase h
  | _, _, none => hs

def call (w : World) (c : Call) : World :=
  let (w', r) := exec w c
  { w' with holders := holdersAfter w.holders c r }

def step (w : World) (c : Call) : Option World :=
  match c with
  | .charRelease f _ => if f ∈ w.files then some (call w c) else none
  | _ => some (call w c)

/-- What a module fills in before it registers a driver. -/
structure DriverConfig where
  name : Option String
  owner : Option Module
  count : ℕ
  major : ℕ
  devMode : ℕ

def init (cfg : DrvId → DriverConfig) : World where
  drv := fun id =>
    { name := (cfg id).name
      owner := (cfg id).owner
      count := (cfg id).count
      major := (cfg id).major
      devt := 0
      cls := .null
      devices := none
      tableMem := .own
      devMode := (cfg id).devMode
      devmDev := none
      devmManaged := false }
  dev := fun _ => NvCharDev.zero
  miscRegistered := fun _ => false
  k :=
    { regions := []
      classes := []
      nextClass := 0
      cdevs := ∅
      nodes := ∅
      devm := fun _ => []
      refs := fun _ => 0
      calls := [] }
  dfs := { root := none, refcnt := 0, nextRoot := 0, removed := ∅ }
  nextDr := 0
  files := []
  holders := []
  strays := []

theorem step_eq_some {w w' : World} {c : Call} (h : step w c = some w') : w' = call w c := by
  cases c with
  | charRelease f r =>
    simp only [step] at h
    split at h
    · exact (Option.some.inj h).symm
    · cases h
  | _ => exact (Option.some.inj h).symm

end LinuxDriverFramework.NvChar
