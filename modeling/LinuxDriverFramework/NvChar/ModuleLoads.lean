import LinuxDriverFramework.Foundations.Runs
import LinuxDriverFramework.NvChar.DevmRegions
import LinuxDriverFramework.NvChar.OpenCount
import LinuxDriverFramework.NvChar.PollThreads

/-! # Loading and unloading the example modules

The init and exit functions of `nv_char_echo`, `nv_char_demo`, `nv_char_selftest` and
`nv_char_misc_echo`, each over the registration functions of `nv_char.c`.

* `Mod`, `Loads`: the four modules, and the system with the buffers that they have allocated.
* `echoInit` .. `miscEchoInit`, `echoExit` .. `miscEchoExit`.
* `step`: modules are loaded and unloaded, and their devices opened and closed, in any order. -/

namespace LinuxDriverFramework.NvChar.ModuleLoads
open Foundations
set_option autoImplicit false

inductive Mod
  | echo | demo | selftest | miscEcho
  deriving DecidableEq, Repr

/-- Stands for the addresses of the module's static variables, and for `THIS_MODULE`. -/
def Mod.id : Mod → ℕ
  | .echo => 0
  | .demo => 1
  | .selftest => 2
  | .miscEcho => 3

/-- `echo_dev`, `demo_dev`, `st_dev`, and the device inside `misc_dev`. -/
def Mod.dev : Mod → DevId
  | .miscEcho => .misc Mod.miscEcho.id
  | m => .cdev m.id

structure Loads where
  w : World
  /-- the modules whose `kzalloc` has not been undone -/
  bufs : Finset Mod
  loaded : Finset Mod

/-- What a module with a cdev fills in. -/
structure CdevValues where
  drvName : String
  devMode : ℕ
  devName : String
  ops : Option Ops

def readWrite : Option Ops := some fun
  | .read | .write => true
  | _ => false

def echoValues : CdevValues := ⟨"nv_char_echo", 0o660, "nv_echo", readWrite⟩

def demoValues (configCompat : Bool) : CdevValues :=
  ⟨"nv_char_demo", 0o666, "nv_demo", PollWakeups.demoOps configCompat⟩

/-- The mode is left as it was in the static variable. -/
def selftestValues : CdevValues :=
  ⟨"nv_char_selftest", 0, "nv_selftest", some fun | .read => true | _ => false⟩

def drvZero : NvCharDriver where
  name := none
  owner := none
  count := 0
  major := 0
  devt := 0
  cls := .null
  devices := none
  tableMem := .own
  devMode := 0
  devmDev := none
  devmManaged := false

structure InitOutcomes where
  kzalloc : Bool
  driver : RegisterOutcomes
  device : DeviceOutcomes
  misc : MiscOutcomes

/-! ## The init functions -/

def fillDriver (m : Mod) (v : CdevValues) (w : World) : World :=
  w.modDrv m.id fun d =>
    { d with name := some v.drvName, owner := some m.id, count := 1, devMode := v.devMode }

def deviceArgs (m : Mod) (v : CdevValues) : DeviceArgs :=
  ⟨some m.id, some m.id, 0, some v.devName, v.ops, some m.id⟩

/-- `nv_char_driver_register`, then `nv_char_device_register`; if that fails the driver is
unregistered. -/
def registerBoth (m : Mod) (v : CdevValues) (w : World) (o : InitOutcomes) : World × Ret :=
  match driverRegister (fillDriver m v w) (some m.id) o.driver with
  | (w, .error e) => (w, .error e)
  | (w, .ok ()) =>
    match deviceRegisterParent w (deviceArgs m v) o.device with
    | (w, .error e) => (driverUnregister w (some m.id), .error e)
    | (w, .ok ()) => (w, .ok ())

/-- The init function of a module with a buffer. -/
def bufferInit (m : Mod) (v : CdevValues) (s : Loads) (o : InitOutcomes) : Loads × Ret :=
  if !o.kzalloc then (s, .error .ENOMEM)
  else
    match registerBoth m v s.w o with
    | (w, .error e) => ({ s with w := w, bufs := (insert m s.bufs).erase m }, .error e)
    | (w, .ok ()) => ({ s with w := w, bufs := insert m s.bufs }, .ok ())

def echoInit (s : Loads) (o : InitOutcomes) : Loads × Ret := bufferInit .echo echoValues s o

def demoInit (configCompat : Bool) (s : Loads) (o : InitOutcomes) : Loads × Ret :=
  bufferInit .demo (demoValues configCompat) s o

def selftestInit (s : Loads) (o : InitOutcomes) : Loads × Ret :=
  match registerBoth .selftest selftestValues s.w o with
  | (w, .error e) => ({ s with w := w }, .error e)
  | (w, .ok ()) =>
    let devt := (w.dev Mod.selftest.dev).devt
    if LinuxDriverFramework.major devt = 0 ∧ minor devt = 0 then
      let w := deviceUnregister w Mod.selftest.dev
      ({ s with w := driverUnregister w (some Mod.selftest.id) }, .error .EINVAL)
    else ({ s with w := w }, .ok ())

def miscArgs : MiscArgs :=
  ⟨some Mod.miscEcho.id, some "nv_misc", readWrite, some Mod.miscEcho.id, some Mod.miscEcho.id⟩

def miscEchoInit (s : Loads) (o : InitOutcomes) : Loads × Ret :=
  if !o.kzalloc then (s, .error .ENOMEM)
  else
    match miscRegister s.w miscArgs o.misc with
    | (w, .error e) => ({ s with w := w, bufs := (insert .miscEcho s.bufs).erase .miscEcho }, .error e)
    | (w, .ok ()) => ({ s with w := w, bufs := insert .miscEcho s.bufs }, .ok ())

/-! ## The exit functions -/

def unregisterBoth (m : Mod) (w : World) : World :=
  driverUnregister (deviceUnregister w m.dev) (some m.id)

def bufferExit (m : Mod) (s : Loads) : Loads :=
  { s with w := unregisterBoth m s.w, bufs := s.bufs.erase m }

def echoExit (s : Loads) : Loads := bufferExit .echo s

def demoExit (s : Loads) : Loads := bufferExit .demo s

def selftestExit (s : Loads) : Loads := { s with w := unregisterBoth .selftest s.w }

def miscEchoExit (s : Loads) : Loads :=
  { s with w := miscUnregister s.w Mod.miscEcho.id, bufs := s.bufs.erase .miscEcho }

/-! ## The module loader -/

def moduleInit (configCompat : Bool) : Mod → Loads → InitOutcomes → Loads × Ret
  | .echo => echoInit
  | .demo => demoInit configCompat
  | .selftest => selftestInit
  | .miscEcho => miscEchoInit

def moduleExit : Mod → Loads → Loads
  | .echo => echoExit
  | .demo => demoExit
  | .selftest => selftestExit
  | .miscEcho => miscEchoExit

/-- The static variables of a module as they are loaded. -/
def image (m : Mod) (w : World) : World :=
  { (w.modDrv m.id fun _ => drvZero).modDev m.dev fun _ => .zero with
    miscRegistered := match m with
      | .miscEcho => Function.update w.miscRegistered m.id false
      | _ => w.miscRegistered }

/-- A path leads to the device. -/
def Loads.present (s : Loads) : Mod → Bool
  | .miscEcho => s.w.miscRegistered Mod.miscEcho.id
  | m => decide (m.dev ∈ s.w.k.cdevs)

inductive Label
  | insmod (m : Mod) (o : InitOutcomes)
  | rmmod (m : Mod)
  | openDev (m : Mod) (o : OpenOutcomes)
  | closeFile (f : File) (opsRelease : Ret)

/-- A module whose init function fails is not loaded; one with references cannot be unloaded. -/
def step (configCompat : Bool) (s : Loads) : Label → Option Loads
  | .insmod m o =>
    if m ∈ s.loaded then none
    else
      match moduleInit configCompat m { s with w := image m s.w } o with
      | (s, .error _) => some s
      | (s, .ok ()) => some { s with loaded := insert m s.loaded }
  | .rmmod m =>
    if m ∈ s.loaded ∧ s.w.k.refs m.id = 0 then
      let s := moduleExit m s
      some { s with loaded := s.loaded.erase m }
    else none
  | .openDev m o => if s.present m then some { s with w := (charOpen s.w m.dev o).1 } else none
  | .closeFile f r =>
    if f ∈ s.w.files then some { s with w := (charRelease s.w f r).1 } else none

/-! ## The system at the start -/

/-- What the rest of the kernel has: number regions, classes and class devices. -/
structure Surroundings where
  regions : List Region
  classes : List ClassObj
  nextClass : ℕ
  nodes : Finset (ℕ × ℕ)
  packed : Packed Region.span regions
  below : ∀ c ∈ classes, c.id < nextClass
  distinct : classes.Pairwise fun c c' => c.id ≠ c'.id
  nodesBelow : ∀ n ∈ nodes, n.1 < nextClass

def start (e : Surroundings) : Loads where
  w :=
    { drv := fun _ => drvZero
      dev := fun _ => .zero
      miscRegistered := fun _ => false
      k :=
        { regions := e.regions
          classes := e.classes
          nextClass := e.nextClass
          cdevs := ∅
          nodes := e.nodes
          devm := fun _ => []
          refs := fun _ => 0
          calls := [] }
      dfs := ⟨none, 0, 0, ∅⟩
      nextDr := 0
      files := []
      holders := []
      strays := [] }
  bufs := ∅
  loaded := ∅

end LinuxDriverFramework.NvChar.ModuleLoads
