import LinuxDriverFramework.NvChar.Device

/-! # Registering and unregistering a driver, with and without devm

`driverRegister`, `driverUnregister`, `driverRegisterDevm` and `driverUnregisterDevm` of
`nv_char.c`, and `devmDetach`, which is what the devm core does with the pending actions and the
memory of a device that is unbound or whose probe failed.

Other drivers may take free number regions at any point: `Others` lists, for each point between
two steps of `nv_char_driver_register_devm`, what they take there. -/

namespace LinuxDriverFramework.NvChar
set_option autoImplicit false

/-- `!drv->name || !drv->count || !drv->owner`. -/
def NvCharDriver.invalid (drv : NvCharDriver) : Bool :=
  drv.name.isNone || drv.count == 0 || drv.owner.isNone

def emptyTable : SlotTable := fun _ => none

/-! ## `nv_char_driver_register` -/

structure RegisterOutcomes where
  kcalloc : Bool
  region : Option Errno
  dynMajor : ℕ
  classCreate : Option Errno
  debugfsRoot : Bool

/-- `register_chrdev_region` for a static major, `alloc_chrdev_region` for major 0. -/
def Kernel.acquireRegion (k : Kernel) (by_ : RegionOwner) (major dynMajor count : ℕ)
    (fails : Option Errno) : Except Errno (Kernel × ℕ) :=
  if major ≠ 0 then
    (k.registerRegion by_ (mkdev major 0) count fails).map fun k' => (k', mkdev major 0)
  else k.allocRegion by_ dynMajor count fails

/-- `unregister_chrdev_region` with the arguments the driver's own cleanup uses. -/
def Kernel.releaseDriverRegion (k : Kernel) (id : DrvId) (drv : NvCharDriver) : Kernel :=
  if drv.major ≠ 0 then k.unregisterRegion (.driver id) (mkdev drv.major 0) drv.count
  else k.unregisterRegion (.driver id) drv.devt drv.count

/-- From `class_create` on, with the region held. -/
def driverRegisterClass (w : World) (id : DrvId) (o : RegisterOutcomes) : World × Ret :=
  match w.k.classCreate (w.drv id).name o.classCreate with
  | .error e =>
    let w := w.modDrv id fun d => { d with cls := .err e }
    let w := w.setK (w.k.releaseDriverRegion id (w.drv id))
    (w.modDrv id fun d => { d with devices := none }, .error e)
  | .ok (k, c) =>
    -- the table of `kcalloc` is kept in this branch only
    let w := (w.setK k).modDrv id fun d => { d with cls := .obj c, tableMem := .own }
    ({ w with dfs := w.dfs.init o.debugfsRoot }, .ok ())

def driverRegister (w : World) (drv : Option DrvId) (o : RegisterOutcomes) : World × Ret :=
  match drv with
  | none => (w, .error .EINVAL)
  | some id =>
    if (w.drv id).invalid then (w, .error .EINVAL)
    else if !o.kcalloc then (w.modDrv id fun d => { d with devices := none }, .error .ENOMEM)
    else
      let w := w.modDrv id fun d => { d with devices := some emptyTable }
      match w.k.acquireRegion (.driver id) (w.drv id).major o.dynMajor (w.drv id).count o.region with
      | .error e => (w.modDrv id fun d => { d with devices := none }, .error e)
      | .ok (k, devt) =>
        driverRegisterClass ((w.setK k).modDrv id fun d => { d with devt := devt }) id o

/-! ## `nv_char_driver_unregister` -/

/-- One round of the loop over `drv->devices`. What a freed table holds is taken to be as it was. -/
def unregisterSlot (id : DrvId) (w : World) (i : ℕ) : World :=
  match (w.drv id).devices with
  | some t =>
    let w := w.touchTable id
    match t i with
    | some x => deviceUnregister w x
    | none => w
  | none => w

/-- `for (i = 0; i < drv->count; i++)`. -/
def unregisterSlots (w : World) (id : DrvId) : World :=
  (List.range (w.drv id).count).foldl (unregisterSlot id) w

/-- `class_destroy` and `unregister_chrdev_region` at the end of a non-devm unregistration. -/
def Kernel.dropDriver (k : Kernel) (id : DrvId) (drv : NvCharDriver) : Kernel :=
  let k := match drv.cls with
    | .obj c => k.classDestroy c
    | _ => k
  if drv.devt ≠ 0 then k.releaseDriverRegion id drv else k

def NvCharDriver.clear (drv : NvCharDriver) : NvCharDriver :=
  { drv with cls := .null, devt := 0, devmManaged := false, devmDev := none }

/-- `if (drv->devices)`: the loop and the clearing of the table pointer. -/
def World.dropTable (w : World) (id : DrvId) : World :=
  if (w.drv id).devices.isSome then
    (unregisterSlots w id).modDrv id fun d => { d with devices := none }
  else w

def driverUnregister (w : World) (drv : Option DrvId) : World :=
  match drv with
  | none => w
  | some id =>
    let w := w.dropTable id
    let w := { w with dfs := w.dfs.exit }
    let w := if (w.drv id).devmManaged then w else w.setK (w.k.dropDriver id (w.drv id))
    w.modDrv id NvCharDriver.clear

/-! ## The devm actions -/

/-- `nv_char_devm_chrdev_release`. -/
def World.chrdevRelease (w : World) (dr : ChrdevDr) : World :=
  if dr.major ≠ 0 then w.setK (w.k.unregisterRegion (.devres dr.id) (mkdev dr.major 0) dr.count)
  else if dr.devt ≠ 0 then w.setK (w.k.unregisterRegion (.devres dr.id) dr.devt dr.count)
  else w

/-- `nv_char_devm_class_release`. -/
def World.classRelease (w : World) (id : DrvId) : World :=
  match (w.drv id).cls with
  | .obj c => (w.setK (w.k.classDestroy c)).modDrv id fun d => { d with cls := .null }
  | _ => w

def World.runAction (w : World) : DevmAction → World
  | .chrdevRelease dr => w.chrdevRelease dr
  | .classRelease id => w.classRelease id

/-- `devm_add_action(dev, ..)` when it succeeds. -/
def World.devmAddAction (w : World) (dev : DeviceId) (a : DevmAction) : World :=
  w.setK { w.k with devm := Function.update w.k.devm dev (a :: w.k.devm dev) }

/-- `devm_release_action(dev, ..)`: removes the action and runs it. -/
def World.devmReleaseAction (w : World) (dev : DeviceId) (a : DevmAction) : World :=
  (w.setK { w.k with devm := Function.update w.k.devm dev ((w.k.devm dev).erase a) }).runAction a

/-- Every pending action of `dev` runs once, the last registered first. -/
def World.runActions (w : World) (dev : DeviceId) : World :=
  let actions := w.k.devm dev
  actions.foldl World.runAction (w.setK { w.k with devm := Function.update w.k.devm dev [] })

/-- What `devm_kcalloc` has given out for `dev` is freed; no pointer to it is changed. -/
def World.freeTables (w : World) (dev : DeviceId) : World :=
  { w with drv := fun id =>
      { w.drv id with
        tableMem := if (w.drv id).tableMem = .devm dev then .freed else (w.drv id).tableMem } }

/-- The devm core unwinds `dev`. -/
def devmDetach (w : World) (dev : DeviceId) : World := (w.runActions dev).freeTables dev

/-! ## `nv_char_driver_register_devm` -/

structure DevmOutcomes where
  devmKcalloc : Bool
  devmKzalloc : Bool
  region : Option Errno
  dynMajor : ℕ
  addChrdev : Option Errno
  classCreate : Option Errno
  addClass : Option Errno
  debugfsRoot : Bool

/-- An attempt of a driver outside the framework to take a region. -/
structure Acquisition where
  holder : ℕ
  first : ℕ
  count : ℕ
  deriving DecidableEq, Repr

/-- The points at which other drivers may act. -/
inductive Point
  | beforeRegion | beforeAddChrdev | beforeClass | beforeAddClass | beforeCleanup | insideCleanup
  deriving DecidableEq, Repr

abbrev Others := Point → List Acquisition

/-- Another driver takes a region of at least one number if it is free. -/
def Kernel.otherAcquire (k : Kernel) (a : Acquisition) : Kernel :=
  if a.count = 0 then k
  else
    match k.registerRegion (.other a.holder) a.first a.count none with
    | .ok k' => k'
    | .error _ => k

def World.interfere (w : World) (l : List Acquisition) : World :=
  w.setK (l.foldl Kernel.otherAcquire w.k)

/-- The two calls both failure exits after `devm_add_action` end with. -/
def World.cleanupChrdev (w : World) (dev : DeviceId) (dr : ChrdevDr) (others : Others) : World :=
  let w := w.interfere (others .beforeCleanup)
  let w := w.devmReleaseAction dev (.chrdevRelease dr)
  let w := w.interfere (others .insideCleanup)
  w.chrdevRelease dr

/-- From `class_create` on, with the region's action in place. -/
def driverRegisterDevmClass (w : World) (dev : DeviceId) (id : DrvId) (dr : ChrdevDr)
    (o : DevmOutcomes) (others : Others) : World × Ret :=
  let w := w.interfere (others .beforeClass)
  match w.k.classCreate (w.drv id).name o.classCreate with
  | .error e =>
    let w := w.modDrv id fun d => { d with cls := .err e }
    (w.cleanupChrdev dev dr others, .error e)
  | .ok (k, c) =>
    let w := (w.setK k).modDrv id fun d => { d with cls := .obj c }
    let w := w.interfere (others .beforeAddClass)
    match o.addClass with
    | some e =>
      let w := (w.setK (w.k.classDestroy c)).modDrv id fun d => { d with cls := .null }
      (w.cleanupChrdev dev dr others, .error e)
    | none =>
      let w := w.devmAddAction dev (.classRelease id)
      ({ w with dfs := w.dfs.init o.debugfsRoot }, .ok ())

/-- From the region on, with `dr` allocated. A static major is stored even if the call fails. -/
def driverRegisterDevmRegion (w : World) (dev : DeviceId) (id : DrvId) (drId : ℕ)
    (o : DevmOutcomes) (others : Others) : World × Ret :=
  let w := w.interfere (others .beforeRegion)
  let drv := w.drv id
  match w.k.acquireRegion (.devres drId) drv.major o.dynMajor drv.count o.region with
  | .error e =>
    (w.modDrv id fun d => if d.major ≠ 0 then { d with devt := mkdev d.major 0 } else d, .error e)
  | .ok (k, devt) =>
    let w := (w.setK k).modDrv id fun d => { d with devt := devt }
    let dr : ChrdevDr := { id := drId, devt := devt, count := drv.count, major := drv.major }
    let w := w.interfere (others .beforeAddChrdev)
    match o.addChrdev with
    | some e => (w.chrdevRelease dr, .error e)
    | none => driverRegisterDevmClass (w.devmAddAction dev (.chrdevRelease dr)) dev id dr o others

def driverRegisterDevm (w : World) (dev : Option DeviceId) (drv : Option DrvId)
    (o : DevmOutcomes) (others : Others) : World × Ret :=
  match dev, drv with
  | some dev, some id =>
    if (w.drv id).invalid then (w, .error .EINVAL)
    else
      let w := w.modDrv id fun d => { d with devmDev := some dev, devmManaged := true }
      if !o.devmKcalloc then (w.modDrv id fun d => { d with devices := none }, .error .ENOMEM)
      else
        let w := w.modDrv id fun d => { d with devices := some emptyTable, tableMem := .devm dev }
        if !o.devmKzalloc then (w, .error .ENOMEM)
        else driverRegisterDevmRegion { w with nextDr := w.nextDr + 1 } dev id w.nextDr o others
  | _, _ => (w, .error .EINVAL)

def driverUnregisterDevm (w : World) (drv : Option DrvId) : World :=
  match drv with
  | none => w
  | some id =>
    let w := w.dropTable id
    ({ w with dfs := w.dfs.exit }).modDrv id NvCharDriver.clear

end LinuxDriverFramework.NvChar
