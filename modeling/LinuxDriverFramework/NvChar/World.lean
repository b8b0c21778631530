import LinuxDriverFramework.NvChar.FileOps
import Mathlib.Data.Finset.Image
import Mathlib.Tactic.Simps.Basic

/-! # Drivers, devices and the kernel objects behind them

The state on which the registration functions of `nv_char.c` work, one call at a time.

* `NvCharDriver`, `NvCharDev`: the two structures of `nv_char.h`. Drivers and devices are named by
  identifiers that stand for their addresses; `DevId.misc n` is the `nv_char_dev` inside the misc
  device `n`.
* `Kernel`: the number regions, classes, cdevs, class devices and pending devm actions that the
  kernel keeps, the module references, and `calls`, the kernel calls made so far, newest first.
* `TableMem`: whose memory a slot table is, and whether it has been freed under its driver.
* `Debugfs`: the two static variables of the debugfs root.
* `World`: all of it, with the open descriptors.

Kernel functions take a forced error as an argument: `none` lets them succeed if they can. -/

namespace LinuxDriverFramework.NvChar
set_option autoImplicit false

abbrev Module := ℕ
abbrev DrvId := ℕ
/-- A `struct device *` of the bus, to which devm ties resources. -/
abbrev DeviceId := ℕ

inductive DevId
  | cdev (n : ℕ)
  | misc (n : ℕ)
  deriving DecidableEq, Repr

/-- A `struct class *`: NULL, an error pointer, or a class object. -/
inductive ClassPtr
  | null
  | err (e : Errno)
  | obj (id : ℕ)
  deriving DecidableEq, Repr

/-- `drv->devices`, a table of `drv->count` slots. -/
abbrev SlotTable := ℕ → Option DevId

/-- The memory of a slot table: the driver's own until it frees it, or one that the devm core frees
when it unwinds the device. -/
inductive TableMem
  | own
  | devm (dev : DeviceId)
  | freed
  deriving DecidableEq, Repr

/-- `struct nv_char_driver`; `tableMem` is the memory that `devices` points to if it is not NULL. -/
structure NvCharDriver where
  name : Option String
  owner : Option Module
  count : ℕ
  major : ℕ
  devt : ℕ
  cls : ClassPtr
  devices : Option SlotTable
  tableMem : TableMem
  devMode : ℕ
  devmDev : Option DeviceId
  devmManaged : Bool

/-- `struct nv_char_dev`; `device` is NULL or the device number of the class device. -/
structure NvCharDev where
  driver : Option DrvId
  index : ℕ
  name : Option String
  ops : Option Ops
  priv : Option ℕ
  devt : ℕ
  device : Option ℕ
  registered : Bool
  removing : Bool
  opens : ℤ
  devMode : ℕ
  /-- NULL or a directory under the given debugfs root -/
  debugfsDir : Option ℕ
  owner : Option Module

def NvCharDev.zero : NvCharDev where
  driver := none
  index := 0
  name := none
  ops := none
  priv := none
  devt := 0
  device := none
  registered := false
  removing := false
  opens := 0
  devMode := 0
  debugfsDir := none
  owner := none

/-! ## Kernel objects -/

/-- On whose behalf a number region was taken. -/
inductive RegionOwner
  | driver (d : DrvId)
  | devres (n : ℕ)             -- one `nv_char_chrdev_dr`
  | other (n : ℕ)              -- a driver outside this framework
  deriving DecidableEq, Repr

structure Region where
  owner : RegionOwner
  first : ℕ
  count : ℕ
  deriving DecidableEq, Repr

/-- `struct nv_char_chrdev_dr`; `id` tells the allocations apart. -/
structure ChrdevDr where
  id : ℕ
  devt : ℕ
  count : ℕ
  major : ℕ
  deriving DecidableEq, Repr

/-- An action added by `devm_add_action`. -/
inductive DevmAction
  | chrdevRelease (dr : ChrdevDr)
  | classRelease (drv : DrvId)
  deriving DecidableEq, Repr

structure ClassObj where
  id : ℕ
  name : Option String
  deriving DecidableEq, Repr

/-- The kernel calls a claim can be about; the flags record whether the object was there. -/
inductive KCall
  | regionAcquire (by_ : RegionOwner)
  | regionRelease (by_ : RegionOwner) (held : Bool)
  | classCreate (id : ℕ)
  | classDestroy (id : ℕ) (live : Bool)
  | cdevAdd (d : DevId)
  | cdevDel (d : DevId) (added : Bool)
  | deviceDestroy (d : DevId) (classLive nodeLive : Bool)
  | slotWrite (drv : DrvId) (tableLive inRange : Bool)
  | dirRemove (d : DevId) (rootLive : Bool)
  | prWarn (d : DevId) (opens : ℤ)
  deriving DecidableEq, Repr

/-- The calls that concern one device's cdev, class device or slot. -/
def KCall.ofDevice : KCall → Bool
  | .cdevAdd _ | .cdevDel _ _ | .deviceDestroy _ _ _ | .slotWrite _ _ _ => true
  | _ => false

/-- A removal of a device's debugfs directory. -/
def KCall.ofDir : KCall → Bool
  | .dirRemove _ _ => true
  | _ => false

structure Kernel where
  regions : List Region
  classes : List ClassObj
  nextClass : ℕ
  cdevs : Finset DevId
  /-- live class devices, as pairs of class and device number -/
  nodes : Finset (ℕ × ℕ)
  /-- pending devm actions, the last registered first -/
  devm : DeviceId → List DevmAction
  /-- references taken by `nv_char_acquire_open` and not yet dropped -/
  refs : Module → ℤ
  calls : List KCall

/-- `nv_char_debugfs_root` and `nv_char_debugfs_refcnt`; roots are numbered as they are made. -/
structure Debugfs where
  root : Option ℕ
  refcnt : ℕ
  nextRoot : ℕ
  removed : Finset ℕ

/-- An open descriptor: the device in its `private_data`, and the module whose reference its
`nv_char_open` took. -/
structure File where
  dev : DevId
  owner : Module
  deriving DecidableEq, Repr

/-- A registration that has succeeded and has not been undone. -/
inductive Holder
  | driver (d : DrvId)
  | devm (d : DrvId)
  | misc (n : ℕ)
  deriving DecidableEq, Repr

structure World where
  drv : DrvId → NvCharDriver
  dev : DevId → NvCharDev
  /-- `registered` of the misc devices -/
  miscRegistered : ℕ → Bool
  k : Kernel
  dfs : Debugfs
  nextDr : ℕ
  files : List File
  holders : List Holder
  /-- the drivers through whose freed table a slot was read or written, the last one first -/
  strays : List DrvId

def Kernel.deviceCalls (k : Kernel) : List KCall := k.calls.filter KCall.ofDevice

def Kernel.dirCalls (k : Kernel) : List KCall := k.calls.filter KCall.ofDir

/-! ## Updates of one component -/

@[simps] def World.modDrv (w : World) (d : DrvId) (f : NvCharDriver → NvCharDriver) : World :=
  { w with drv := Function.update w.drv d (f (w.drv d)) }

@[simps] def World.modDev (w : World) (x : DevId) (f : NvCharDev → NvCharDev) : World :=
  { w with dev := Function.update w.dev x (f (w.dev x)) }

/-- A slot of `drv->devices` is read or written. -/
@[simps] def World.touchTable (w : World) (d : DrvId) : World :=
  { w with strays := if (w.drv d).tableMem = .freed then d :: w.strays else w.strays }

@[simps] def World.setK (w : World) (k : Kernel) : World := { w with k := k }

@[simps] def Kernel.log (k : Kernel) (c : KCall) : Kernel := { k with calls := c :: k.calls }

/-! ## Number regions -/

/-- No held region meets the `count` numbers from `first`. -/
def Kernel.regionFree (k : Kernel) (first count : ℕ) : Bool :=
  k.regions.all fun r => r.first + r.count ≤ first || first + count ≤ r.first

/-- `register_chrdev_region(first, count, ..)`. -/
def Kernel.registerRegion (k : Kernel) (by_ : RegionOwner) (first count : ℕ)
    (fails : Option Errno) : Except Errno Kernel :=
  match fails with
  | some e => .error e
  | none =>
    if k.regionFree first count then
      .ok { k with
        regions := ⟨by_, first, count⟩ :: k.regions
        calls := .regionAcquire by_ :: k.calls }
    else .error .EBUSY

/-- `CHRDEV_MAJOR_MAX`: dynamic majors lie below it. -/
def chrdevMajorMax : ℕ := 512

/-- `alloc_chrdev_region(&dev, 0, count, ..)`; `dynMajor` is the free major the kernel finds. -/
def Kernel.allocRegion (k : Kernel) (by_ : RegionOwner) (dynMajor count : ℕ)
    (fails : Option Errno) : Except Errno (Kernel × ℕ) :=
  if dynMajor = 0 ∨ chrdevMajorMax ≤ dynMajor then .error .EBUSY
  else if 2 ^ minorBits < count then .error .EINVAL
  else (k.registerRegion by_ (mkdev dynMajor 0) count fails).map fun k' => (k', mkdev dynMajor 0)

/-- `unregister_chrdev_region(first, count)`: frees the region with this start and length,
whoever holds it. -/
def Kernel.unregisterRegion (k : Kernel) (by_ : RegionOwner) (first count : ℕ) : Kernel :=
  { k with
    regions := k.regions.eraseP fun r => r.first == first && r.count == count
    calls := .regionRelease by_ (decide (⟨by_, first, count⟩ ∈ k.regions)) :: k.calls }

/-! ## Classes, cdevs and class devices -/

def Kernel.classLive (k : Kernel) (id : ℕ) : Bool := k.classes.any (·.id == id)

/-- `class_create(name)`: fails on the name of a live class. -/
def Kernel.classCreate (k : Kernel) (name : Option String) (fails : Option Errno) :
    Except Errno (Kernel × ℕ) :=
  match fails with
  | some e => .error e
  | none =>
    if k.classes.any (·.name == name) then .error .EEXIST
    else .ok ({ k with
      classes := ⟨k.nextClass, name⟩ :: k.classes
      nextClass := k.nextClass + 1
      calls := .classCreate k.nextClass :: k.calls }, k.nextClass)

def Kernel.classDestroy (k : Kernel) (id : ℕ) : Kernel :=
  { k with
    classes := k.classes.filter (·.id != id)
    calls := .classDestroy id (k.classLive id) :: k.calls }

def Kernel.cdevAdd (k : Kernel) (x : DevId) (fails : Option Errno) : Except Errno Kernel :=
  match fails with
  | some e => .error e
  | none => .ok { k with cdevs := insert x k.cdevs, calls := .cdevAdd x :: k.calls }

def Kernel.cdevDel (k : Kernel) (x : DevId) : Kernel :=
  { k with
    cdevs := k.cdevs.erase x
    calls := .cdevDel x (decide (x ∈ k.cdevs)) :: k.calls }

/-- `device_create(class, .., devt, ..)`: fails without a class, and on a number in use. -/
def Kernel.deviceCreate (k : Kernel) (cls : ClassPtr) (devt : ℕ) (fails : Option Errno) :
    Except Errno Kernel :=
  match cls, fails with
  | .null, _ | .err _, _ => .error .ENODEV
  | .obj _, some e => .error e
  | .obj c, none =>
    if devt ∈ k.nodes.image Prod.snd then .error .EEXIST
    else .ok { k with nodes := insert (c, devt) k.nodes }

/-- `device_destroy(class, devt)`, called for device `x`. -/
def Kernel.deviceDestroy (k : Kernel) (x : DevId) (cls : ClassPtr) (devt : ℕ) : Kernel :=
  match cls with
  | .obj c =>
    { k with
      nodes := k.nodes.erase (c, devt)
      calls := .deviceDestroy x (k.classLive c) (decide ((c, devt) ∈ k.nodes)) :: k.calls }
  | _ => k.log (.deviceDestroy x false false)

def Kernel.addRef (k : Kernel) (m : Module) (n : ℤ) : Kernel :=
  { k with refs := Function.update k.refs m (k.refs m + n) }

/-! ## The debugfs root -/

/-- `nv_char_debugfs_init`; `ok` tells whether `debugfs_create_dir("nv_char", NULL)` succeeds. -/
def Debugfs.init (f : Debugfs) (ok : Bool) : Debugfs :=
  if f.refcnt ≠ 0 then { f with refcnt := f.refcnt + 1 }
  else if ok then { f with root := some f.nextRoot, refcnt := 1, nextRoot := f.nextRoot + 1 }
  else { f with root := none, refcnt := 0 }

def Debugfs.exit (f : Debugfs) : Debugfs :=
  if f.refcnt = 0 then f
  else if f.refcnt - 1 = 0 then
    { f with
      root := none
      refcnt := 0
      removed := match f.root with
        | some r => insert r f.removed
        | none => f.removed }
  else { f with refcnt := f.refcnt - 1 }

def World.debugfsAddDevice (w : World) (x : DevId) (ok : Bool) : World :=
  match w.dfs.root, (w.dev x).name with
  | some r, some _ => w.modDev x fun d => { d with debugfsDir := if ok then some r else none }
  | _, _ => w

def World.debugfsRemoveDevice (w : World) (x : DevId) : World :=
  match (w.dev x).debugfsDir with
  | some r =>
    (w.setK (w.k.log (.dirRemove x (decide (r ∉ w.dfs.removed))))).modDev x fun d =>
      { d with debugfsDir := none }
  | none => w

end LinuxDriverFramework.NvChar
