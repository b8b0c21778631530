import LinuxDriverFramework.NvChar.World

/-! # Registering, opening, closing and unregistering one device

`deviceRegisterParent`, `deviceUnregister`, `acquireOpen`, `releaseOpen`, `charOpen`, `charRelease`,
`miscRegister` and `miscUnregister` follow `nv_char.c` line by line, each as one call that runs
without another call in between. Every function is cut into the steps its source takes, and each
step is a definition of its own. -/

namespace LinuxDriverFramework.NvChar
set_option autoImplicit false

/-! ## `nv_char_device_register_parent` -/

structure DeviceArgs where
  drv : Option DrvId
  /-- the number of the `nv_char_dev` -/
  dev : Option ℕ
  index : ℕ
  name : Option String
  ops : Option Ops
  priv : Option ℕ

structure DeviceOutcomes where
  cdevAdd : Option Errno
  deviceCreate : Option Errno
  deviceCreateFile : Option Errno
  debugfsDir : Bool

def NvCharDriver.slotDevt (drv : NvCharDriver) (index : ℕ) : ℕ :=
  mkdev (LinuxDriverFramework.major drv.devt) (minor drv.devt + index)

/-- The assignments before `cdev_add`, `atomic_set(&dev->opens, 0)` among them. -/
def NvCharDev.bind (dev : NvCharDev) (id : DrvId) (drv : NvCharDriver) (a : DeviceArgs) :
    NvCharDev :=
  { dev with
    driver := some id
    owner := drv.owner
    index := a.index
    name := a.name
    ops := a.ops
    priv := a.priv
    removing := false
    devt := drv.slotDevt a.index
    devMode := if dev.devMode = 0 ∧ drv.devMode ≠ 0 then drv.devMode else dev.devMode
    opens := 0 }

/-- `drv->devices[index] = v`. A write through a NULL or a freed table or past its end is only
recorded. -/
def World.slotWrite (w : World) (id : DrvId) (index : ℕ) (v : Option DevId) : World :=
  let inRange := decide (index < (w.drv id).count)
  match (w.drv id).devices with
  | some t =>
    ((w.touchTable id).setK (w.k.log (.slotWrite id true inRange))).modDrv id fun d =>
      { d with devices := some (Function.update t index v) }
  | none => w.setK (w.k.log (.slotWrite id false inRange))

/-- From `device_create` on, with the cdev added. -/
def deviceRegisterNode (w : World) (id : DrvId) (x : DevId) (o : DeviceOutcomes) : World × Ret :=
  let dev := w.dev x
  let drv := w.drv id
  match w.k.deviceCreate drv.cls dev.devt o.deviceCreate with
  | .error e =>
    let w := w.modDev x fun d => { d with device := none }
    (w.setK (w.k.cdevDel x), .error e)
  | .ok k =>
    match o.deviceCreateFile with
    | some e =>
      let w := (w.setK (k.deviceDestroy x drv.cls dev.devt)).modDev x fun d =>
        { d with device := none }
      (w.setK (w.k.cdevDel x), .error e)
    | none =>
      let w := (w.setK k).modDev x fun d => { d with device := some dev.devt }
      let w := w.debugfsAddDevice x o.debugfsDir
      let w := w.slotWrite id dev.index (some x)
      (w.modDev x fun d => { d with registered := true }, .ok ())

def deviceRegisterParent (w : World) (a : DeviceArgs) (o : DeviceOutcomes) : World × Ret :=
  match a.drv, a.dev, a.name with
  | some id, some n, some _ =>
    if (w.drv id).count ≤ a.index then (w, .error .EINVAL)
    else if (w.dev (.cdev n)).registered then (w, .error .EBUSY)
    else
      let w := w.modDev (.cdev n) fun d => d.bind id (w.drv id) a
      match w.k.cdevAdd (.cdev n) o.cdevAdd with
      | .error e => (w, .error e)
      | .ok k => deviceRegisterNode (w.setK k) id (.cdev n) o
  | _, _, _ => (w, .error .EINVAL)

/-! ## `nv_char_device_unregister` -/

/-- `if (dev->driver && dev->driver->devices) dev->driver->devices[dev->index] = NULL`. -/
def World.clearSlot (w : World) (x : DevId) : World :=
  match (w.dev x).driver with
  | some id =>
    if (w.drv id).devices.isSome then w.slotWrite id (w.dev x).index none else w
  | none => w

/-- `if (dev->device)`: remove the sysfs file and destroy the class device. -/
def World.destroyNode (w : World) (x : DevId) : World :=
  match (w.dev x).device, (w.dev x).driver with
  | some _, some id =>
    (w.setK (w.k.deviceDestroy x (w.drv id).cls (w.dev x).devt)).modDev x fun d =>
      { d with device := none }
  | _, _ => w

/-- The wait, with no other call under way: it ends at once if `opens` is 0, else by the timeout,
which is only reported. -/
def World.waitOpens (w : World) (x : DevId) : World :=
  if (w.dev x).opens = 0 then w else w.setK (w.k.log (.prWarn x (w.dev x).opens))

/-- `cdev_del`, then `dev->registered = false`. -/
def World.cdevGone (w : World) (x : DevId) : World :=
  (w.setK (w.k.cdevDel x)).modDev x fun d => { d with registered := false }

def deviceUnregister (w : World) (x : DevId) : World :=
  if (w.dev x).registered then
    let w := w.modDev x fun d => { d with removing := true }
    let w := w.clearSlot x
    let w := w.debugfsRemoveDevice x
    let w := w.destroyNode x
    let w := w.waitOpens x
    w.cdevGone x
  else w

/-! ## Opening and closing -/

structure OpenOutcomes where
  tryModuleGet : Bool
  opsOpen : Option Errno

def World.devOwner (w : World) (x : DevId) : Option Module :=
  match (w.dev x).owner with
  | some m => some m
  | none =>
    match (w.dev x).driver with
    | some id => (w.drv id).owner
    | none => none

/-- `nv_char_acquire_open`; the second removing check sees what the first one saw. In place of 0
the result is the module whose reference was taken. -/
def acquireOpen (w : World) (x : DevId) (tryModuleGet : Bool) : World × Except Errno Module :=
  if (w.dev x).removing then (w, .error .ENODEV)
  else
    match w.devOwner x with
    | none => (w, .error .ENODEV)
    | some m =>
      if !tryModuleGet then (w, .error .ENODEV)
      else
        let w := w.setK (w.k.addRef m 1)
        if (w.dev x).removing then (w.setK (w.k.addRef m (-1)), .error .ENODEV)
        else (w.modDev x fun d => { d with opens := d.opens + 1 }, .ok m)

/-- `nv_char_release_open`; waking an empty wait queue changes nothing. -/
def releaseOpen (w : World) (x : DevId) : World :=
  let owner := w.devOwner x
  let w := w.modDev x fun d => { d with opens := d.opens - 1 }
  match owner with
  | some m => w.setK (w.k.addRef m (-1))
  | none => w

/-- `nv_char_open`, and `nv_char_misc_open`, which differs only in how it finds the device. -/
def charOpen (w : World) (x : DevId) (o : OpenOutcomes) : World × Ret :=
  match acquireOpen w x o.tryModuleGet with
  | (w, .error e) => (w, .error e)
  | (w, .ok m) =>
    match provides (w.dev x).ops .opsOpen, o.opsOpen with
    | true, some e => (releaseOpen w x, .error e)
    | _, _ => ({ w with files := ⟨x, m⟩ :: w.files }, .ok ())

/-- `nv_char_release` on an open descriptor; the result of `ops->release` is passed through. -/
def charRelease (w : World) (f : File) (opsRelease : Ret) : World × Ret :=
  let ret := if provides (w.dev f.dev).ops .opsRelease then opsRelease else .ok ()
  (releaseOpen { w with files := w.files.erase f } f.dev, ret)

/-! ## `nv_char_misc_register` and `nv_char_misc_unregister` -/

structure MiscArgs where
  misc : Option ℕ
  name : Option String
  ops : Option Ops
  priv : Option ℕ
  owner : Option Module

structure MiscOutcomes where
  debugfsRoot : Bool
  miscRegister : Option Errno
  debugfsDir : Bool

/-- The assignments before `nv_char_debugfs_init`, `atomic_set(&dev->opens, 0)` among them. -/
def NvCharDev.miscBind (dev : NvCharDev) (a : MiscArgs) : NvCharDev :=
  { dev with
    driver := none
    owner := a.owner
    name := a.name
    ops := a.ops
    priv := a.priv
    removing := false
    index := 0
    opens := 0 }

def miscRegister (w : World) (a : MiscArgs) (o : MiscOutcomes) : World × Ret :=
  match a.misc, a.name, a.owner with
  | some n, some _, some _ =>
    if w.miscRegistered n then (w, .error .EBUSY)
    else
      let w := w.modDev (.misc n) fun d => d.miscBind a
      let w := { w with dfs := w.dfs.init o.debugfsRoot }
      match o.miscRegister with
      | some e => ({ w with dfs := w.dfs.exit }, .error e)
      | none =>
        let w := w.debugfsAddDevice (.misc n) o.debugfsDir
        ({ w with miscRegistered := Function.update w.miscRegistered n true }, .ok ())
  | _, _, _ => (w, .error .EINVAL)

def miscUnregister (w : World) (n : ℕ) : World :=
  if w.miscRegistered n then
    let w := w.modDev (.misc n) fun d => { d with removing := true }
    let w := w.debugfsRemoveDevice (.misc n)
    let w := w.waitOpens (.misc n)
    { w with dfs := w.dfs.exit, miscRegistered := Function.update w.miscRegistered n false }
  else w

end LinuxDriverFramework.NvChar
