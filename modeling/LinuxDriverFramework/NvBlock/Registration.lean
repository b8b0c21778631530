import LinuxDriverFramework.Kernel.Base
import Mathlib.Logic.Function.Basic
import Mathlib.Tactic.Simps.Basic

/-! # `nv_block`: drivers, block devices and their `gendisk`

`driverRegister`, `driverUnregister`, `deviceRegister` and `deviceUnregister` of `nv_block.c`, one
call at a time, and the transition system of their runs.

* `NvBlockDriver`, `NvBlockDev`: the two structures of `nv_block.h`.
* `DiskPtr`: a `struct gendisk *`, which is an error pointer after a failed `blk_alloc_disk`.
* `Gendisk`: what the framework writes into a `gendisk` and its queue limits.
* `World`: all of them, with the kernel calls made so far, newest first. -/

namespace LinuxDriverFramework.NvBlock
set_option autoImplicit false

/-- The members of `struct nv_block_ops`. -/
inductive Callback
  | submitBio | opOpen | release | ioctl
  deriving DecidableEq, Repr

abbrev Ops := Callback → Bool

structure NvBlockDriver where
  name : Option String
  owner : Option ℕ
  count : ℕ
  devices : Option (ℕ → Option ℕ)

inductive DiskPtr
  | null
  | err (e : Errno)
  | obj (n : ℕ)
  deriving DecidableEq, Repr

structure NvBlockDev where
  driver : Option ℕ
  index : ℕ
  name : Option String
  ops : Option Ops
  priv : Option ℕ
  capacity : ℕ
  logicalBlockSize : ℕ
  disk : DiskPtr
  registered : Bool

structure Gendisk where
  privateData : ℕ
  diskName : List UInt8
  capacity : ℕ
  logicalBlockSize : ℕ
  physicalBlockSize : ℕ
  /-- between `add_disk` and `del_gendisk` -/
  visible : Bool
  deriving DecidableEq, Repr

inductive KCall
  | allocDisk (n : ℕ)
  | addDisk (n : ℕ)
  | delGendisk (disk : DiskPtr) (live : Bool)
  | putDisk (disk : DiskPtr) (live : Bool)
  | slotWrite (drv : ℕ) (tableLive inRange : Bool)
  deriving DecidableEq, Repr

structure World where
  drv : ℕ → NvBlockDriver
  dev : ℕ → NvBlockDev
  disks : ℕ → Option Gendisk
  nextDisk : ℕ
  calls : List KCall

@[simps] def World.modDrv (w : World) (d : ℕ) (f : NvBlockDriver → NvBlockDriver) : World :=
  { w with drv := Function.update w.drv d (f (w.drv d)) }

@[simps] def World.modDev (w : World) (x : ℕ) (f : NvBlockDev → NvBlockDev) : World :=
  { w with dev := Function.update w.dev x (f (w.dev x)) }

/-! ## Kernel functions -/

/-- `DISK_NAME_LEN`, the terminating NUL included. -/
def diskNameLen : ℕ := 32

/-- `blk_alloc_disk` and the assignments to the new `gendisk`. -/
@[simps] def World.allocDisk (w : World) (d : Gendisk) : World :=
  { w with
    disks := Function.update w.disks w.nextDisk (some d)
    nextDisk := w.nextDisk + 1
    calls := .allocDisk w.nextDisk :: w.calls }

@[simps] def World.addDisk (w : World) (n : ℕ) : World :=
  { w with
    disks := Function.update w.disks n ((w.disks n).map fun d => { d with visible := true })
    calls := .addDisk n :: w.calls }

def World.disk (w : World) : DiskPtr → Option Gendisk
  | .obj n => w.disks n
  | _ => none

/-- Replace the disk behind a pointer, if it points to one. -/
def World.setDisk (w : World) (p : DiskPtr) (d : Option Gendisk) : World :=
  match p with
  | .obj n => { w with disks := Function.update w.disks n d }
  | _ => w

def World.delGendisk (w : World) (p : DiskPtr) : World :=
  { w.setDisk p ((w.disk p).map fun d => { d with visible := false }) with
    calls := .delGendisk p (w.disk p).isSome :: w.calls }

def World.putDisk (w : World) (p : DiskPtr) : World :=
  { w.setDisk p none with calls := .putDisk p (w.disk p).isSome :: w.calls }

/-- `drv->devices[index] = v`. A write through a NULL table or past its end is only recorded. -/
def World.slotWrite (w : World) (id index : ℕ) (v : Option ℕ) : World :=
  let inRange := decide (index < (w.drv id).count)
  match (w.drv id).devices with
  | some t =>
    { w with calls := .slotWrite id true inRange :: w.calls }.modDrv id fun d =>
      { d with devices := some (Function.update t index v) }
  | none => { w with calls := .slotWrite id false inRange :: w.calls }

@[simp] theorem slotWrite_dev (w : World) (id i : ℕ) (v : Option ℕ) :
    (w.slotWrite id i v).dev = w.dev := by
  unfold World.slotWrite
  split <;> rfl

/-! ## `nv_block_device_register` -/

structure DeviceArgs where
  drv : Option ℕ
  dev : Option ℕ
  index : ℕ
  name : Option String
  ops : Option Ops
  priv : Option ℕ
  capacitySectors : ℕ
  logicalBlockSize : ℕ

structure DeviceOutcomes where
  blkAllocDisk : Option Errno
  addDisk : Option Errno

/-- `if (!logical_block_size) logical_block_size = 512`. -/
def DeviceArgs.blockSize (a : DeviceArgs) : ℕ :=
  if a.logicalBlockSize = 0 then 512 else a.logicalBlockSize

/-- The `gendisk` as it is set up before it is added. -/
def DeviceArgs.gendisk (a : DeviceArgs) (x : ℕ) (name : String) : Gendisk where
  privateData := x
  diskName := strscpy name diskNameLen
  capacity := a.capacitySectors
  logicalBlockSize := a.blockSize
  physicalBlockSize := a.blockSize
  visible := false

/-- `put_disk(dev->disk); dev->disk = NULL`. -/
def World.dropDisk (w : World) (x : ℕ) : World :=
  (w.putDisk (w.dev x).disk).modDev x fun d => { d with disk := .null }

/-- From `blk_alloc_disk` on, with the arguments stored in the device. -/
def deviceRegisterDisk (w : World) (id x : ℕ) (name : String) (a : DeviceArgs)
    (o : DeviceOutcomes) : World × Ret :=
  match o.blkAllocDisk with
  | some e => (w.modDev x fun d => { d with disk := .err e }, .error e)
  | none =>
    let n := w.nextDisk
    let w := (w.allocDisk (a.gendisk x name)).modDev x fun d => { d with disk := .obj n }
    match o.addDisk with
    | some e => (w.dropDisk x, .error e)
    | none =>
      let w := (w.addDisk n).slotWrite id a.index (some x)
      (w.modDev x fun d => { d with registered := true }, .ok ())

def deviceRegister (w : World) (a : DeviceArgs) (o : DeviceOutcomes) : World × Ret :=
  match a.drv, a.dev, a.name, a.ops with
  | some id, some x, some name, some ops =>
    if ops .submitBio = false ∨ (w.drv id).count ≤ a.index ∨ a.capacitySectors = 0 then
      (w, .error .EINVAL)
    else if (w.dev x).registered then (w, .error .EBUSY)
    else
      let w := w.modDev x fun d =>
        { d with
          driver := some id
          index := a.index
          name := a.name
          ops := a.ops
          priv := a.priv
          capacity := a.capacitySectors
          logicalBlockSize := a.blockSize }
      deviceRegisterDisk w id x name a o
  | _, _, _, _ => (w, .error .EINVAL)

/-- The block device a registration is for, if it passes the checks. -/
def accepted (w : World) (a : DeviceArgs) : Option (ℕ × ℕ) :=
  match a.drv, a.dev, a.name, a.ops with
  | some id, some x, some _, some ops =>
    if (ops .submitBio = false ∨ (w.drv id).count ≤ a.index ∨ a.capacitySectors = 0) ∨
      (w.dev x).registered = true then none
    else some (id, x)
  | _, _, _, _ => none

def DeviceOutcomes.allSucceed (o : DeviceOutcomes) : Bool :=
  o.blkAllocDisk.isNone && o.addDisk.isNone

@[simps!] def World.storeArgs (w : World) (id x : ℕ) (a : DeviceArgs) : World :=
  w.modDev x fun d =>
    { d with
      driver := some id
      index := a.index
      name := a.name
      ops := a.ops
      priv := a.priv
      capacity := a.capacitySectors
      logicalBlockSize := a.blockSize }

theorem accepted_some {w : World} {a : DeviceArgs} {id x : ℕ} (h : accepted w a = some (id, x)) :
    a.drv = some id ∧ a.index < (w.drv id).count ∧ (w.dev x).registered = false := by
  unfold accepted at h
  split at h
  · rename_i id' x' _ ops hd _ _ _
    split at h
    · cases h
    · rename_i hc
      obtain ⟨rfl, rfl⟩ := Prod.mk.inj (Option.some.inj h)
      simp only [not_or] at hc
      obtain ⟨⟨-, hcount, -⟩, hr⟩ := hc
      exact ⟨hd, by omega, by simpa using hr⟩
  · cases h

theorem deviceRegister_accepted {w : World} {a : DeviceArgs} {id x : ℕ}
    (h : accepted w a = some (id, x)) (o : DeviceOutcomes) :
    ∃ name, deviceRegister w a o =
      deviceRegisterDisk (w.storeArgs id x a) id x name a o := by
  unfold accepted at h
  split at h
  · rename_i name ops hid hx hname hops
    split at h
    · cases h
    · rename_i hc
      obtain ⟨rfl, rfl⟩ := Prod.mk.inj (Option.some.inj h)
      rw [not_or] at hc
      refine ⟨name, ?_⟩
      simp only [deviceRegister, World.storeArgs, hid, hx, hname, hops, hc.1, hc.2,
        Bool.false_eq_true, if_false]
  · cases h

theorem deviceRegister_rejected {w : World} {a : DeviceArgs} (h : accepted w a = none)
    (o : DeviceOutcomes) : ∃ e, deviceRegister w a o = (w, .error e) := by
  unfold accepted at h
  unfold deviceRegister
  split
  · rename_i hid hx hname hops
    simp only [hid, hx, hname, hops] at h
    split
    · exact ⟨_, rfl⟩
    · split
      · exact ⟨_, rfl⟩
      · rename_i hc hr
        rw [if_neg (not_or.mpr ⟨hc, hr⟩)] at h
        cases h
  · exact ⟨_, rfl⟩

/-! ## `nv_block_device_unregister` -/

def World.clearSlot (w : World) (x : ℕ) : World :=
  match (w.dev x).driver with
  | some id => if (w.drv id).devices.isSome then w.slotWrite id (w.dev x).index none else w
  | none => w

theorem clearSlot_dev (w : World) (x : ℕ) : (w.clearSlot x).dev = w.dev := by
  unfold World.clearSlot
  split
  · split
    · exact slotWrite_dev w _ _ none
    · rfl
  · rfl

def deviceUnregister (w : World) (x : ℕ) : World :=
  if (w.dev x).registered then
    let w := w.clearSlot x
    let w := if (w.dev x).disk ≠ .null then (w.delGendisk (w.dev x).disk).dropDisk x else w
    w.modDev x fun d => { d with registered := false }
  else w

/-! ## `nv_block_driver_register` and `nv_block_driver_unregister` -/

/-- `!drv->name || !drv->count || !drv->owner`. -/
def NvBlockDriver.invalid (drv : NvBlockDriver) : Bool :=
  drv.name.isNone || drv.count == 0 || drv.owner.isNone

def driverRegister (w : World) (drv : Option ℕ) (kcalloc : Bool) : World × Ret :=
  match drv with
  | none => (w, .error .EINVAL)
  | some id =>
    if (w.drv id).invalid then (w, .error .EINVAL)
    else if !kcalloc then (w.modDrv id fun d => { d with devices := none }, .error .ENOMEM)
    else (w.modDrv id fun d => { d with devices := some fun _ => none }, .ok ())

/-- One round of the loop over `drv->devices`. -/
def unregisterSlot (id : ℕ) (w : World) (i : ℕ) : World :=
  match (w.drv id).devices with
  | some t =>
    match t i with
    | some x => deviceUnregister w x
    | none => w
  | none => w

def driverUnregister (w : World) (drv : Option ℕ) : World :=
  match drv with
  | none => w
  | some id =>
    if (w.drv id).devices.isSome then
      ((List.range (w.drv id).count).foldl (unregisterSlot id) w).modDrv id fun d =>
        { d with devices := none }
    else w

/-! ## Runs -/

inductive Call
  | driverRegister (drv : Option ℕ) (kcalloc : Bool)
  | driverUnregister (drv : Option ℕ)
  | deviceRegister (a : DeviceArgs) (o : DeviceOutcomes)
  | deviceUnregister (dev : Option ℕ)

def exec (w : World) : Call → World × Ret
  | .driverRegister drv kcalloc => driverRegister w drv kcalloc
  | .driverUnregister drv => (driverUnregister w drv, .ok ())
  | .deviceRegister a o => deviceRegister w a o
  | .deviceUnregister (some x) => (deviceUnregister w x, .ok ())
  | .deviceUnregister none => (w, .ok ())

def step (w : World) (c : Call) : Option World := some (exec w c).1

/-- What a module fills in before it registers a driver. -/
structure DriverConfig where
  name : Option String
  owner : Option ℕ
  count : ℕ

def init (cfg : ℕ → DriverConfig) : World where
  drv := fun id =>
    { name := (cfg id).name, owner := (cfg id).owner, count := (cfg id).count, devices := none }
  dev := fun _ =>
    { driver := none
      index := 0
      name := none
      ops := none
      priv := none
      capacity := 0
      logicalBlockSize := 0
      disk := .null
      registered := false }
  disks := fun _ => none
  nextDisk := 0
  calls := []

end LinuxDriverFramework.NvBlock
