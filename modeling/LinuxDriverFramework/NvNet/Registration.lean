import LinuxDriverFramework.Kernel.Base
import Mathlib.Logic.Function.Basic
import Mathlib.Tactic.Simps.Basic

/-! # `nv_net`: drivers, interfaces and their `net_device`

`driverRegister`, `driverUnregister`, `deviceRegister` and `deviceUnregister` of `nv_net.c`, one
call at a time, and the transition system of their runs.

* `NvNetDriver`, `NvNetDev`: the two structures of `nv_net.h`.
* `NetDevice`: what the framework writes into a `net_device`.
* `World`: all of them, with the kernel calls made so far, newest first. -/

namespace LinuxDriverFramework.NvNet
set_option autoImplicit false

/-- The members of `struct nv_net_ops`. -/
inductive Callback
  | opOpen | opStop | startXmit | setMacAddress | changeMtu | setRxMode | ioctl | getStats64
  deriving DecidableEq, Repr

abbrev Ops := Callback → Bool

structure NvNetDriver where
  name : Option String
  owner : Option ℕ
  count : ℕ
  devices : Option (ℕ → Option ℕ)

structure NvNetDev where
  driver : Option ℕ
  index : ℕ
  name : Option String
  ops : Option Ops
  priv : Option ℕ
  netdev : Option ℕ
  registered : Bool

/-- The hardware address: the caller's, or one from `eth_hw_addr_random`. -/
inductive HwAddr
  | given (addr : List (BitVec 8))
  | random
  deriving DecidableEq

structure NetDevice where
  nvDev : ℕ
  hwAddr : HwAddr
  mtu : ℤ
  /-- between `register_netdev` and `unregister_netdev` -/
  visible : Bool
  deriving DecidableEq

inductive KCall
  | allocEtherdev (n : ℕ)
  | registerNetdev (n : ℕ)
  | unregisterNetdev (n : ℕ) (live : Bool)
  | freeNetdev (n : ℕ) (live : Bool)
  | slotWrite (drv : ℕ) (tableLive inRange : Bool)
  deriving DecidableEq, Repr

structure World where
  drv : ℕ → NvNetDriver
  dev : ℕ → NvNetDev
  netdevs : ℕ → Option NetDevice
  nextNetdev : ℕ
  calls : List KCall

@[simps] def World.modDrv (w : World) (d : ℕ) (f : NvNetDriver → NvNetDriver) : World :=
  { w with drv := Function.update w.drv d (f (w.drv d)) }

@[simps] def World.modDev (w : World) (x : ℕ) (f : NvNetDev → NvNetDev) : World :=
  { w with dev := Function.update w.dev x (f (w.dev x)) }

/-! ## Kernel functions -/

def ethDataLen : ℤ := 1500

/-- `alloc_etherdev_mqs` and the assignments to the new `net_device`. -/
@[simps] def World.allocNetdev (w : World) (d : NetDevice) : World :=
  { w with
    netdevs := Function.update w.netdevs w.nextNetdev (some d)
    nextNetdev := w.nextNetdev + 1
    calls := .allocEtherdev w.nextNetdev :: w.calls }

@[simps] def World.registerNetdev (w : World) (n : ℕ) : World :=
  { w with
    netdevs := Function.update w.netdevs n ((w.netdevs n).map fun d => { d with visible := true })
    calls := .registerNetdev n :: w.calls }

@[simps] def World.unregisterNetdev (w : World) (n : ℕ) : World :=
  { w with
    netdevs := Function.update w.netdevs n ((w.netdevs n).map fun d => { d with visible := false })
    calls := .unregisterNetdev n (w.netdevs n).isSome :: w.calls }

@[simps] def World.freeNetdev (w : World) (n : ℕ) : World :=
  { w with
    netdevs := Function.update w.netdevs n none
    calls := .freeNetdev n (w.netdevs n).isSome :: w.calls }

/-- `drv->devices[index] = v`. A write through a NULL table or past its end is only recorded. -/
def World.slotWrite (w : World) (id index : ℕ) (v : Option ℕ) : World :=
  let inRange := decide (index < (w.drv id).count)
  match (w.drv id).devices with
  | some t =>
    { w with calls := .slotWrite id true inRange :: w.calls }.modDrv id fun d =>
      { d with devices := some (Function.update t index v) }
  | none => { w with calls := .slotWrite id false inRange :: w.calls }

@[simp] theorem slotWrite_dev (w : World) (id i : ℕ) (v : Option ℕ) :
    (w.slotWrite id i v).dev = w.dev := by
  unfold World.slotWrite
  split <;> rfl

/-! ## `nv_net_device_register` -/

structure DeviceArgs where
  drv : Option ℕ
  dev : Option ℕ
  index : ℕ
  name : Option String
  ops : Option Ops
  priv : Option ℕ
  macAddr : Option (List (BitVec 8))
  mtu : ℤ

structure DeviceOutcomes where
  allocEtherdev : Bool
  devAllocName : Option Errno
  registerNetdev : Option Errno

/-- The `net_device` as it is set up before it is named. -/
def DeviceArgs.netDevice (a : DeviceArgs) (x : ℕ) : NetDevice where
  nvDev := x
  hwAddr := match a.macAddr with
    | some addr => .given addr
    | none => .random
  mtu := if a.mtu > 0 then a.mtu else ethDataLen
  visible := false

/-- `free_netdev(netdev); dev->netdev = NULL`. -/
def World.dropNetdev (w : World) (x n : ℕ) : World :=
  (w.freeNetdev n).modDev x fun d => { d with netdev := none }

/-- From `alloc_etherdev_mqs` on, with the arguments stored in the device. -/
def deviceRegisterNetdev (w : World) (id x : ℕ) (a : DeviceArgs) (o : DeviceOutcomes) :
    World × Ret :=
  if !o.allocEtherdev then (w, .error .ENOMEM)
  else
    let n := w.nextNetdev
    let w := (w.allocNetdev (a.netDevice x)).modDev x fun d => { d with netdev := some n }
    match o.devAllocName with
    | some e => (w.dropNetdev x n, .error e)
    | none =>
      match o.registerNetdev with
      | some e => (w.dropNetdev x n, .error e)
      | none =>
        let w := (w.registerNetdev n).slotWrite id a.index (some x)
        (w.modDev x fun d => { d with registered := true }, .ok ())

def deviceRegister (w : World) (a : DeviceArgs) (o : DeviceOutcomes) : World × Ret :=
  match a.drv, a.dev, a.name, a.ops with
  | some id, some x, some _, some _ =>
    if (w.drv id).count ≤ a.index then (w, .error .EINVAL)
    else if (w.dev x).registered then (w, .error .EBUSY)
    else
      let w := w.modDev x fun d =>
        { d with driver := some id, index := a.index, name := a.name, ops := a.ops, priv := a.priv }
      deviceRegisterNetdev w id x a o
  | _, _, _, _ => (w, .error .EINVAL)

/-- The interface a registration is for, if it passes the checks. -/
def accepted (w : World) (a : DeviceArgs) : Option (ℕ × ℕ) :=
  match a.drv, a.dev, a.name, a.ops with
  | some id, some x, some _, some _ =>
    if (w.drv id).count ≤ a.index ∨ (w.dev x).registered = true then none else some (id, x)
  | _, _, _, _ => none

def DeviceOutcomes.allSucceed (o : DeviceOutcomes) : Bool :=
  o.allocEtherdev && o.devAllocName.isNone && o.registerNetdev.isNone

@[simps!] def World.storeArgs (w : World) (id x : ℕ) (a : DeviceArgs) : World :=
  w.modDev x fun d =>
    { d with driver := some id, index := a.index, name := a.name, ops := a.ops, priv := a.priv }

theorem accepted_some {w : World} {a : DeviceArgs} {id x : ℕ} (h : accepted w a = some (id, x)) :
    a.drv = some id ∧ a.index < (w.drv id).count ∧ (w.dev x).registered = false := by
  unfold accepted at h
  split at h
  · rename_i id' x' _ _ hd _ _ _
    split at h
    · cases h
    · rename_i hc
      obtain ⟨rfl, rfl⟩ := Prod.mk.inj (Option.some.inj h)
      rw [not_or] at hc
      exact ⟨hd, by omega, by simpa using hc.2⟩
  · cases h

theorem deviceRegister_accepted {w : World} {a : DeviceArgs} {id x : ℕ}
    (h : accepted w a = some (id, x)) (o : DeviceOutcomes) :
    deviceRegister w a o = deviceRegisterNetdev (w.storeArgs id x a) id x a o := by
  unfold accepted at h
  split at h
  · rename_i hid hx hname hops
    split at h
    · cases h
    · rename_i hc
      obtain ⟨rfl, rfl⟩ := Prod.mk.inj (Option.some.inj h)
      rw [not_or] at hc
      simp only [deviceRegister, World.storeArgs, hid, hx, hname, hops, hc.1, hc.2,
        Bool.false_eq_true, if_false]
  · cases h

theorem deviceRegister_rejected {w : World} {a : DeviceArgs} (h : accepted w a = none)
    (o : DeviceOutcomes) : ∃ e, deviceRegister w a o = (w, .error e) := by
  unfold accepted at h
  unfold deviceRegister
  split
  · rename_i hid hx hname hops
    simp only [hid, hx, hname, hops] at h
    split
    · exact ⟨_, rfl⟩
    · split
      · exact ⟨_, rfl⟩
      · rename_i hc hr
        rw [if_neg (not_or.mpr ⟨hc, hr⟩)] at h
        cases h
  · exact ⟨_, rfl⟩

/-! ## `nv_net_device_unregister` -/

def World.clearSlot (w : World) (x : ℕ) : World :=
  match (w.dev x).driver with
  | some id => if (w.drv id).devices.isSome then w.slotWrite id (w.dev x).index none else w
  | none => w

theorem clearSlot_dev (w : World) (x : ℕ) : (w.clearSlot x).dev = w.dev := by
  unfold World.clearSlot
  split
  · split
    · exact slotWrite_dev w _ _ none
    · rfl
  · rfl

def deviceUnregister (w : World) (x : ℕ) : World :=
  if (w.dev x).registered then
    let w := w.clearSlot x
    let w := match (w.dev x).netdev with
      | some n => (w.unregisterNetdev n).dropNetdev x n
      | none => w
    w.modDev x fun d => { d with registered := false }
  else w

/-! ## `nv_net_driver_register` and `nv_net_driver_unregister` -/

/-- `!drv->name || !drv->count || !drv->owner`. -/
def NvNetDriver.invalid (drv : NvNetDriver) : Bool :=
  drv.name.isNone || drv.count == 0 || drv.owner.isNone

def driverRegister (w : World) (drv : Option ℕ) (kcalloc : Bool) : World × Ret :=
  match drv with
  | none => (w, .error .EINVAL)
  | some id =>
    if (w.drv id).invalid then (w, .error .EINVAL)
    else if !kcalloc then (w.modDrv id fun d => { d with devices := none }, .error .ENOMEM)
    else (w.modDrv id fun d => { d with devices := some fun _ => none }, .ok ())

/-- One round of the loop over `drv->devices`. -/
def unregisterSlot (id : ℕ) (w : World) (i : ℕ) : World :=
  match (w.drv id).devices with
  | some t =>
    match t i with
    | some x => deviceUnregister w x
    | none => w
  | none => w

def driverUnregister (w : World) (drv : Option ℕ) : World :=
  match drv with
  | none => w
  | some id =>
    if (w.drv id).devices.isSome then
      ((List.range (w.drv id).count).foldl (unregisterSlot id) w).modDrv id fun d =>
        { d with devices := none }
    else w

/-! ## Runs -/

inductive Call
  | driverRegister (drv : Option ℕ) (kcalloc : Bool)
  | driverUnregister (drv : Option ℕ)
  | deviceRegister (a : DeviceArgs) (o : DeviceOutcomes)
  | deviceUnregister (dev : Option ℕ)

def exec (w : World) : Call → World × Ret
  | .driverRegister drv kcalloc => driverRegister w drv kcalloc
  | .driverUnregister drv => (driverUnregister w drv, .ok ())
  | .deviceRegister a o => deviceRegister w a o
  | .deviceUnregister (some x) => (deviceUnregister w x, .ok ())
  | .deviceUnregister none => (w, .ok ())

def step (w : World) (c : Call) : Option World := some (exec w c).1

/-- What a module fills in before it registers a driver. -/
structure DriverConfig where
  name : Option String
  owner : Option ℕ
  count : ℕ

def init (cfg : ℕ → DriverConfig) : World where
  drv := fun id =>
    { name := (cfg id).name, owner := (cfg id).owner, count := (cfg id).count, devices := none }
  dev := fun _ =>
    { driver := none
      index := 0
      name := none
      ops := none
      priv := none
      netdev := none
      registered := false }
  netdevs := fun _ => none
  nextNetdev := 0
  calls := []

end LinuxDriverFramework.NvNet
