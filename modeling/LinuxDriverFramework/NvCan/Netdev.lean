import LinuxDriverFramework.Foundations.Custody
import LinuxDriverFramework.Foundations.Runs
import LinuxDriverFramework.Kernel.Base

/-! # `nv_can`: registering the `net_device`

`nv_can_netdev_register` and `nv_can_netdev_unregister` of `nv_can.c`, the transition system of
their runs, and who holds which `net_device` in it.

* `Sizes`: what `sizeof` gives for the structures in the private area of a `net_device`.
* `NvCanDev`: `struct nv_can_dev`.
* `NetDevice`: what `alloc_candev` was asked for, and what the framework writes into the result. -/

namespace LinuxDriverFramework.NvCan.Netdev
open Foundations
set_option autoImplicit false

structure Sizes where
  canPriv : ℕ
  canMlPriv : ℕ
  nvCanNetdevPriv : ℕ

/-- The members of `struct nv_can_ops`. -/
inductive Callback
  | doSetMode | doSetBittiming | doGetState | startXmit
  deriving DecidableEq, Repr

abbrev Ops := Callback → Bool

structure NvCanDev where
  netdev : Option ℕ
  ops : Option Ops
  priv : Option ℕ
  bittimingConst : Option ℕ
  echoSkbMax : ℕ
  registered : Bool

structure NetDevice where
  sizeofPriv : ℕ
  echoSkbMax : ℕ
  /-- `nv_can_ndpriv(netdev)->ncan` -/
  ncan : ℕ
  name : List UInt8
  bittimingConst : Option ℕ
  ctrlmodeSupported : ℕ
  /-- between `register_candev` and `unregister_candev` -/
  visible : Bool
  deriving DecidableEq, Repr

inductive KCall
  | allocCandev (n sizeofPriv echoSkbMax : ℕ)
  | registerCandev (n : ℕ)
  | unregisterCandev (n : ℕ) (live : Bool)
  | freeCandev (n : ℕ) (live : Bool)
  deriving DecidableEq, Repr

structure World where
  dev : ℕ → NvCanDev
  netdevs : ℕ → Option NetDevice
  nextNetdev : ℕ
  calls : List KCall

@[simps] def World.modDev (w : World) (x : ℕ) (f : NvCanDev → NvCanDev) : World :=
  { w with dev := Function.update w.dev x (f (w.dev x)) }

/-! ## Kernel functions -/

/-- `IFNAMSIZ`, the terminating NUL included. -/
def ifnamsiz : ℕ := 16

/-- `CAN_CTRLMODE_LOOPBACK`. -/
def ctrlmodeLoopback : ℕ := 1

/-- `alloc_candev` and the assignments to the new `net_device`. -/
@[simps] def World.allocCandev (w : World) (d : NetDevice) : World :=
  { w with
    netdevs := Function.update w.netdevs w.nextNetdev (some d)
    nextNetdev := w.nextNetdev + 1
    calls := .allocCandev w.nextNetdev d.sizeofPriv d.echoSkbMax :: w.calls }

@[simps] def World.registerCandev (w : World) (n : ℕ) : World :=
  { w with
    netdevs := Function.update w.netdevs n ((w.netdevs n).map fun d => { d with visible := true })
    calls := .registerCandev n :: w.calls }

@[simps] def World.unregisterCandev (w : World) (n : ℕ) : World :=
  { w with
    netdevs := Function.update w.netdevs n ((w.netdevs n).map fun d => { d with visible := false })
    calls := .unregisterCandev n (w.netdevs n).isSome :: w.calls }

@[simps] def World.freeCandev (w : World) (n : ℕ) : World :=
  { w with
    netdevs := Function.update w.netdevs n none
    calls := .freeCandev n (w.netdevs n).isSome :: w.calls }

/-! ## `nv_can.c` -/

structure Args where
  dev : Option ℕ
  ifname : Option String
  ops : Option Ops
  priv : Option ℕ
  btc : Option ℕ
  echoSkbMax : ℕ

structure Outcomes where
  allocCandev : Bool
  registerCandev : Option Errno

/-- The `net_device` as it is set up before it is registered. -/
def Args.netDevice (a : Args) (sz : Sizes) (x : ℕ) (ifname : String) : NetDevice where
  sizeofPriv := sz.nvCanNetdevPriv
  echoSkbMax := a.echoSkbMax
  ncan := x
  name := strscpy ifname ifnamsiz
  bittimingConst := a.btc
  ctrlmodeSupported := ctrlmodeLoopback
  visible := false

/-- From `alloc_candev` on. -/
def netdevRegisterChecked (sz : Sizes) (w : World) (x : ℕ) (ifname : String) (a : Args)
    (o : Outcomes) : World × Ret :=
  if !o.allocCandev then (w, .error .ENOMEM)
  else
    let n := w.nextNetdev
    let w := (w.allocCandev (a.netDevice sz x ifname)).modDev x fun d =>
      { d with
        netdev := some n
        ops := a.ops
        priv := a.priv
        bittimingConst := a.btc
        echoSkbMax := a.echoSkbMax }
    match o.registerCandev with
    | some e => ((w.freeCandev n).modDev x fun d => { d with netdev := none }, .error e)
    | none => ((w.registerCandev n).modDev x fun d => { d with registered := true }, .ok ())

def netdevRegister (sz : Sizes) (w : World) (a : Args) (o : Outcomes) : World × Ret :=
  match a.dev, a.ifname, a.ops with
  | some x, some ifname, some ops =>
    if ops .startXmit = false then (w, .error .EINVAL)
    else if (w.dev x).registered then (w, .error .EBUSY)
    else netdevRegisterChecked sz w x ifname a o
  | _, _, _ => (w, .error .EINVAL)

def netdevUnregister (w : World) (dev : Option ℕ) : World :=
  match dev with
  | none => w
  | some x =>
    if (w.dev x).registered then
      match (w.dev x).netdev with
      | none => w
      | some n =>
        ((w.unregisterCandev n).freeCandev n).modDev x fun d =>
          { d with netdev := none, registered := false }
    else w

/-! ## Runs -/

inductive Call
  | register (a : Args) (o : Outcomes)
  | unregister (dev : Option ℕ)

def exec (sz : Sizes) (w : World) : Call → World × Ret
  | .register a o => netdevRegister sz w a o
  | .unregister dev => (netdevUnregister w dev, .ok ())

def step (sz : Sizes) (w : World) (c : Call) : Option World := some (exec sz w c).1

def init : World where
  dev := fun _ =>
    { netdev := none
      ops := none
      priv := none
      bittimingConst := none
      echoSkbMax := 0
      registered := false }
  netdevs := fun _ => none
  nextNetdev := 0
  calls := []

/-! ## Who holds which `net_device` -/

/-- `free_candev` gives a `net_device` back; it and `unregister_candev` need one that is there. -/
def reading : Reading NvCanDev KCall where
  pointer d := .ofOption d.netdev
  mark d := d.registered
  gives
    | .freeCandev m _, n => n = m
    | _, _ => false
  misuse
    | .unregisterCandev _ live => !live
    | .freeCandev _ live => !live
    | _ => false

def custody (w : World) : Custody ℕ := reading.custody w.dev w.netdevs w.nextNetdev w.calls

theorem custody_modDev (w : World) (x : ℕ) (f : NvCanDev → NvCanDev) :
    custody (w.modDev x f) =
      (custody w).place x (.ofOption (f (w.dev x)).netdev) (f (w.dev x)).registered :=
  reading.custody_update w.dev w.netdevs w.nextNetdev w.calls x (f (w.dev x))

theorem custody_allocCandev (w : World) (d : NetDevice) :
    custody (w.allocCandev d) = (custody w).issue :=
  (Reading.custody_skip _ _ _ _ (fun _ => rfl) rfl).trans
    (reading.custody_issue w.dev w.netdevs w.nextNetdev w.calls d)

theorem custody_registerCandev (w : World) (n : ℕ) : custody (w.registerCandev n) = custody w :=
  (Reading.custody_skip _ _ _ _ (fun _ => rfl) rfl).trans
    (reading.custody_modify w.dev w.netdevs w.nextNetdev w.calls n _)

theorem custody_unregisterCandev (w : World) (n : ℕ) :
    custody (w.unregisterCandev n) = (custody w).use n :=
  (reading.custody_modify _ _ _ _ n _).trans
    (Reading.custody_use w.dev w.netdevs w.nextNetdev w.calls (fun _ => rfl) rfl)

theorem custody_freeCandev (w : World) (n : ℕ) :
    custody (w.freeCandev n) = (custody w).release n :=
  Reading.custody_release w.dev w.netdevs w.nextNetdev w.calls (fun _ => rfl) rfl

theorem sound_netdevRegisterChecked {w : World} {x : ℕ} (h : (custody w).Sound)
    (hx : (w.dev x).registered = false) (sz : Sizes) (ifname : String) (a : Args) (o : Outcomes) :
    (custody (netdevRegisterChecked sz w x ifname a o).1).Sound := by
  unfold netdevRegisterChecked
  cases o.allocCandev with
  | false => exact h
  | true =>
    cases o.registerCandev with
    | some e =>
      simp only [Bool.not_true, Bool.false_eq_true, if_false]
      rw [custody_modDev, custody_freeCandev, custody_modDev, custody_allocCandev,
        Custody.release_place, Custody.place_place]
      simp only [World.modDev_dev, World.freeCandev_dev, World.allocCandev_dev,
        Function.update_self, hx]
      exact h.attempt hx
    | none =>
      simp only [Bool.not_true, Bool.false_eq_true, if_false]
      rw [custody_modDev, custody_registerCandev, custody_modDev, custody_allocCandev,
        Custody.place_place]
      simp only [World.modDev_dev, World.registerCandev_dev, World.allocCandev_dev,
        Function.update_self]
      exact h.take hx

theorem sound_netdevRegister {w : World} (h : (custody w).Sound) (sz : Sizes) (a : Args)
    (o : Outcomes) : (custody (netdevRegister sz w a o).1).Sound := by
  unfold netdevRegister
  split
  · rename_i x ifname _ _ _ _
    split
    · exact h
    · cases hx : (w.dev x).registered with
      | true => exact h
      | false => exact sound_netdevRegisterChecked h hx sz ifname a o
  · exact h

theorem sound_netdevUnregister {w : World} (h : (custody w).Sound) (dev : Option ℕ) :
    (custody (netdevUnregister w dev)).Sound := by
  cases dev with
  | none => exact h
  | some x =>
    cases hx : (w.dev x).registered with
    | false => simpa [netdevUnregister, hx] using h
    | true =>
      obtain ⟨n, hn, -⟩ := h.held_of_marked hx
      have hptr : (w.dev x).netdev = some n := Pointer.ofOption_eq_object.mp hn
      simp only [netdevUnregister, hx, if_true, hptr]
      rw [custody_modDev, custody_freeCandev, custody_unregisterCandev]
      exact h.drop hn

theorem sound_step {w w' : World} {sz : Sizes} {c : Call} (h : (custody w).Sound)
    (hs : step sz w c = some w') : (custody w').Sound := by
  obtain rfl : (exec sz w c).1 = w' := Option.some.inj hs
  cases c with
  | register a o => exact sound_netdevRegister h sz a o
  | unregister dev => exact sound_netdevUnregister h dev

theorem sound_throughout (sz : Sizes) (calls : List Call) :
    Throughout (step sz) (fun w => (custody w).Sound) init calls :=
  throughout_of_along (fun _ h => h) (fun _ _ _ h _ hs => sound_step h hs) calls init
    (Custody.sound_initial rfl (fun _ => rfl) (fun _ => rfl) (fun _ => rfl) (fun _ => rfl) rfl)
    (along_true calls init)

end LinuxDriverFramework.NvCan.Netdev
