import LinuxDriverFramework.Foundations.Ledger
import LinuxDriverFramework.Kernel.Base
import Mathlib.Data.BitVec
import Mathlib.Tactic.Simps.Basic

/-! # `nv_can`: frames and their `sk_buff`s

`nv_can_rx_skb`, `nv_can_rx_frame` and `nv_can_start_xmit` of `nv_can.c`, and `demo_start_xmit` of
`nv_can_demo.c`.

* `SkBuff`: a buffer by its number in the ledger, with the memory behind `skb->data`.
* `Fate`: what can be done with a buffer.
* `World`: the ledger of all buffers, the frames that the stack was handed, and the statistics.
* `Call`: one call from outside, with the outcomes of the kernel functions it reaches. -/

namespace LinuxDriverFramework.NvCan
open Foundations
set_option autoImplicit false

/-- `CAN_MTU`, the size of a `struct can_frame`. -/
def canMtu : ℕ := 16

/-- The bytes of a `struct can_frame`. -/
abbrev CanFrame := ℕ → UInt8

/-- Where `len` stands in a `struct can_frame`. -/
def lenOffset : ℕ := 4

def CanFrame.len (f : CanFrame) : UInt8 := f lenOffset

structure SkBuff where
  id : ℕ
  data : ℕ → UInt8
  len : ℕ

inductive Fate
  | freed
  | toStack
  deriving DecidableEq, Repr

/-- What `netif_rx` returns. The buffer is the stack's in both cases. -/
inductive NetRx
  | success
  | drop
  deriving DecidableEq, Repr

/-- `W` is the width of an `unsigned long`, the type of the counters in `netdev->stats`. -/
structure World (W : ℕ) where
  buffers : Ledger Fate
  /-- newest first -/
  received : List CanFrame
  txPackets : BitVec W
  txBytes : BitVec W

/-- `struct nv_can_dev`, as far as these functions look at it. -/
structure NvCanDev where
  netdev : Option ℕ
  deriving DecidableEq, Repr

variable {W : ℕ}

/-! ## Kernel functions -/

/-- A new buffer; its number is the number of buffers so far. -/
@[simps] def World.issue (w : World W) : World W := { w with buffers := w.buffers.issue }

@[simps] def World.kfreeSkb (w : World W) (skb : ℕ) : World W :=
  { w with buffers := w.buffers.dispose skb .freed }

@[simps] def World.netifRx (w : World W) (skb : ℕ) (frame : CanFrame) : World W :=
  { w with buffers := w.buffers.dispose skb .toStack, received := frame :: w.received }

/-- `memcpy(rxf, from, len)` into the zeroed frame that `alloc_can_skb` returns. -/
def memcpyFrame (src : ℕ → UInt8) (len : ℕ) : CanFrame := fun i => if i < len then src i else 0

def CanFrame.setLen (f : CanFrame) (len : UInt8) : CanFrame :=
  fun i => if i = lenOffset then len else f i

@[simp] theorem CanFrame.len_setLen (f : CanFrame) (len : UInt8) : (f.setLen len).len = len := by
  simp only [CanFrame.len, CanFrame.setLen, if_true]

/-! ## `nv_can.c` -/

/-- `nv_can_rx_skb`, for a buffer that is there. -/
def rxSkb (w : World W) (dev : Option NvCanDev) (skb : ℕ) (frame : CanFrame) (rx : NetRx) :
    World W × Except Errno NetRx :=
  match dev with
  | none => (w, .error .EINVAL)
  | some d =>
    if d.netdev.isNone then (w, .error .EINVAL)
    else (w.netifRx skb frame, .ok rx)

def rxFrame (w : World W) (dev : Option NvCanDev) (cf : Option CanFrame) (alloc : Bool)
    (rx : NetRx) : World W × Except Errno NetRx :=
  match dev, cf with
  | some d, some cf =>
    if d.netdev.isNone then (w, .error .EINVAL)
    else if !alloc then (w, .error .ENOMEM)
    else
      let skb := w.buffers.length
      let (w, ret) := rxSkb w.issue (some d) skb (memcpyFrame cf canMtu) rx
      -- any result but `NET_RX_SUCCESS` is taken for a failure
      (if ret = .ok .success then w else w.kfreeSkb skb, ret)
  | _, _ => (w, .error .EINVAL)

/-- The outcomes of `can_dev_dropped_skb`, `alloc_can_skb` and `netif_rx` in a transmission. -/
structure XmitOutcomes where
  dropped : Bool
  alloc : Bool
  rx : NetRx
  deriving DecidableEq, Repr

/-- `ops->start_xmit`. It returns `NETDEV_TX_OK` on every path of the code here. -/
abbrev StartXmit (W : ℕ) := World W → NvCanDev → SkBuff → XmitOutcomes → World W

/-- `nv_can_start_xmit`; the device and its callback if they are there. -/
def startXmit (w : World W) (ncan : Option (NvCanDev × Option (StartXmit W))) (skb : SkBuff)
    (o : XmitOutcomes) : World W :=
  match ncan with
  | some (dev, some op) => op w dev skb o
  | _ => w.kfreeSkb skb.id

/-! ## `nv_can_demo.c` -/

def demoStartXmit : StartXmit W := fun w dev skb o =>
  if dev.netdev.isNone then w.kfreeSkb skb.id
  else if o.dropped then w.kfreeSkb skb.id -- by `can_dev_dropped_skb`
  else if canMtu < skb.len then w.kfreeSkb skb.id
  else if !o.alloc then w.kfreeSkb skb.id
  else
    let rxskb := w.buffers.length
    let cf : CanFrame := skb.data
    let rxf := (memcpyFrame cf skb.len).setLen cf.len
    let (w, ret) := rxSkb w.issue (some dev) rxskb rxf o.rx
    let w := if ret ≠ .ok .success then w.kfreeSkb rxskb else w
    let w := { w with
      txPackets := w.txPackets + 1
      txBytes := w.txBytes + BitVec.ofNat W cf.len.toNat }
    w.kfreeSkb skb.id

/-! ## Runs -/

inductive Call
  | rxFrame (dev : Option NvCanDev) (cf : Option CanFrame) (alloc : Bool) (rx : NetRx)
  /-- the stack hands over a buffer with this memory and length -/
  | transmit (netdev : Option ℕ) (data : ℕ → UInt8) (len : ℕ) (o : XmitOutcomes)

/-- The device of `nv_can_demo`, whose `ops` have `start_xmit`. -/
def demoDev (netdev : Option ℕ) : Option (NvCanDev × Option (StartXmit W)) :=
  some (⟨netdev⟩, some demoStartXmit)

def step (w : World W) : Call → World W
  | .rxFrame dev cf alloc rx => (rxFrame w dev cf alloc rx).1
  | .transmit netdev data len o =>
    startXmit w.issue (demoDev netdev) ⟨w.buffers.length, data, len⟩ o

def World.init (W : ℕ) : World W := ⟨[], [], 0, 0⟩

def run (w : World W) (calls : List Call) : World W := calls.foldl step w

end LinuxDriverFramework.NvCan
