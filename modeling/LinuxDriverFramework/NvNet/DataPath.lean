import LinuxDriverFramework.Foundations.Histories
import LinuxDriverFramework.Foundations.Runs
import LinuxDriverFramework.NvNet.ChangeMtu
import Mathlib.Data.BitVec

/-! # The data path of an interface

`nv_net_open`, `nv_net_stop`, `nv_net_start_xmit` and `nv_net_get_stats64` of `nv_net.c`, with the
callbacks of `nv_net_dummy` where the interface has one. Transmissions hold the lock of the only
queue; the statistics are read without it.

* `Skb`, `Stats`, `World`: the buffers, `netdev->stats`, and the interface with its CPUs.
* `Pc`, `step`: where a CPU stands, one access to the statistics a step.
* `Flow`: the invariant. -/

namespace LinuxDriverFramework.NvNet.DataPath
open Foundations History
set_option autoImplicit false

structure Skb where
  id : ℕ
  len : BitVec 32
  deriving DecidableEq

/-- The members of `netdev->stats` that are ever written; `W` is the width of an
`unsigned long`. -/
structure Stats (W : ℕ) where
  txPackets : BitVec W
  txBytes : BitVec W
  deriving DecidableEq

/-- One result of `nv_net_get_stats64`: how many buffers had been freed when the call began, and how
many had been handed over when it returned. -/
structure Report where
  since : ℕ
  upTo : ℕ
  txPackets : BitVec 64
  txBytes : BitVec 64
  deriving DecidableEq

inductive Pc (W : ℕ)
  | idle
  | startXmit (skb : Skb)
  | loadPackets (skb : Skb)
  | storePackets (skb : Skb) (v : BitVec W)
  | loadBytes (skb : Skb)
  | storeBytes (skb : Skb) (v : BitVec W)
  | kfree (skb : Skb)
  | xmitReturn
  | getStats (since : ℕ)
  | copyPackets (since : ℕ)
  | copyBytes (since : ℕ) (txPackets : BitVec 64)
  deriving DecidableEq

structure World (ι : Type) (W : ℕ) where
  /-- `IFF_UP` -/
  up : Bool
  /-- `__QUEUE_STATE_DRV_XOFF` of the queue -/
  queueStopped : Bool
  /-- the CPU that holds the queue's `_xmit_lock` -/
  txLock : Option ι
  stats : Stats W
  pc : ι → Pc W
  /-- the buffers given to `ndo_start_xmit` -/
  handed : List Skb
  /-- the calls of `dev_kfree_skb` -/
  freed : List Skb
  reports : List Report

/-- An interface that was just registered. -/
def World.registered (ι : Type) (W : ℕ) : World ι W where
  up := false
  queueStopped := false
  txLock := none
  stats := ⟨0, 0⟩
  pc := fun _ => .idle
  handed := []
  freed := []
  reports := []

/-! ## The functions -/

section Functions

variable {ι : Type} {W : ℕ}

def netifStartQueue (w : World ι W) : World ι W := { w with queueStopped := false }

def netifStopQueue (w : World ι W) : World ι W := { w with queueStopped := true }

def dummyOpen (w : World ι W) : World ι W := netifStartQueue w

def dummyStop (w : World ι W) : World ι W := netifStopQueue w

def nvNetOpen (ops : Option Ops) (w : World ι W) : World ι W :=
  if provides ops .opOpen then dummyOpen w else netifStartQueue w

def nvNetStop (ops : Option Ops) (w : World ι W) : World ι W :=
  if provides ops .opStop then dummyStop w else netifStopQueue w

variable [DecidableEq ι]

def World.goto (w : World ι W) (t : ι) (p : Pc W) : World ι W :=
  { w with pc := Function.update w.pc t p }

/-- The beginning of `nv_net_start_xmit`: `dummy_xmit`, or the buffer is freed. -/
def nvNetStartXmit (ops : Option Ops) (skb : Skb) : Pc W :=
  if provides ops .startXmit then .loadPackets skb else .kfree skb

/-- `dummy_get_stats64` and the end of `nv_net_get_stats64` make the same call. -/
def nvNetGetStats64 (ops : Option Ops) (since : ℕ) : Pc W :=
  if provides ops .getStats64 then .copyPackets since else .copyPackets since

/-- A CPU goes on inside a callback of the interface. -/
def advance (ops : Option Ops) (w : World ι W) (t : ι) : Option (World ι W) :=
  match w.pc t with
  | .idle => none
  | .startXmit skb => some (w.goto t (nvNetStartXmit ops skb))
  | .loadPackets skb => some (w.goto t (.storePackets skb w.stats.txPackets))
  | .storePackets skb v =>
    some ({ w with stats := { w.stats with txPackets := v + 1 } }.goto t (.loadBytes skb))
  | .loadBytes skb => some (w.goto t (.storeBytes skb w.stats.txBytes))
  | .storeBytes skb v =>
    some ({ w with stats := { w.stats with txBytes := v + skb.len.setWidth W } }.goto t (.kfree skb))
  | .kfree skb => some ({ w with freed := w.freed ++ [skb] }.goto t .xmitReturn)
  | .xmitReturn => some ({ w with txLock := none }.goto t .idle)
  | .getStats since => some (w.goto t (nvNetGetStats64 ops since))
  | .copyPackets since => some (w.goto t (.copyBytes since (w.stats.txPackets.setWidth 64)))
  | .copyBytes since p =>
    let report : Report := ⟨since, w.handed.length, p, w.stats.txBytes.setWidth 64⟩
    some ({ w with reports := w.reports ++ [report] }.goto t .idle)

/-- `dev_hard_start_xmit` under the lock of the queue. -/
def hardStartXmit (w : World ι W) (t : ι) (skb : Skb) : Option (World ι W) :=
  match w.pc t, w.txLock with
  | .idle, none =>
    if w.up && !w.queueStopped then
      some ({ w with txLock := some t, handed := w.handed ++ [skb] }.goto t (.startXmit skb))
    else none
  | _, _ => none

def devGetStats (w : World ι W) (t : ι) : Option (World ι W) :=
  match w.pc t with
  | .idle => some (w.goto t (.getStats w.freed.length))
  | _ => none

inductive Label (ι : Type)
  | devOpen
  | devClose
  | hardStartXmit (t : ι) (skb : Skb)
  | devGetStats (t : ι)
  | advance (t : ι)

/-- A close does not wait for the CPU that is transmitting. -/
def step (ops : Option Ops) (w : World ι W) : Label ι → Option (World ι W)
  | .devOpen => if w.up then none else some { nvNetOpen ops w with up := true }
  | .devClose => if w.up then some { nvNetStop ops w with up := false } else none
  | .hardStartXmit t skb => DataPath.hardStartXmit w t skb
  | .devGetStats t => DataPath.devGetStats w t
  | .advance t => DataPath.advance ops w t

end Functions

/-! ## Where a transmission stands -/

section Holder

variable {W : ℕ}

def Pc.transmits : Pc W → Bool
  | .idle | .getStats _ | .copyPackets _ | .copyBytes _ _ => false
  | _ => true

/-- The buffer that is not freed yet. -/
def Pc.frames : Pc W → List Skb
  | .startXmit skb | .loadPackets skb | .storePackets skb _ | .loadBytes skb | .storeBytes skb _
  | .kfree skb => [skb]
  | _ => []

/-- The buffers that are counted but not freed. -/
def Pc.packetsAhead : Pc W → ℕ
  | .loadBytes _ | .storeBytes _ _ | .kfree _ => 1
  | _ => 0

def Pc.bytesAhead : Pc W → ℕ
  | .kfree _ => 1
  | _ => 0

theorem Pc.ahead_le (p : Pc W) :
    p.bytesAhead ≤ p.packetsAhead ∧ p.packetsAhead ≤ p.bytesAhead + 1 ∧
      p.packetsAhead ≤ p.frames.length := by
  cases p <;> simp [bytesAhead, packetsAhead, frames]

def World.holder {ι : Type} (w : World ι W) : Pc W :=
  match w.txLock with
  | some t => w.pc t
  | none => .idle

def World.packetsIn {ι : Type} (w : World ι W) : ℕ := w.freed.length + w.holder.packetsAhead

def World.bytesIn {ι : Type} (w : World ι W) : ℕ := w.freed.length + w.holder.bytesAhead

end Holder

/-! ## What the statistics count -/

section Weights

variable (W : ℕ) (ops : Option Ops)

/-- An interface without `start_xmit` counts nothing. -/
def packetWeight (_ : Skb) : BitVec W := if provides ops .startXmit then 1 else 0

def byteWeight (skb : Skb) : BitVec W := if provides ops .startXmit then skb.len.setWidth W else 0

end Weights

/-! ## The invariant -/

section Invariant

variable {ι : Type} {W : ℕ} (ops : Option Ops)

/-- What a transmission has loaded is still there. -/
def HolderAt (stats : Stats W) : Pc W → Prop
  | .loadPackets _ | .loadBytes _ => provides ops .startXmit = true
  | .storePackets _ v => provides ops .startXmit = true ∧ v = stats.txPackets
  | .storeBytes _ v => provides ops .startXmit = true ∧ v = stats.txBytes
  | _ => True

/-- What a reader has copied is a count of some moment since it began. -/
def ReaderAt (w : World ι W) : Pc W → Prop
  | .getStats since | .copyPackets since => since ≤ w.freed.length
  | .copyBytes since p => ∃ i, since ≤ i ∧ i ≤ w.packetsIn ∧ since ≤ w.freed.length ∧
      p = (total (packetWeight W ops) w.handed i).setWidth 64
  | _ => True

/-- The report gives the totals of two moments of the call. -/
def Reports (handed : List Skb) (r : Report) : Prop :=
  ∃ packets bytes, CopiedBetween (packetWeight W ops) (byteWeight W ops) handed r.since r.upTo
    packets bytes ∧ r.txPackets = packets.setWidth 64 ∧ r.txBytes = bytes.setWidth 64

structure Flow (w : World ι W) : Prop where
  running : w.up = true → w.queueStopped = false
  lock_iff : ∀ t, w.txLock = some t ↔ (w.pc t).transmits = true
  handed_eq : w.handed = w.freed ++ w.holder.frames
  packets : w.stats.txPackets = total (packetWeight W ops) w.handed w.packetsIn
  bytes : w.stats.txBytes = total (byteWeight W ops) w.handed w.bytesIn
  holder_at : HolderAt ops w.stats w.holder
  reader_at : ∀ t, ReaderAt ops w (w.pc t)
  reports : ∀ r ∈ w.reports, r.upTo ≤ w.handed.length ∧ Reports (W := W) ops w.handed r

end Invariant

end LinuxDriverFramework.NvNet.DataPath
