import LinuxDriverFramework.NvCan.BufferOwnership

/-! # The loopback of `nv_can_demo`

* `Sent`: one buffer that the stack hands to `demo_start_xmit`, with the outcomes it meets.
* `Sent.echoed`, `Sent.frame`: whether the buffer is a classic CAN frame that is received again, and
  that frame.
* `step_echoed`, `step_dropped`: the two ways a transmission can go.
* `run_loopback`: what any sequence of transmissions leaves. -/

namespace LinuxDriverFramework.NvCan
open Foundations
set_option autoImplicit false

def canfdMtu : ℕ := 72

structure Sent where
  data : ℕ → UInt8
  len : ℕ
  o : XmitOutcomes

def Sent.call (netdev : ℕ) (s : Sent) : Call := .transmit (some netdev) s.data s.len s.o

/-- What the kernel promises: `netif_rx` has room, and `can_dev_dropped_skb` lets only well-formed
CAN and CAN FD buffers through. -/
structure Sent.WellFormed (s : Sent) : Prop where
  accepted : s.o.rx = .success
  checked : s.o.dropped = false → s.len = canMtu ∨ s.len = canfdMtu

/-- A classic CAN frame that is transmitted, with a buffer to receive it in. -/
def Sent.echoed (s : Sent) : Bool := !s.o.dropped && s.len == canMtu && s.o.alloc

/-- All bytes of the `struct can_frame`: identifier, length and data. -/
def Sent.frame (s : Sent) : CanFrame := memcpyFrame s.data canMtu

/-- The frames that come back, oldest first. -/
def echoes (sent : List Sent) : List CanFrame := (sent.filter Sent.echoed).map Sent.frame

theorem Sent.reachesStack_call {s : Sent} (h : s.WellFormed) (netdev : ℕ) :
    (s.call netdev).reachesStack = s.echoed := by
  cases hdrop : s.o.dropped with
  | true => simp [Sent.call, Call.reachesStack, Sent.echoed, hdrop]
  | false =>
    have hle : decide (s.len ≤ canMtu) = (s.len == canMtu) := by
      rcases h.checked hdrop with hlen | hlen <;> rw [hlen] <;> decide
    simp only [Sent.call, Call.reachesStack, Sent.echoed, hdrop, hle, Option.isSome_some,
      Bool.not_false, Bool.true_and]

/-- The length is set to what the copy has brought already. -/
theorem memcpyFrame_setLen (data : ℕ → UInt8) :
    (memcpyFrame data canMtu).setLen (CanFrame.len data) = memcpyFrame data canMtu := by
  funext i
  unfold CanFrame.setLen
  split
  · rename_i hi
    rw [hi]
    rfl
  · rfl

/-! ## One transmission -/

section Step

variable {W : ℕ} (w : World W) (netdev : ℕ) {s : Sent}

theorem step_echoed (h : s.WellFormed) (he : s.echoed = true) :
    let w' := step w (s.call netdev)
    w'.received = s.frame :: w.received ∧ w'.txPackets = w.txPackets + 1 ∧
      w'.txBytes = w.txBytes + BitVec.ofNat W s.frame.len.toNat := by
  obtain ⟨⟨hdrop, hlen⟩, halloc⟩ : (s.o.dropped = false ∧ s.len = canMtu) ∧ s.o.alloc = true := by
    simpa [Sent.echoed] using he
  have hfits : ¬ canMtu < canMtu := Nat.lt_irrefl canMtu
  have hstep : step w (s.call netdev) =
      demoStartXmit w.issue ⟨some netdev⟩ ⟨w.buffers.length, s.data, s.len⟩ s.o := rfl
  simp only [hstep, demoStartXmit, Option.isNone_some, Bool.false_eq_true, if_false, hdrop, hlen,
    hfits, halloc, Bool.not_true, h.accepted, rxSkb, ne_eq, not_true_eq_false, memcpyFrame_setLen]
  exact ⟨rfl, rfl, rfl⟩

theorem step_dropped (h : s.WellFormed) (he : s.echoed = false) :
    let w' := step w (s.call netdev)
    w'.received = w.received ∧ w'.txPackets = w.txPackets ∧ w'.txBytes = w.txBytes := by
  have hstep : step w (s.call netdev) =
      demoStartXmit w.issue ⟨some netdev⟩ ⟨w.buffers.length, s.data, s.len⟩ s.o := rfl
  have hfreed := transmit_freed w s.data s.len netdev s.o
    ((Sent.reachesStack_call h netdev).trans he)
  simp only [hstep, hfreed]
  exact ⟨rfl, rfl, rfl⟩

end Step

/-! ## Any sequence of transmissions -/

theorem echoes_cons (s : Sent) (sent : List Sent) :
    echoes (s :: sent) = if s.echoed then s.frame :: echoes sent else echoes sent := by
  unfold echoes
  cases he : s.echoed with
  | true => rw [List.filter_cons_of_pos he, List.map_cons, if_pos rfl]
  | false =>
    rw [List.filter_cons_of_neg (by rw [he]; exact Bool.false_ne_true), if_neg Bool.false_ne_true]

/-- The sum of the lengths. -/
def lengths (frames : List CanFrame) : ℕ := (frames.map fun f => f.len.toNat).sum

/-- The frames delivered are the classic frames transmitted, in order and once each, and the
statistics count just these, in the arithmetic of an `unsigned long`. -/
theorem run_loopback {W : ℕ} (w : World W) (netdev : ℕ) (sent : List Sent)
    (h : ∀ s ∈ sent, s.WellFormed) :
    let w' := run w (sent.map (Sent.call netdev))
    w'.received.reverse = w.received.reverse ++ echoes sent ∧
      w'.txPackets = w.txPackets + BitVec.ofNat W (echoes sent).length ∧
      w'.txBytes = w.txBytes + BitVec.ofNat W (lengths (echoes sent)) := by
  induction sent generalizing w with
  | nil => exact ⟨(List.append_nil _).symm, (BitVec.add_zero _).symm, (BitVec.add_zero _).symm⟩
  | cons s sent ih =>
    obtain ⟨hs, hsent⟩ := List.forall_mem_cons.mp h
    obtain ⟨hreceived, hpackets, hbytes⟩ := ih (step w (s.call netdev)) hsent
    have hrun : run w ((s :: sent).map (Sent.call netdev)) =
        run (step w (s.call netdev)) (sent.map (Sent.call netdev)) := rfl
    simp only [hrun, hreceived, hpackets, hbytes, echoes_cons]
    cases he : s.echoed with
    | true =>
      obtain ⟨hreceived, hpackets, hbytes⟩ := step_echoed w netdev hs he
      have hlengths : lengths (s.frame :: echoes sent) =
          s.frame.len.toNat + lengths (echoes sent) := by
        rw [lengths, List.map_cons, List.sum_cons, lengths]
      rw [hreceived, hpackets, hbytes, if_pos rfl, List.reverse_cons, List.append_assoc,
        List.length_cons, hlengths, Nat.add_comm _ 1, BitVec.ofNat_add, BitVec.ofNat_add,
        BitVec.add_assoc, BitVec.add_assoc]
      exact ⟨rfl, rfl, rfl⟩
    | false =>
      obtain ⟨hreceived, hpackets, hbytes⟩ := step_dropped w netdev hs he
      rw [hreceived, hpackets, hbytes, if_neg Bool.false_ne_true]
      exact ⟨rfl, rfl, rfl⟩

/-- A buffer that is not echoed changes nothing; the others are delivered and counted as above. -/
theorem loopback_exact (W : ℕ) (w : World W) (netdev : ℕ) (sent : List Sent)
    (h : ∀ s ∈ sent, s.WellFormed) :
    (let w' := run w (sent.map (Sent.call netdev))
     w'.received.reverse = w.received.reverse ++ echoes sent ∧
       w'.txPackets = w.txPackets + BitVec.ofNat W (echoes sent).length ∧
       w'.txBytes = w.txBytes + BitVec.ofNat W (lengths (echoes sent))) ∧
    ∀ s ∈ sent, s.echoed = false → ∀ v : World W,
      (step v (s.call netdev)).received = v.received ∧
        (step v (s.call netdev)).txPackets = v.txPackets ∧
        (step v (s.call netdev)).txBytes = v.txBytes :=
  ⟨run_loopback w netdev sent h, fun s hs he v => step_dropped v netdev (h s hs) he⟩

/-- A frame, a CAN FD frame, one without a buffer, and a frame again. -/
def mixedStream : List Sent :=
  [⟨fun i => if i = lenOffset then 8 else 1, canMtu, ⟨false, true, .success⟩⟩,
   ⟨fun _ => 2, canfdMtu, ⟨false, true, .success⟩⟩,
   ⟨fun _ => 3, canMtu, ⟨false, false, .success⟩⟩,
   ⟨fun _ => 4, canMtu, ⟨false, true, .success⟩⟩]

theorem mixedStream_wellFormed : ∀ s ∈ mixedStream, s.WellFormed := by
  intro s hs
  simp only [mixedStream, List.mem_cons, List.not_mem_nil, or_false] at hs
  rcases hs with rfl | rfl | rfl | rfl <;> exact ⟨rfl, fun _ => by decide⟩

/-- The byte counter of a 32-bit kernel wraps in the stream above. -/
def nearlyFull : World 32 := { World.init 32 with txBytes := 0xfffffff8 }

theorem loopback_exact_mixed :
    (let w' := run nearlyFull (mixedStream.map (Sent.call 0))
     w'.received.reverse = nearlyFull.received.reverse ++ echoes mixedStream ∧
       w'.txPackets = nearlyFull.txPackets + BitVec.ofNat 32 (echoes mixedStream).length ∧
       w'.txBytes = nearlyFull.txBytes + BitVec.ofNat 32 (lengths (echoes mixedStream))) ∧
    ∀ s ∈ mixedStream, s.echoed = false → ∀ v : World 32,
      (step v (s.call 0)).received = v.received ∧
        (step v (s.call 0)).txPackets = v.txPackets ∧
        (step v (s.call 0)).txBytes = v.txBytes :=
  loopback_exact 32 nearlyFull 0 mixedStream mixedStream_wellFormed

end LinuxDriverFramework.NvCan
