import LinuxDriverFramework.NvCan.Frames

/-! # Every `sk_buff` is consumed once

`netif_rx` takes the buffer even when it returns `NET_RX_DROP`, and both callers of
`nv_can_rx_skb` free it then.

* `Call.fates`: what one call does with the buffers it brings in.
* `step_buffers`: the ledger after a call is the one before with these entries.
* `settled_iff`: a run leaves the ledger settled just when no backlog overflows in it. -/

namespace LinuxDriverFramework.NvCan
open Foundations
set_option autoImplicit false

variable {W : ℕ}

/-- What is done with a buffer that `nv_can_rx_skb` was called for. -/
def rxFates : NetRx → List Fate
  | .success => [.toStack]
  | .drop => [.toStack, .freed]

def Call.reachesStack : Call → Bool
  | .rxFrame dev cf alloc _ => dev.any (fun d => d.netdev.isSome) && cf.isSome && alloc
  | .transmit netdev _ len o => netdev.isSome && !o.dropped && decide (len ≤ canMtu) && o.alloc

def Call.netifRx : Call → NetRx
  | .rxFrame _ _ _ rx => rx
  | .transmit _ _ _ o => o.rx

/-- The receive backlog is full when the call hands its buffer to the stack. -/
def Call.Overflows (c : Call) : Prop := c.reachesStack = true ∧ c.netifRx = .drop

instance (c : Call) : Decidable c.Overflows := inferInstanceAs (Decidable (_ ∧ _))

/-- The buffers of one call in the order they come into it, with what is done to them. -/
def Call.fates (c : Call) : Ledger Fate :=
  let received := if c.reachesStack then [rxFates c.netifRx] else []
  match c with
  | .rxFrame .. => received
  | .transmit .. => [.freed] :: received

/-! ## One call -/

/-- A buffer is allocated and received: the part that `nv_can_rx_frame` and `demo_start_xmit`
share. -/
theorem received_buffers (w : World W) (n : ℕ) (frame : CanFrame) (rx : NetRx) :
    let r := rxSkb w.issue (some ⟨some n⟩) w.buffers.length frame rx
    (if r.2 = .ok .success then r.1 else r.1.kfreeSkb w.buffers.length).buffers =
      w.buffers ++ [rxFates rx] := by
  have hrx : w.buffers.issue.dispose w.buffers.length .toStack = w.buffers ++ [[.toStack]] :=
    Ledger.dispose_at w.buffers [] [] .toStack
  cases rx with
  | success => exact hrx
  | drop =>
    show (w.buffers.issue.dispose w.buffers.length .toStack).dispose w.buffers.length .freed = _
    rw [hrx]
    exact Ledger.dispose_at w.buffers [] [.toStack] .freed

theorem rxFrame_buffers (w : World W) (dev : Option NvCanDev) (cf : Option CanFrame) (alloc : Bool)
    (rx : NetRx) :
    (rxFrame w dev cf alloc rx).1.buffers = w.buffers ++ (Call.rxFrame dev cf alloc rx).fates := by
  have hnone : w.buffers = w.buffers ++ [] := (List.append_nil _).symm
  cases dev with
  | none => exact hnone
  | some d =>
    cases cf with
    | none =>
      rw [Call.fates, Call.reachesStack, Option.isSome_none, Bool.and_false, Bool.false_and]
      exact hnone
    | some cf =>
      obtain ⟨netdev⟩ := d
      cases netdev with
      | none => exact hnone
      | some n =>
        cases alloc with
        | false => exact hnone
        | true => exact received_buffers w n (memcpyFrame cf canMtu) rx

theorem transmit_freed (w : World W) (data : ℕ → UInt8) (len n : ℕ) (o : XmitOutcomes)
    (h : (Call.transmit (some n) data len o).reachesStack = false) :
    demoStartXmit w.issue ⟨some n⟩ ⟨w.buffers.length, data, len⟩ o =
      w.issue.kfreeSkb w.buffers.length := by
  simp only [demoStartXmit, Option.isNone_some, Bool.false_eq_true, if_false]
  by_cases hdrop : o.dropped = true
  · rw [if_pos hdrop]
  · rw [if_neg hdrop]
    by_cases hlen : canMtu < len
    · rw [if_pos hlen]
    · have hle : len ≤ canMtu := by omega
      have halloc : o.alloc = false := by
        simpa [Call.reachesStack, hdrop, hle] using h
      rw [if_neg hlen, halloc]
      rfl

theorem transmit_echoed (w : World W) (data : ℕ → UInt8) (len n : ℕ) (o : XmitOutcomes)
    (h : (Call.transmit (some n) data len o).reachesStack = true) :
    (demoStartXmit w.issue ⟨some n⟩ ⟨w.buffers.length, data, len⟩ o).buffers =
      w.buffers ++ [[.freed], rxFates o.rx] := by
  obtain ⟨⟨hdrop, hle⟩, halloc⟩ : (o.dropped = false ∧ len ≤ canMtu) ∧ o.alloc = true := by
    simpa [Call.reachesStack] using h
  have hlen : ¬ canMtu < len := by omega
  have hrx := received_buffers w.issue n ((memcpyFrame data len).setLen (CanFrame.len data)) o.rx
  simp only [demoStartXmit, Option.isNone_some, Bool.false_eq_true, if_false, hdrop, if_neg hlen,
    halloc, Bool.not_true, ne_eq, ite_not, World.kfreeSkb_buffers]
  simp only at hrx
  rw [hrx, World.issue_buffers, Ledger.issue, List.append_assoc]
  exact Ledger.dispose_at w.buffers [rxFates o.rx] [] .freed

theorem step_buffers (w : World W) (c : Call) : (step w c).buffers = w.buffers ++ c.fates := by
  cases c with
  | rxFrame dev cf alloc rx => exact rxFrame_buffers w dev cf alloc rx
  | transmit netdev data len o =>
    have hfreed : (w.issue.kfreeSkb w.buffers.length).buffers = w.buffers ++ [[.freed]] :=
      Ledger.dispose_at w.buffers [] [] .freed
    cases netdev with
    | none => exact hfreed
    | some n =>
      show (demoStartXmit w.issue ⟨some n⟩ ⟨w.buffers.length, data, len⟩ o).buffers = _
      cases h : (Call.transmit (some n) data len o).reachesStack with
      | false =>
        rw [transmit_freed w data len n o h, hfreed, Call.fates, h]
        rfl
      | true =>
        rw [transmit_echoed w data len n o h, Call.fates, h]
        rfl

/-- A call disposes of each of its buffers once just when it does not overflow the backlog. -/
theorem settled_fates (c : Call) : c.fates.Settled ↔ ¬ c.Overflows := by
  have hrx : ∀ rx, Ledger.Settled [rxFates rx] ↔ rx ≠ .drop := by
    intro rx
    cases rx <;> decide
  have hfreed : Ledger.Settled [[Fate.freed]] := by decide
  have hreceived : Ledger.Settled (if c.reachesStack then [rxFates c.netifRx] else []) ↔
      ¬ c.Overflows := by
    cases h : c.reachesStack with
    | false => simp [Call.Overflows, h, Ledger.settled_nil]
    | true => simp [Call.Overflows, h, hrx]
  cases c with
  | rxFrame dev cf alloc rx => exact hreceived
  | transmit netdev data len o =>
    refine (Ledger.settled_append [[Fate.freed]] _).trans ?_
    exact (and_iff_right hfreed).trans hreceived

/-- What the stack is handed for a transmission: the bytes of the transmitted frame. -/
theorem transmit_received (w : World W) (data : ℕ → UInt8) (len n : ℕ) (o : XmitOutcomes)
    (h : (Call.transmit (some n) data len o).reachesStack = true) :
    ∃ frame, (step w (.transmit (some n) data len o)).received = frame :: w.received ∧
      frame.len = data lenOffset ∧ ∀ i < len, frame i = data i := by
  obtain ⟨⟨hdrop, hle⟩, halloc⟩ : (o.dropped = false ∧ len ≤ canMtu) ∧ o.alloc = true := by
    simpa [Call.reachesStack] using h
  have hlen : ¬ canMtu < len := by omega
  refine ⟨(memcpyFrame data len).setLen (CanFrame.len data), ?_, ?_, fun i hi => ?_⟩
  · show (demoStartXmit w.issue ⟨some n⟩ ⟨w.buffers.length, data, len⟩ o).received = _
    simp only [demoStartXmit, Option.isNone_some, Bool.false_eq_true, if_false, hdrop, if_neg hlen,
      halloc, Bool.not_true, World.kfreeSkb_received]
    split <;> rfl
  · exact CanFrame.len_setLen _ _
  · show (if i = lenOffset then data lenOffset else if i < len then data i else 0) = data i
    by_cases hi' : i = lenOffset
    · rw [if_pos hi', hi']
    · rw [if_neg hi', if_pos hi]

/-! ## Runs -/

theorem run_settled_iff (w : World W) (calls : List Call) :
    (run w calls).buffers.Settled ↔ w.buffers.Settled ∧ ∀ c ∈ calls, ¬ c.Overflows := by
  induction calls generalizing w with
  | nil => exact ⟨fun h => ⟨h, fun _ hc => absurd hc List.not_mem_nil⟩, fun h => h.1⟩
  | cons c calls ih =>
    show (run (step w c) calls).buffers.Settled ↔ _
    rw [ih, step_buffers, Ledger.settled_append, settled_fates, List.forall_mem_cons, and_assoc]

/-- Every buffer of a run is consumed exactly once just when the stack drops none of the received
ones for a full backlog. -/
theorem settled_iff (W : ℕ) (calls : List Call) :
    (run (.init W) calls).buffers.Settled ↔ ∀ c ∈ calls, ¬ c.Overflows :=
  (run_settled_iff (.init W) calls).trans (and_iff_right Ledger.settled_nil)

/-- A frame received while the backlog is full: handed to the stack, then freed. -/
theorem dropped_frame_freed_twice :
    (run (.init 64) [.rxFrame (some ⟨some 0⟩) (some fun _ => 0) true .drop]).buffers =
      [[.toStack, .freed]] ∧
    ¬ (run (.init 64) [.rxFrame (some ⟨some 0⟩) (some fun _ => 0) true .drop]).buffers.Settled := by
  decide

end LinuxDriverFramework.NvCan
