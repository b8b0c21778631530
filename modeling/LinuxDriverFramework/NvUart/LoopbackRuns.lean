import LinuxDriverFramework.Foundations.Runs
import LinuxDriverFramework.NvUart.Loopback

/-! # An open loopback tty over whole runs

The tty writes into the fifo of the port and starts `demo_start_tx`, which moves the fifo to the
receive buffer; the line discipline empties that buffer. The transmission may be stopped and started
again, also in the middle of a loop.

* `Tty`, `step`: the port, and what has gone in, through and out of it.
* `Conserved`: the account of all bytes, which every run keeps.
* `lossless_iff`: a run delivers every byte that leaves the fifo just when the receive buffer has
  space for all that each transmission moves. -/

namespace LinuxDriverFramework.NvUart.Chars
open Foundations
set_option autoImplicit false

structure Tty where
  port : NvUartPort
  /-- `uart_tx_stopped` -/
  stopped : Bool
  /-- what `uart_write` took from its callers -/
  accepted : List UInt8
  /-- what has left the fifo -/
  moved : List UInt8
  /-- what the line discipline was given, with the flags -/
  delivered : List (UInt8 × UInt8)

/-- `stopAfter` says whether the transmission is stopped while `demo_start_tx` runs. -/
inductive TtyEvent
  | write (bytes : List UInt8) (stopAfter : Option ℕ)
  | stop
  | start (stopAfter : Option ℕ)
  | deliver (n : ℕ)

/-- A port right after its startup, with buffers of these sizes. -/
def Tty.opened (capacity : ℕ) : Tty := ⟨⟨some ⟨⟨[], capacity⟩, []⟩⟩, false, [], [], []⟩

section Step

variable (core : UartCore) (fifoSize : ℕ)

/-- `__uart_start` of a port that is not stopped. -/
def Tty.transmit (t : Tty) (stopAfter : Option ℕ) : Tty :=
  match t.port.state with
  | none => t
  | some st =>
    { t with
      port := demoStartTx core stopAfter t.port
      stopped := stopAfter.isSome
      moved := t.moved ++ st.fifo.take (taken stopAfter 0 st.fifo.length) }

/-- `uart_write`: as many bytes as the fifo has space for. -/
def Tty.write (t : Tty) (bytes : List UInt8) (stopAfter : Option ℕ) : Tty :=
  match t.port.state with
  | none => t
  | some st =>
    let taken := bytes.take (fifoSize - st.fifo.length)
    let t := { t with
      port := ⟨some { st with fifo := st.fifo ++ taken }⟩, accepted := t.accepted ++ taken }
    if t.stopped then t else t.transmit core stopAfter

/-- The line discipline takes characters, which makes space again. -/
def Tty.deliver (t : Tty) (n : ℕ) : Tty :=
  match t.port.state with
  | none => t
  | some st =>
    let out := st.rx.chars.take n
    { t with
      port := ⟨some { st with rx := ⟨st.rx.chars.drop n, st.rx.room + out.length⟩ }⟩
      delivered := t.delivered ++ out }

def ttyStep (t : Tty) : TtyEvent → Option Tty
  | .write bytes stopAfter => some (t.write core fifoSize bytes stopAfter)
  | .stop => some { t with stopped := true }
  | .start stopAfter => some (t.transmit core stopAfter)
  | .deliver n => some (t.deliver n)

end Step

/-! ## The account -/

/-- What has arrived on the receiving side, read or not. -/
def Tty.arrived (t : Tty) : List (UInt8 × UInt8) :=
  t.delivered ++ (t.port.state.map fun st => st.rx.chars).getD []

structure Conserved (capacity fifoSize : ℕ) (t : Tty) (st : UartState) : Prop where
  state : t.port.state = some st
  /-- nothing is lost before the fifo -/
  fifo : t.accepted = t.moved ++ st.fifo
  fifo_size : st.fifo.length ≤ fifoSize
  room : st.rx.room + st.rx.chars.length = capacity
  /-- what arrives was sent, in this order -/
  order : (t.arrived.map (·.1)).Sublist t.moved
  flag : ∀ c ∈ t.arrived, c.2 = ttyBreak
  /-- a transmission that is not stopped leaves nothing behind -/
  drained : t.stopped = false → st.fifo = []

theorem conserved_opened (capacity fifoSize : ℕ) :
    Conserved capacity fifoSize (Tty.opened capacity) ⟨⟨[], capacity⟩, []⟩ where
  state := rfl
  fifo := rfl
  fifo_size := Nat.zero_le fifoSize
  room := rfl
  order := List.Sublist.refl []
  flag := fun _ h => by cases h
  drained := fun _ => rfl

section Account

variable {core : UartCore} {capacity fifoSize : ℕ} {t : Tty} {st : UartState}

theorem arrived_eq (h : t.port.state = some st) : t.arrived = t.delivered ++ st.rx.chars := by
  simp [Tty.arrived, h]

/-- The bytes that a transmission takes from the fifo. -/
def UartState.outgoing (st : UartState) (stopAfter : Option ℕ) : List UInt8 :=
  st.fifo.take (taken stopAfter 0 st.fifo.length)

theorem transmit_state (h : t.port.state = some st) (stopAfter : Option ℕ) :
    (t.transmit core stopAfter).port.state = some (sentState stopAfter st) := by
  have hport : t.port = ⟨some st⟩ := congrArg NvUartPort.mk h
  simp only [Tty.transmit, h]
  rw [hport, demoStartTx_open]
  rfl

variable (core) in
theorem transmit_eq (h : t.port.state = some st) (stopAfter : Option ℕ) :
    (t.transmit core stopAfter).moved = t.moved ++ st.outgoing stopAfter ∧
      (t.transmit core stopAfter).accepted = t.accepted ∧
      (t.transmit core stopAfter).delivered = t.delivered ∧
      (t.transmit core stopAfter).stopped = stopAfter.isSome := by
  simp [Tty.transmit, h, UartState.outgoing]

/-- A transmission adds to what has arrived as much of its bytes as there is space for. -/
theorem transmit_arrived (h : t.port.state = some st) (stopAfter : Option ℕ) :
    (t.transmit core stopAfter).arrived =
      t.arrived ++ ((st.outgoing stopAfter).take st.rx.room).map (·, ttyBreak) := by
  rw [arrived_eq (transmit_state h stopAfter), arrived_eq h, (transmit_eq core h stopAfter).2.2.1,
    sentState, insertAll_chars, List.append_assoc]
  rfl

theorem map_fst_arrived (h : t.port.state = some st) (stopAfter : Option ℕ) :
    (t.transmit core stopAfter).arrived.map (·.1) =
      t.arrived.map (·.1) ++ (st.outgoing stopAfter).take st.rx.room := by
  rw [transmit_arrived h, List.map_append, map_fst_flag]

theorem Conserved.transmit (hc : Conserved capacity fifoSize t st) (stopAfter : Option ℕ) :
    Conserved capacity fifoSize (t.transmit core stopAfter) (sentState stopAfter st) := by
  obtain ⟨hmoved, haccepted, -, hstopped⟩ := transmit_eq core hc.state stopAfter
  refine ⟨transmit_state hc.state stopAfter, ?_, ?_, ?_, ?_, ?_, ?_⟩
  · rw [haccepted, hmoved, hc.fifo, List.append_assoc]
    congr 1
    exact (List.take_append_drop _ _).symm
  · exact (List.drop_sublist _ st.fifo).length_le.trans hc.fifo_size
  · have hroom := hc.room
    simp only [sentState, insertAll_eq, List.length_append, List.length_map, List.length_take]
    omega
  · rw [map_fst_arrived hc.state, hmoved]
    exact hc.order.append (List.take_sublist _ _)
  · intro c hmem
    rw [transmit_arrived hc.state] at hmem
    rcases List.mem_append.mp hmem with hold | hnew
    · exact hc.flag c hold
    · obtain ⟨ch, -, rfl⟩ := List.mem_map.mp hnew
      rfl
  · intro hs
    rw [hstopped] at hs
    cases stopAfter with
    | none => exact List.drop_length
    | some n => cases hs

theorem Conserved.deliver (hc : Conserved capacity fifoSize t st) (n : ℕ) :
    ∃ st', Conserved capacity fifoSize (t.deliver n) st' := by
  have harr : (t.deliver n).arrived = t.arrived := by
    rw [arrived_eq hc.state]
    simp [Tty.arrived, Tty.deliver, hc.state, List.append_assoc]
  refine ⟨⟨⟨st.rx.chars.drop n, st.rx.room + (st.rx.chars.take n).length⟩, st.fifo⟩,
    by simp only [Tty.deliver, hc.state], ?_, hc.fifo_size, ?_, ?_, ?_, ?_⟩
  · simp only [Tty.deliver, hc.state]
    exact hc.fifo
  · have hroom := hc.room
    simp only [List.length_take, List.length_drop]
    omega
  · rw [harr]
    simp only [Tty.deliver, hc.state]
    exact hc.order
  · rw [harr]
    exact hc.flag
  · simp only [Tty.deliver, hc.state]
    exact hc.drained

/-- The fifo after `uart_write`, before anything is transmitted. -/
def Tty.queue (fifoSize : ℕ) (t : Tty) (st : UartState) (bytes : List UInt8) : Tty × UartState :=
  let taken := bytes.take (fifoSize - st.fifo.length)
  let st' := { st with fifo := st.fifo ++ taken }
  ({ t with port := ⟨some st'⟩, accepted := t.accepted ++ taken, stopped := true }, st')

theorem Conserved.queue (hc : Conserved capacity fifoSize t st) (bytes : List UInt8) :
    Conserved capacity fifoSize (t.queue fifoSize st bytes).1 (t.queue fifoSize st bytes).2 where
  state := rfl
  fifo := by
    simp only [Tty.queue, hc.fifo, List.append_assoc]
  fifo_size := by
    have hle := hc.fifo_size
    simp only [Tty.queue, List.length_append, List.length_take]
    omega
  room := hc.room
  order := by
    have horder := hc.order
    rw [arrived_eq hc.state] at horder
    exact horder
  flag := by
    have hflag := hc.flag
    rw [arrived_eq hc.state] at hflag
    exact hflag
  drained := fun h => by cases h

/-- `uart_write` queues, and transmits unless the transmission is stopped. -/
theorem write_eq (h : t.port.state = some st) (bytes : List UInt8) (stopAfter : Option ℕ) :
    t.write core fifoSize bytes stopAfter =
      if t.stopped then (t.queue fifoSize st bytes).1
      else (t.queue fifoSize st bytes).1.transmit core stopAfter := by
  cases hs : t.stopped with
  | true =>
    simp only [Tty.write, h, hs, if_true, Tty.queue]
  | false =>
    simp only [Tty.write, h, hs, Bool.false_eq_true, if_false, Tty.transmit, Tty.queue]

end Account

/-! ## Runs -/

/-- Everything that has left the fifo has arrived. -/
def Lossless (t : Tty) : Prop := t.arrived.map (·.1) = t.moved

/-- The receive buffer has space for what the event transmits. -/
def NoOverflow (fifoSize : ℕ) (t : Tty) : TtyEvent → Prop
  | .write bytes stopAfter =>
    ∀ st, t.port.state = some st → t.stopped = false →
      ((t.queue fifoSize st bytes).2.outgoing stopAfter).length ≤ st.rx.room
  | .start stopAfter =>
    ∀ st, t.port.state = some st → (st.outgoing stopAfter).length ≤ st.rx.room
  | _ => True

section Runs

variable {core : UartCore} {capacity fifoSize : ℕ} {t t' : Tty} {st : UartState} {e : TtyEvent}

theorem ttyStep_conserved (hc : Conserved capacity fifoSize t st)
    (h : ttyStep core fifoSize t e = some t') : ∃ st', Conserved capacity fifoSize t' st' := by
  cases e with
  | write bytes stopAfter =>
    obtain rfl := Option.some.inj h
    rw [write_eq hc.state]
    split
    · exact ⟨_, hc.queue bytes⟩
    · exact ⟨_, (hc.queue bytes).transmit stopAfter⟩
  | stop =>
    obtain rfl := Option.some.inj h
    exact ⟨st, hc.state, hc.fifo, hc.fifo_size, hc.room, hc.order, hc.flag, fun hs => by cases hs⟩
  | start stopAfter =>
    obtain rfl := Option.some.inj h
    exact ⟨_, hc.transmit stopAfter⟩
  | deliver n =>
    obtain rfl := Option.some.inj h
    exact hc.deliver n

/-- A transmission keeps a lossless account just when its bytes have space. -/
theorem transmit_lossless_iff (h : t.port.state = some st) (hl : Lossless t)
    (stopAfter : Option ℕ) :
    Lossless (t.transmit core stopAfter) ↔ (st.outgoing stopAfter).length ≤ st.rx.room := by
  unfold Lossless at hl ⊢
  rw [map_fst_arrived h, (transmit_eq core h stopAfter).1, hl, List.append_cancel_left_eq,
    List.take_eq_self_iff]

variable (fifoSize) in
theorem queue_lossless (h : t.port.state = some st) (hl : Lossless t) (bytes : List UInt8) :
    Lossless (t.queue fifoSize st bytes).1 := by
  unfold Lossless at hl ⊢
  rw [arrived_eq h] at hl
  exact hl

theorem ttyStep_lossless_iff (hc : Conserved capacity fifoSize t st) (hl : Lossless t)
    (h : ttyStep core fifoSize t e = some t') : Lossless t' ↔ NoOverflow fifoSize t e := by
  cases e with
  | write bytes stopAfter =>
    obtain rfl := Option.some.inj h
    have hq := queue_lossless fifoSize hc.state hl bytes
    rw [write_eq hc.state]
    cases hs : t.stopped with
    | true =>
      rw [if_pos rfl]
      exact iff_of_true hq fun _ _ hrun => by rw [hs] at hrun; cases hrun
    | false =>
      rw [if_neg Bool.false_ne_true,
        transmit_lossless_iff (t := (t.queue fifoSize st bytes).1) rfl hq]
      constructor
      · intro hle st' hst' _
        obtain rfl := Option.some.inj (hc.state.symm.trans hst')
        exact hle
      · exact fun hg => hg st hc.state hs
  | stop =>
    obtain rfl := Option.some.inj h
    exact iff_of_true hl trivial
  | start stopAfter =>
    obtain rfl := Option.some.inj h
    rw [transmit_lossless_iff hc.state hl]
    constructor
    · intro hle st' hst'
      obtain rfl := Option.some.inj (hc.state.symm.trans hst')
      exact hle
    · exact fun hg => hg st hc.state
  | deliver n =>
    obtain rfl := Option.some.inj h
    refine iff_of_true ?_ trivial
    unfold Lossless at hl ⊢
    simpa [Tty.arrived, Tty.deliver, hc.state, List.append_assoc] using hl

/-- In every run of an open loopback tty the accepted bytes are those that left the fifo and those
in it, what arrives is a selection of the former in their order, all with `TTY_BREAK`, and a running
transmission leaves the fifo empty. Nothing is dropped exactly if every transmission finds space for
its bytes. -/
theorem lossless_iff (core : UartCore) (capacity fifoSize : ℕ) (events : List TtyEvent) :
    (∀ t, run (ttyStep core fifoSize) (Tty.opened capacity) events = some t →
      ∃ st, Conserved capacity fifoSize t st) ∧
    (Throughout (ttyStep core fifoSize) Lossless (Tty.opened capacity) events ↔
      Along (ttyStep core fifoSize) (NoOverflow fifoSize) (Tty.opened capacity) events) := by
  have hopened := conserved_opened capacity fifoSize
  constructor
  · intro t ht
    refine run_invariant (I := fun t => ∃ st, Conserved capacity fifoSize t st) ?_
      ⟨_, hopened⟩ ⟨events, ht⟩
    rintro s a s' ⟨st, hc⟩ hs
    exact ttyStep_conserved hc hs
  · refine throughout_iff_along
      (I := fun t => (∃ st, Conserved capacity fifoSize t st) ∧ Lossless t) (D := fun _ _ => True)
      (fun _ hi => hi.2) ?_ ?_ events _ ⟨⟨_, hopened⟩, rfl⟩ (along_true events _)
    · rintro s a s' ⟨⟨st, hc⟩, hl⟩ - hg hs
      exact ⟨ttyStep_conserved hc hs, (ttyStep_lossless_iff hc hl hs).mpr hg⟩
    · rintro s a ⟨⟨st, hc⟩, hl⟩ - hn
      obtain ⟨s', hs⟩ : ∃ s', ttyStep core fifoSize s a = some s' := by
        cases a <;> exact ⟨_, rfl⟩
      exact ⟨s', hs, fun hl' => hn ((ttyStep_lossless_iff hc hl hs).mp hl')⟩

end Runs

end LinuxDriverFramework.NvUart.Chars
