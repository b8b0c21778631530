import LinuxDriverFramework.Kernel.Base
import Mathlib.Data.List.Basic
import Mathlib.Data.UInt

/-! # Characters through a port

`nv_uart_push_rx` of `nv_uart.c` and `demo_start_tx` of `nv_uart_demo.c`. Both insert their bytes by
`uart_insert_char(port, 0, TTY_NORMAL, ch, 1)`: `TTY_NORMAL` stands in the place of the overrun mask
and the flag is 1.

* `RxBuffer`: the characters in the tty receive buffer, each with its flag, and the space left.
* `UartCore`: `uart_insert_char`, with what it does when the status is 0.
* `pushRx`, `demoStartTx`: the two functions.
* `pushLoop_eq`, `txLoop_eq`: what their loops come to. -/

namespace LinuxDriverFramework.NvUart.Chars
set_option autoImplicit false

def ttyNormal : UInt8 := 0
def ttyBreak : UInt8 := 1

/-- Oldest first. -/
structure RxBuffer where
  chars : List (UInt8 × UInt8)
  room : ℕ
  deriving DecidableEq, Repr

/-- `tty_insert_flip_char`; without space the character is dropped. -/
def RxBuffer.insert (b : RxBuffer) (ch flag : UInt8) : RxBuffer :=
  if b.room = 0 then b else ⟨b.chars ++ [(ch, flag)], b.room - 1⟩

/-- `uart_insert_char(port, status, overrun, ch, flag)`. -/
structure UartCore where
  insertChar : RxBuffer → UInt32 → UInt32 → UInt8 → UInt8 → RxBuffer
  insertChar_ok : ∀ b overrun ch flag, insertChar b 0 overrun ch flag = b.insert ch flag

/-- What `port->state` refers to: the receive buffer, and the transmit fifo with its next byte
first. -/
structure UartState where
  rx : RxBuffer
  fifo : List UInt8
  deriving DecidableEq, Repr

structure NvUartPort where
  state : Option UartState
  deriving DecidableEq, Repr

/-! ## `nv_uart_push_rx` -/

section Push

variable (core : UartCore)

/-- The loop with `n` rounds to go. -/
def pushLoop (buf : ℕ → UInt8) : ℕ → ℕ → ℤ → RxBuffer → RxBuffer × ℤ
  | 0, _, pushed, rx => (rx, pushed)
  | n + 1, i, pushed, rx =>
    pushLoop buf n (i + 1) (pushed + 1) (core.insertChar rx 0 ttyNormal.toUInt32 (buf i) 1)

def pushRx (np : Option NvUartPort) (buf : Option (ℕ → UInt8)) (count : ℤ) :
    Option NvUartPort × Except Errno ℤ :=
  match np, buf with
  | some port, some buf =>
    if count ≤ 0 then (np, .error .EINVAL)
    else
      match port.state with
      | none => (np, .error .ENODEV)
      | some st =>
        let (rx, pushed) := pushLoop core buf count.toNat 0 0 st.rx
        (some ⟨some { st with rx := rx }⟩, .ok pushed)
  | _, _ => (np, .error .EINVAL)

end Push

/-! ## `demo_start_tx` -/

section Transmit

variable (core : UartCore)

/-- `uart_tx_stopped`, if the transmission is stopped after so many bytes. -/
def txStopped (stopAfter : Option ℕ) (sent : ℕ) : Bool := stopAfter.any (· ≤ sent)

/-- Every round takes a byte from the fifo. -/
def txLoop (stopAfter : Option ℕ) : List UInt8 → ℕ → RxBuffer → UartState
  | [], _, rx => ⟨rx, []⟩
  | ch :: fifo, sent, rx =>
    if txStopped stopAfter sent then ⟨rx, ch :: fifo⟩
    else txLoop stopAfter fifo (sent + 1) (core.insertChar rx 0 ttyNormal.toUInt32 ch 1)

def demoStartTx (stopAfter : Option ℕ) (np : NvUartPort) : NvUartPort :=
  match np.state with
  | none => np
  | some st => { np with state := some (txLoop core stopAfter st.fifo 0 st.rx) }

end Transmit

/-! ## What the loops come to -/

def RxBuffer.insertAll (b : RxBuffer) (flag : UInt8) (bytes : List UInt8) : RxBuffer :=
  bytes.foldl (fun b ch => b.insert ch flag) b

theorem insertAll_eq (flag : UInt8) (bytes : List UInt8) (b : RxBuffer) :
    b.insertAll flag bytes =
      ⟨b.chars ++ (bytes.take b.room).map (·, flag), b.room - bytes.length⟩ := by
  induction bytes generalizing b with
  | nil =>
    rw [List.take_nil, List.map_nil, List.append_nil]
    rfl
  | cons ch bytes ih =>
    have hstep : b.insertAll flag (ch :: bytes) = (b.insert ch flag).insertAll flag bytes := rfl
    rw [hstep, ih]
    by_cases hfull : b.room = 0
    · rw [RxBuffer.insert, if_pos hfull, hfull, List.take_zero, List.take_zero, Nat.zero_sub,
        Nat.zero_sub]
    · obtain ⟨n, hn⟩ := Nat.exists_eq_succ_of_ne_zero hfull
      rw [RxBuffer.insert, if_neg hfull, hn, List.take_succ_cons, List.map_cons, List.append_assoc,
        List.length_cons, Nat.succ_sub_one, Nat.succ_sub_succ]
      rfl

def bytesOf (buf : ℕ → UInt8) (count : ℤ) : List UInt8 := (List.range count.toNat).map buf

section Loops

variable (core : UartCore)

theorem pushLoop_eq (buf : ℕ → UInt8) (n i : ℕ) (pushed : ℤ) (rx : RxBuffer) :
    pushLoop core buf n i pushed rx =
      (rx.insertAll 1 ((List.range' i n).map buf), pushed + n) := by
  induction n generalizing i pushed rx with
  | zero => simp [pushLoop, RxBuffer.insertAll]
  | succ n ih =>
    rw [pushLoop, ih, core.insertChar_ok, List.range'_succ, List.map_cons]
    refine Prod.ext rfl ?_
    push_cast
    omega

def taken (stopAfter : Option ℕ) (sent length : ℕ) : ℕ :=
  match stopAfter with
  | none => length
  | some n => min (n - sent) length

theorem txLoop_eq (stopAfter : Option ℕ) (fifo : List UInt8) (sent : ℕ) (rx : RxBuffer) :
    txLoop core stopAfter fifo sent rx =
      ⟨rx.insertAll 1 (fifo.take (taken stopAfter sent fifo.length)),
        fifo.drop (taken stopAfter sent fifo.length)⟩ := by
  induction fifo generalizing sent rx with
  | nil => simp [txLoop, RxBuffer.insertAll]
  | cons ch fifo ih =>
    have htaken : taken stopAfter sent (ch :: fifo).length =
        if txStopped stopAfter sent then 0 else taken stopAfter (sent + 1) fifo.length + 1 := by
      cases stopAfter with
      | none => rfl
      | some n =>
        simp only [taken, txStopped, Option.any_some, decide_eq_true_eq, List.length_cons]
        split <;> omega
    rw [txLoop, htaken]
    by_cases hstop : txStopped stopAfter sent = true
    · rw [if_pos hstop, if_pos hstop]
      rfl
    · rw [if_neg hstop, if_neg hstop, ih, core.insertChar_ok]
      rfl

end Loops

/-! ## On a port that is open -/

section Open

variable (core : UartCore) (st : UartState)

theorem pushRx_open (buf : ℕ → UInt8) {count : ℤ} (h : 0 < count) :
    pushRx core (some ⟨some st⟩) (some buf) count =
      (some ⟨some { st with rx := st.rx.insertAll 1 (bytesOf buf count) }⟩, .ok count) := by
  have hpos : ¬ count ≤ 0 := not_le.mpr h
  have hcount : (0 : ℤ) + count.toNat = count := by omega
  simp only [pushRx, if_neg hpos, pushLoop_eq, hcount, bytesOf, List.range_eq_range']

theorem demoStartTx_open (stopAfter : Option ℕ) :
    demoStartTx core stopAfter ⟨some st⟩ =
      ⟨some ⟨st.rx.insertAll 1 (st.fifo.take (taken stopAfter 0 st.fifo.length)),
        st.fifo.drop (taken stopAfter 0 st.fifo.length)⟩⟩ := by
  simp only [demoStartTx, txLoop_eq]

end Open

end LinuxDriverFramework.NvUart.Chars
