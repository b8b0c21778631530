import LinuxDriverFramework.NvChar.StoredMessage

/-! # A fault in the middle of a write

The four devices copy straight into the buffer that holds the message. When `copy_from_user` stops
after some bytes, these are in the buffer, with zeros in the place of the rest; length and position
are left alone.

* `readable`: the message that reads return, and `readMessage` what a read of it returns.
* `read_readable`: two states read alike just when they have the same message.
* `arrived`: what a write that faults has put at the front of the buffer.
* `torn_readable`: the message after a fault.
* `undisturbed_iff`: it is the old one just when these bytes are. -/

namespace LinuxDriverFramework.NvChar.WriteFaults
open Foundations Io StoredMessage
set_option autoImplicit false

/-! ## The message of a device -/

def bufSize (pageShift : ℕ) : MessageDevice → ℕ
  | .echo => echoBufSize
  | .miscEcho | .plat => pageSize pageShift
  | .demo => demoBufSize

def stored (pageShift : ℕ) : (d : MessageDevice) → d.Priv pageShift → MsgPriv (bufSize pageShift d)
  | .echo, p | .miscEcho, p | .plat, p => p
  | .demo, p => p.toMsgPriv

/-- Nothing hides the message; on the demo device `data_ready` has to be set. -/
def shown (pageShift : ℕ) : (d : MessageDevice) → d.Priv pageShift → Bool
  | .echo, _ | .miscEcho, _ | .plat, _ => true
  | .demo, p => p.dataReady

def readable (pageShift : ℕ) (d : MessageDevice) (p : d.Priv pageShift) : List UInt8 :=
  if shown pageShift d p then message (stored pageShift d p) else []

/-- A read of a message: result, buffer and position. -/
def readMessage (signed : Bool) (msg : List UInt8) (buf : Mem) (count : ℕ) (pos : ℤ) :
    Except Errno ℕ × Mem × ℤ :=
  if signed && decide (pos < 0) then (.error .EINVAL, buf, pos)
  else if msg.length ≤ asSize pos then (.ok 0, buf, pos)
  else
    let got := (msg.drop (asSize pos)).take count
    let (buf, left) := copyToUser buf got
    if left ≠ 0 then (.error .EFAULT, buf, pos) else (.ok got.length, buf, pos + got.length)

/-- The part of a result that the caller sees. -/
def reply {σ : Type} (r : IoResult σ) : Except Errno ℕ × Mem × ℤ := (r.ret, r.mem, r.pos)

theorem requested_piece {cap : ℕ} (p : MsgPriv cap) (count start : ℕ) :
    (p.buf.drop start).take (min count (p.len - start)) =
        ((message p).drop start).take count ∧
      (((message p).drop start).take count).length = min count (p.len - start) := by
  refine ⟨(message_piece p start count).symm, ?_⟩
  rw [List.length_take, List.length_drop, message_length]

theorem storedRead_reply {cap : ℕ} (p : MsgPriv cap) (buf : Mem) (count : ℕ) (pos : ℤ) :
    reply (storedRead (some p) buf count pos) = readMessage true (message p) buf count pos := by
  obtain ⟨hpiece, hlen⟩ := requested_piece p count (asSize pos)
  unfold storedRead readMessage
  by_cases hneg : pos < 0
  · simp only [hneg, decide_true, Bool.and_self, if_true]
    rfl
  · by_cases hend : p.len ≤ asSize pos
    · simp only [hneg, hend, message_length, decide_false, Bool.and_false, Bool.false_eq_true,
        if_false, if_true]
      rfl
    · simp only [hneg, hend, message_length, decide_false, Bool.and_false, Bool.false_eq_true,
        if_false, hpiece, hlen]
      split <;> rfl

theorem demoRead_reply (p : DemoPriv) (buf : Mem) (count : ℕ) (pos : ℤ) :
    reply (demoRead (some p) buf count pos) =
      readMessage false (if p.dataReady then message p.toMsgPriv else []) buf count pos := by
  obtain ⟨hpiece, hlen⟩ := requested_piece p.toMsgPriv count (asSize pos)
  unfold demoRead readMessage
  cases hready : p.dataReady with
  | false =>
    simp only [hready, Bool.not_false, Bool.true_or, Bool.false_and, Bool.false_eq_true, if_false,
      if_true, List.length_nil, Nat.zero_le]
    rfl
  | true =>
    by_cases hend : p.len ≤ asSize pos
    · simp only [hready, message_length, hend, Bool.not_true, Bool.false_or, Bool.false_and,
        Bool.false_eq_true, if_false, if_true, ite_self]
      rfl
    · have hne : (p.len == 0) = false := by
        rw [beq_eq_false_iff_ne]
        omega
      simp only [hready, message_length, hend, hne, Bool.not_true, Bool.or_self, Bool.false_and,
        Bool.false_eq_true, if_false, if_true, hpiece, hlen]
      split <;> rfl

section Device

variable (pageShift : ℕ) (d : MessageDevice)

/-- All devices but one refuse a negative position. -/
def refusesNegative : MessageDevice → Bool
  | .echo | .miscEcho | .plat => true
  | .demo => false

theorem read_reply (p : d.Priv pageShift) (buf : Mem) (count : ℕ) (pos : ℤ) :
    reply (Io.read false (some (d.ops pageShift)) (some p) buf count pos) =
      readMessage (refusesNegative d) (readable pageShift d p) buf count pos := by
  cases d with
  | echo => exact storedRead_reply p buf count pos
  | miscEcho => exact storedRead_reply p buf count pos
  | plat => exact storedRead_reply p buf count pos
  | demo => exact demoRead_reply p buf count pos

/-- No read tells the two states apart. -/
def ReadAlike (s s' : Option (d.Priv pageShift)) : Prop :=
  ∀ buf count pos, reply (Io.read false (some (d.ops pageShift)) s buf count pos) =
    reply (Io.read false (some (d.ops pageShift)) s' buf count pos)

theorem readMessage_all {signed : Bool} {msg : List UInt8} {n : ℕ} (h : msg.length ≤ n) :
    readMessage signed msg (.user (List.replicate n 0)) n 0 =
      (.ok msg.length, Mem.mk .user (overlay msg (List.replicate n 0)) n, (msg.length : ℤ)) := by
  have hzero : asSize 0 = 0 := rfl
  have hlen : msg.length ≤ (List.replicate n (0 : UInt8)).length := by
    rw [List.length_replicate]
    exact h
  have hneg : ¬ (0 : ℤ) < 0 := Int.lt_irrefl 0
  unfold readMessage
  rw [decide_eq_false hneg, Bool.and_false, hzero, List.drop_zero, List.take_of_length_le h]
  simp only [copyToUser_user _ hlen, List.length_replicate, Bool.false_eq_true, if_false, ne_eq,
    not_true_eq_false, zero_add]
  by_cases hnil : msg.length ≤ 0
  · obtain rfl : msg = [] := List.length_eq_zero_iff.mp (Nat.le_zero.mp hnil)
    simp [Mem.user, overlay]
  · rw [if_neg hnil]

theorem length_readable (p : d.Priv pageShift) :
    (readable pageShift d p).length ≤ bufSize pageShift d := by
  unfold readable
  split
  · rw [message_length]
    exact (stored pageShift d p).bound
  · exact Nat.zero_le _

theorem readAlike_iff (p q : d.Priv pageShift) :
    ReadAlike pageShift d (some p) (some q) ↔
      readable pageShift d p = readable pageShift d q := by
  constructor
  · intro h
    have hall := h (.user (List.replicate (bufSize pageShift d) 0)) (bufSize pageShift d) 0
    rw [read_reply, read_reply, readMessage_all (length_readable pageShift d p),
      readMessage_all (length_readable pageShift d q)] at hall
    obtain ⟨hret, hrest⟩ := Prod.mk.inj hall
    have hlen : (readable pageShift d p).length = (readable pageShift d q).length :=
      Except.ok.inj hret
    have hbytes := congrArg Mem.bytes (Prod.mk.inj hrest).1
    exact (List.append_inj hbytes hlen).1
  · intro h buf count pos
    rw [read_reply, read_reply, h]

/-! ## The fault -/

/-- The bytes in the buffer after a copy of `n` bytes that stopped after `k`. -/
def arrived (data : List UInt8) (k n : ℕ) : List UInt8 := (data.take k).rightpad n 0

theorem length_arrived {data : List UInt8} {k n : ℕ} (h : k ≤ n) :
    (arrived data k n).length = n := by
  rw [arrived, List.length_rightpad, Nat.max_eq_left ((List.length_take_le k data).trans h)]

/-- The state with `front` in the buffer and everything else unchanged. -/
structure Torn (p q : d.Priv pageShift) (front : List UInt8) : Prop where
  buf : (stored pageShift d q).buf = overlay front (stored pageShift d p).buf
  len : (stored pageShift d q).len = (stored pageShift d p).len
  shown : shown pageShift d q = shown pageShift d p

theorem copyFromUser_fault {data : List UInt8} {k cap : ℕ} (h : k < min data.length cap) :
    (copyFromUser ⟨.user, data, k⟩ (min data.length cap)).1 =
        arrived data k (min data.length cap) ∧
      (copyFromUser ⟨.user, data, k⟩ (min data.length cap)).2 ≠ 0 := by
  constructor
  · show ((data.take (min data.length cap)).take k).rightpad (min data.length cap) 0 = _
    rw [List.take_take, Nat.min_eq_left h.le]
    rfl
  · show min data.length cap - k ≠ 0
    omega

theorem write_fault (p : d.Priv pageShift) {data : List UInt8} {k : ℕ} (pos : ℤ)
    (h : k < min data.length (bufSize pageShift d)) :
    ∃ q, Io.write false (some (d.ops pageShift)) (some p) ⟨.user, data, k⟩ data.length pos =
      ⟨.error .EFAULT, some q, ⟨.user, data, k⟩, pos⟩ ∧
      Torn pageShift d p q (arrived data k (min data.length (bufSize pageShift d))) := by
  obtain ⟨hfront, hleft⟩ := copyFromUser_fault h
  cases d with
  | echo => exact ⟨_, if_pos hleft, congrArg (overlay · _) hfront, rfl, rfl⟩
  | miscEcho => exact ⟨_, if_pos hleft, congrArg (overlay · _) hfront, rfl, rfl⟩
  | plat => exact ⟨_, if_pos hleft, congrArg (overlay · _) hfront, rfl, rfl⟩
  | demo => exact ⟨_, if_pos hleft, congrArg (overlay · _) hfront, rfl, rfl⟩

theorem write_full (p : d.Priv pageShift) {data : List UInt8} {k : ℕ} (pos : ℤ)
    (h : ¬ k < min data.length (bufSize pageShift d)) :
    (Io.write false (some (d.ops pageShift)) (some p) ⟨.user, data, k⟩ data.length pos).ret ≠
      .error .EFAULT := by
  have hleft : ¬ (copyFromUser ⟨.user, data, k⟩ (min data.length (bufSize pageShift d))).2 ≠ 0 := by
    show ¬ min data.length (bufSize pageShift d) - k ≠ 0
    omega
  intro hret
  cases d with
  | echo => cases (congrArg IoResult.ret (if_neg hleft)).symm.trans hret
  | miscEcho => cases (congrArg IoResult.ret (if_neg hleft)).symm.trans hret
  | plat => cases (congrArg IoResult.ret (if_neg hleft)).symm.trans hret
  | demo => cases (congrArg IoResult.ret (if_neg hleft)).symm.trans hret

/-- The bytes that have arrived are those that the message has in their place. -/
def Agrees (msg data : List UInt8) (k n : ℕ) : Prop :=
  (arrived data k n).take msg.length = msg.take n

instance (msg data : List UInt8) (k n : ℕ) : Decidable (Agrees msg data k n) :=
  inferInstanceAs (Decidable (_ = _))

theorem torn_readable {p q : d.Priv pageShift} {data : List UInt8} {k : ℕ}
    (h : Torn pageShift d p q (arrived data k (min data.length (bufSize pageShift d))))
    (hk : k < min data.length (bufSize pageShift d)) :
    readable pageShift d p = readable pageShift d q ↔
      Agrees (readable pageShift d p) data k (min data.length (bufSize pageShift d)) := by
  have hfront : (arrived data k (min data.length (bufSize pageShift d))).length =
      min data.length (bufSize pageShift d) := length_arrived hk.le
  have hfits : (arrived data k (min data.length (bufSize pageShift d))).length ≤
      (stored pageShift d p).buf.length := by
    rw [(stored pageShift d p).size, hfront]
    exact min_le_right _ _
  unfold readable Agrees
  rw [h.shown]
  split
  · rw [message_length, message, message, h.buf, h.len, eq_comm, take_overlay_eq_iff hfits, hfront]
  · simp

/-- Reads return what they did before, and length and position are the old ones. -/
structure Undisturbed (p : d.Priv pageShift) (pos : ℤ) (r : IoResult (Option (d.Priv pageShift))) :
    Prop where
  reads : ReadAlike pageShift d (some p) r.state
  length : r.state.map (fun q => (stored pageShift d q).len) = some (stored pageShift d p).len
  position : r.pos = pos

/-- A write that fails after `k` bytes goes unnoticed just when these, and the zeros behind them,
are the message's own. -/
theorem undisturbed_iff (p : d.Priv pageShift) (data : List UInt8) (k : ℕ) (pos : ℤ) :
    let r := Io.write false (some (d.ops pageShift)) (some p) ⟨.user, data, k⟩ data.length pos
    (r.ret = .error .EFAULT → Undisturbed pageShift d p pos r) ↔
      (k < min data.length (bufSize pageShift d) →
        Agrees (readable pageShift d p) data k (min data.length (bufSize pageShift d))) := by
  intro r
  by_cases hk : k < min data.length (bufSize pageShift d)
  · obtain ⟨q, hwrite, htorn⟩ := write_fault pageShift d p pos hk
    have hr : r = ⟨.error .EFAULT, some q, ⟨.user, data, k⟩, pos⟩ := hwrite
    have hmsg := (readAlike_iff pageShift d p q).trans (torn_readable pageShift d htorn hk)
    rw [hr]
    constructor
    · intro h _
      exact hmsg.mp (h rfl).reads
    · intro h _
      exact ⟨hmsg.mpr (h hk), congrArg some htorn.len, rfl⟩
  · exact iff_of_true (fun h => absurd h (write_full pageShift d p pos hk)) fun h => absurd h hk

end Device

/-! ## A torn message -/

theorem two_le_echoBufSize : 2 ≤ echoBufSize := by decide

def holdsAb : MsgPriv echoBufSize :=
  ((MsgPriv.zero echoBufSize).overwrite [97, 98] two_le_echoBufSize).setLen 2 two_le_echoBufSize

/-- "xy" is written and the second byte faults: reads return "x" and a zero. -/
theorem torn_by_fault :
    (Io.read false (some (MessageDevice.echo.ops 12))
        (Io.write false (some (MessageDevice.echo.ops 12)) (some holdsAb) ⟨.user, [120, 121], 1⟩ 2
          0).state (.user [1, 1]) 2 0).mem.bytes = [120, 0] ∧
    ¬ ∀ (pageShift : ℕ) (d : MessageDevice) (p : d.Priv pageShift) (data : List UInt8) (k : ℕ)
      (pos : ℤ), k < data.length →
        let r := Io.write false (some (d.ops pageShift)) (some p) ⟨.user, data, k⟩ data.length pos
        r.ret = .error .EFAULT → Undisturbed pageShift d p pos r := by
  have hnow : (Io.read false (some (MessageDevice.echo.ops 12))
      (Io.write false (some (MessageDevice.echo.ops 12)) (some holdsAb) ⟨.user, [120, 121], 1⟩ 2
        0).state (.user [1, 1]) 2 0).mem.bytes = [120, 0] := by rfl
  have hold : (Io.read false (some (MessageDevice.echo.ops 12)) (some holdsAb) (.user [1, 1]) 2
      0).mem.bytes = [97, 98] := by rfl
  refine ⟨hnow, fun h => ?_⟩
  have hreads := (h 12 .echo holdsAb [120, 121] 1 0 (by decide) rfl).reads (.user [1, 1]) 2 0
  have hbytes := congrArg (fun r => r.2.1.bytes) hreads
  have heq : [97, 98] = ([120, 0] : List UInt8) := hold.symm.trans (hbytes.trans hnow)
  exact absurd heq (by decide)

end LinuxDriverFramework.NvChar.WriteFaults
