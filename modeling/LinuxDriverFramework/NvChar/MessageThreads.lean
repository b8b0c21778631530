import LinuxDriverFramework.Foundations.CriticalSections
import LinuxDriverFramework.NvChar.Ioctl

/-! # The message devices under their mutex

The callbacks of `nv_char_echo`, `nv_char_misc_echo`, `nv_char_plat` and `nv_char_demo` with
`priv->lock` and one access after the other, each byte of a copy included.

* `Device`: what tells the four devices apart in this.
* `Call`, `Work`: a call of a thread, and where it is under the lock.
* `Device.before`, `Device.work`, `after`: the three parts of every callback. `get_len` copies to
  the caller after it has let the lock go.
* `atomic`: the callbacks as one step, from `MessageDevices` and `Ioctl`.
* `message_devices_linearizable`. -/

namespace LinuxDriverFramework.NvChar.MessageThreads
open Foundations Foundations.Locked Io
set_option autoImplicit false

/-! ## The devices -/

structure Device where
  Priv : Type
  cap : ℕ
  msg : Priv → MsgPriv cap
  withMsg : Priv → MsgPriv cap → Priv
  /-- what `read` refuses before it takes the lock -/
  refuses : ℤ → Bool
  nothing : Priv → ℤ → Bool
  /-- `priv->data_ready = b` -/
  withReady : Priv → Bool → Priv
  /-- `*ppos` after a write of so many bytes -/
  posAfter : ℕ → ℤ
  /-- `ops->unlocked_ioctl` and `ops->poll` are there -/
  hasIoctl : Bool
  /-- the events that `poll` finds under the lock -/
  events : Priv → UInt32
  msg_withMsg : ∀ p m, msg (withMsg p m) = m
  withMsg_withMsg : ∀ p m m', withMsg (withMsg p m) m' = withMsg p m'
  withMsg_msg : ∀ p, withMsg p (msg p) = p

def stored (cap : ℕ) : Device where
  Priv := MsgPriv cap
  cap := cap
  msg := id
  withMsg := fun _ m => m
  refuses := fun pos => decide (pos < 0)
  nothing := fun p pos => decide (p.len ≤ asSize pos)
  withReady := fun p _ => p
  posAfter := fun n => n
  hasIoctl := false
  events := fun _ => 0
  msg_withMsg := fun _ _ => rfl
  withMsg_withMsg := fun _ _ _ => rfl
  withMsg_msg := fun _ => rfl

def demo : Device where
  Priv := DemoPriv
  cap := demoBufSize
  msg := DemoPriv.toMsgPriv
  withMsg := fun p m => { p with toMsgPriv := m }
  refuses := fun _ => false
  nothing := fun p pos => !p.dataReady || p.len == 0 || decide (p.len ≤ asSize pos)
  withReady := fun p b => { p with dataReady := b }
  posAfter := fun _ => 0
  hasIoctl := true
  events := fun p => if p.dataReady && p.len != 0 then epollIn ||| epollRdNorm else 0
  msg_withMsg := fun _ _ => rfl
  withMsg_withMsg := fun _ _ _ => rfl
  withMsg_msg := fun _ => rfl

def device (pageShift : ℕ) : MessageDevice → Device
  | .echo => stored echoBufSize
  | .miscEcho | .plat => stored (pageSize pageShift)
  | .demo => demo

/-! ## The calls -/

/-- A call with the user memory that is handed to it; `pos` is the value of `*ppos`. -/
inductive Call
  | read (buf : List UInt8) (count : ℕ) (pos : ℤ)
  | write (buf : List UInt8) (count : ℕ) (pos : ℤ)
  | ioctl (cmd : UInt32) (arg : List UInt8)
  | poll

inductive Result
  | moved (ret : Except Errno ℕ) (buf : List UInt8) (pos : ℤ)
  | answered (ret : Except Errno ℕ) (arg : List UInt8)
  | mask (m : UInt32)

inductive Work
  | readCheck (buf : List UInt8) (count : ℕ) (pos : ℤ)
  -- copy_to_user, with `i` of `n` bytes copied
  | readCopy (buf : List UInt8) (n i : ℕ) (pos : ℤ)
  -- copy_from_user, and the zeros it puts in the place of what it does not get
  | writeCopy (buf : List UInt8) (count i : ℕ) (pos : ℤ)
  | writePad (buf : List UInt8) (count i : ℕ) (pos : ℤ)
  | writeLen (buf : List UInt8) (count : ℕ)
  | writeReady (buf : List UInt8) (count : ℕ)
  | clearLen (arg : List UInt8)
  | clearReady (arg : List UInt8)
  | getLen (arg : List UInt8)
  | poll
  -- nothing is left to do under the lock
  | finished (r : Result)
  -- copy_to_user of the length, with `i` of its bytes copied
  | gotLen (arg : List UInt8) (len i : ℕ)
  | polled (m : UInt32)

variable (d : Device)

/-- `priv->buf[i] = b`. -/
def MsgPriv.put {cap : ℕ} (p : MsgPriv cap) (i : ℕ) (b : UInt8) : MsgPriv cap :=
  { p with buf := p.buf.set i b, size := List.length_set.trans p.size }

def Device.before : Call → Except Result Work
  | .read buf count pos =>
    if d.refuses pos then .error (.moved (.error .EINVAL) buf pos) else .ok (.readCheck buf count pos)
  | .write buf count pos => .ok (.writeCopy buf count 0 pos)
  | .ioctl cmd arg =>
    if !d.hasIoctl then .error (.answered (.error .ENOTTY) arg)
    else if nvDemoIocGetLen = cmd then .ok (.getLen arg)
    else if nvDemoIocClear = cmd then .ok (.clearLen arg)
    else .error (.answered (.error .ENOTTY) arg)
  | .poll => if d.hasIoctl then .ok .poll else .error (.mask 0)

def Device.work : Work → d.Priv → Option (Work × d.Priv)
  | .readCheck buf count pos, p =>
    if d.nothing p pos then some (.finished (.moved (.ok 0) buf pos), p)
    else some (.readCopy buf (min count ((d.msg p).len - asSize pos)) 0 pos, p)
  | .readCopy buf n i pos, p =>
    if i < n then
      match (d.msg p).buf[asSize pos + i]? with
      | some b =>
        if i < buf.length then some (.readCopy (buf.set i b) n (i + 1) pos, p)
        else some (.finished (.moved (.error .EFAULT) buf pos), p)
      | none => none
    else some (.finished (.moved (.ok n) buf (pos + n)), p)
  | .writeCopy buf count i pos, p =>
    if i < min count d.cap then
      match buf[i]? with
      | some b => some (.writeCopy buf count (i + 1) pos, d.withMsg p (MsgPriv.put (d.msg p) i b))
      | none => some (.writePad buf count i pos, p)
    else some (.writeLen buf count, p)
  | .writePad buf count i pos, p =>
    if i < min count d.cap then
      some (.writePad buf count (i + 1) pos, d.withMsg p (MsgPriv.put (d.msg p) i 0))
    else some (.finished (.moved (.error .EFAULT) buf pos), p)
  | .writeLen buf count, p =>
    some (.writeReady buf count,
      d.withMsg p ((d.msg p).setLen (min count d.cap) (min_le_right count d.cap)))
  | .writeReady buf count, p =>
    let n := min count d.cap
    some (.finished (.moved (.ok n) buf (d.posAfter n)), d.withReady p true)
  | .clearLen arg, p =>
    some (.clearReady arg, d.withMsg p ((d.msg p).setLen 0 (Nat.zero_le d.cap)))
  | .clearReady arg, p => some (.finished (.answered (.ok 0) arg), d.withReady p false)
  | .getLen arg, p => some (.gotLen arg (d.msg p).len 0, p)
  | .poll, p => some (.polled (d.events p), p)
  | .finished _, _ | .gotLen _ _ _, _ | .polled _, _ => none

/-- One step without the lock. -/
def after : Work → Except Result Work
  | .finished r => .error r
  | .gotLen arg len i =>
    match (intBytes len)[i]? with
    | some b =>
      if i < arg.length then .ok (.gotLen (arg.set i b) len (i + 1))
      else .error (.answered (.error .EFAULT) arg)
    | none => .error (.answered (.ok 0) arg)
  | .polled m => .error (.mask (m ||| (epollOut ||| epollWrNorm)))
  | _ => .error (.mask 0)

def Device.code : Code d.Priv Call Work Result := ⟨d.before, d.work, after⟩

/-! ## The callbacks as one step -/

def moved {P : Type} (p : P) (r : IoResult (Option P)) : P × Result :=
  (r.state.getD p, .moved r.ret r.mem.bytes r.pos)

/-- A whole call of the wrappers of `nv_char.c`. -/
def wrapped {P : Type} (ops : DevOps (Option P)) (ioctl : Option (UInt32 → IoctlHandler (Option P)))
    (poll : Option (Option P → UInt32)) : Call → P → P × Result
  | .read buf count pos, p => moved p (Io.read false (some ops) (some p) (.user buf) count pos)
  | .write buf count pos, p => moved p (Io.write false (some ops) (some p) (.user buf) count pos)
  | .ioctl cmd arg, p =>
    let r := Io.unlockedIoctl false ioctl cmd (some p) (.user arg)
    (r.state.getD p, .answered r.ret r.arg.bytes)
  | .poll, p => (p, .mask (Io.poll false poll (some p)))

/-- `holds` are the capabilities of the caller. -/
def atomic (pageShift : ℕ) (holds : ℤ → Bool) :
    (d : MessageDevice) → Call → (device pageShift d).Priv → (device pageShift d).Priv × Result
  | .echo => wrapped (MessageDevice.echo.ops pageShift) none none
  | .miscEcho => wrapped (MessageDevice.miscEcho.ops pageShift) none none
  | .plat => wrapped (MessageDevice.plat.ops pageShift) none none
  | .demo => wrapped (MessageDevice.demo.ops pageShift) (some (demoIoctl holds)) (some demoPoll)

/-! ## What a read does under the lock -/

/-- The bytes that are to be copied. -/
def Device.source (p : d.Priv) (count : ℕ) (pos : ℤ) : List UInt8 :=
  ((d.msg p).buf.drop (asSize pos)).take (min count ((d.msg p).len - asSize pos))

def Device.readResult (p : d.Priv) (buf : List UInt8) (count : ℕ) (pos : ℤ) : Result :=
  if d.nothing p pos then .moved (.ok 0) buf pos
  else
    let n := min count ((d.msg p).len - asSize pos)
    let (m, left) := copyToUser (.user buf) (d.source p count pos)
    if left ≠ 0 then .moved (.error .EFAULT) m.bytes pos else .moved (.ok n) m.bytes (pos + n)

/-- Where a read can be. -/
def Device.ReadMid (p : d.Priv) (buf : List UInt8) (count : ℕ) (pos : ℤ) : Work × d.Priv → Prop
  | (.readCheck b k q, p') => p' = p ∧ b = buf ∧ k = count ∧ q = pos
  | (.readCopy b n i q, p') => p' = p ∧ q = pos ∧ d.nothing p pos = false ∧
      n = (d.source p count pos).length ∧ i ≤ n ∧ i ≤ buf.length ∧
      b = overlay ((d.source p count pos).take i) buf
  | (.finished r, p') => p' = p ∧ r = d.readResult p buf count pos
  | _ => False

theorem source_length (p : d.Priv) (count : ℕ) (pos : ℤ) :
    (d.source p count pos).length = min count ((d.msg p).len - asSize pos) := by
  have hbound := (d.msg p).bound
  rw [Device.source, List.length_take, List.length_drop, (d.msg p).size]
  omega

theorem source_getElem? (p : d.Priv) {count i : ℕ} {pos : ℤ}
    (h : i < (d.source p count pos).length) :
    (d.msg p).buf[asSize pos + i]? = (d.source p count pos)[i]? := by
  rw [source_length] at h
  rw [Device.source, List.getElem?_take_of_lt h, List.getElem?_drop]

theorem readMid_work (p : d.Priv) (buf : List UInt8) (count : ℕ) (pos : ℤ) (a b : Work × d.Priv)
    (h : d.ReadMid p buf count pos a) (hw : d.work a.1 a.2 = some b) :
    d.ReadMid p buf count pos b := by
  obtain ⟨l, p'⟩ := a
  cases l with
  | readCheck b' k q =>
    obtain ⟨rfl, rfl, rfl, rfl⟩ := h
    simp only [Device.work] at hw
    cases hno : d.nothing p' q with
    | true =>
      simp only [hno, if_true, Option.some.injEq] at hw
      subst hw
      exact ⟨rfl, by simp [Device.readResult, hno]⟩
    | false =>
      simp only [hno, Bool.false_eq_true, if_false, Option.some.injEq] at hw
      subst hw
      exact ⟨rfl, rfl, hno, (source_length d p' k q).symm, Nat.zero_le _, Nat.zero_le _, rfl⟩
  | readCopy b' n i q =>
    obtain ⟨rfl, rfl, hno, rfl, hin, hib, rfl⟩ := h
    have hlen : ((d.source p' count q).take i).length = i := by
      rw [List.length_take, Nat.min_eq_left hin]
    have hover : (overlay ((d.source p' count q).take i) buf).length = buf.length :=
      length_overlay (hlen.trans_le hib)
    simp only [Device.work, hover] at hw
    by_cases hi : i < (d.source p' count q).length
    · have hget := source_getElem? d p' hi
      rw [List.getElem?_eq_getElem hi] at hget
      simp only [hi, if_true, hget] at hw
      by_cases hb : i < buf.length
      · simp only [hb, if_true, Option.some.injEq] at hw
        subst hw
        refine ⟨rfl, rfl, hno, rfl, hi, hb, ?_⟩
        have hset := set_overlay ((d.source p' count q).take i) buf
          (by rw [hlen]; exact hb) (d.source p' count q)[i]
        rw [hlen, List.take_append_getElem] at hset
        exact hset
      · -- the copy stops at the end of the caller's memory
        simp only [hb, if_false, Option.some.injEq] at hw
        subst hw
        obtain rfl : i = buf.length := by omega
        have hleft : (d.source p' count q).length - buf.length ≠ 0 := by omega
        refine ⟨rfl, ?_⟩
        simp only [Device.readResult, hno, Bool.false_eq_true, if_false, copyToUser, Mem.user, hleft,
          ne_eq, not_false_eq_true, if_true]
    · simp only [hi, if_false, Option.some.injEq] at hw
      subst hw
      obtain rfl : i = (d.source p' count q).length := by omega
      refine ⟨rfl, ?_⟩
      rw [List.take_length]
      simp only [Device.readResult, hno, Bool.false_eq_true, if_false, copyToUser_user buf hib,
        ne_eq, not_true_eq_false, source_length]
  | finished r => simp [Device.work] at hw
  | _ => exact h.elim

/-! ## What a write does under the lock -/

/-- The message with so many bytes at its front. -/
def Device.filled (p : d.Priv) (src : List UInt8) (i : ℕ) (h : (src.take i).length ≤ d.cap) :
    MsgPriv d.cap :=
  (d.msg p).overwrite (src.take i) h

theorem length_take_le_cap {src : List UInt8} {i count cap : ℕ} (h : i ≤ min count cap) :
    (src.take i).length ≤ cap :=
  (List.length_take_le _ _).trans (h.trans (min_le_right count cap))

/-- What comes to stand in the buffer, the zeros behind a fault included. -/
def Device.arriving (buf : List UInt8) (count : ℕ) : List UInt8 :=
  (copyFromUser (.user buf) (min count d.cap)).1

theorem length_arriving (buf : List UInt8) (count : ℕ) :
    (d.arriving buf count).length = min count d.cap := copyFromUser_length _ _

theorem arriving_getElem? {buf : List UInt8} {count i : ℕ} (hi : i < min count d.cap) :
    (d.arriving buf count)[i]? = some (buf.getD i 0) := by
  have htake : ((buf.take (min count d.cap)).take buf.length) = buf.take (min count d.cap) :=
    List.take_of_length_le (List.length_take_le' _ _)
  change (((buf.take (min count d.cap)).take buf.length).rightpad (min count d.cap) 0)[i]? = _
  rw [htake, List.rightpad, List.getD_eq_getElem?_getD]
  by_cases hb : i < buf.length
  · have hlt : i < (buf.take (min count d.cap)).length := by
      rw [List.length_take]
      exact lt_min hi hb
    rw [List.getElem?_append_left hlt, List.getElem?_take_of_lt hi, List.getElem?_eq_getElem hb,
      Option.getD_some]
  · have hle : (buf.take (min count d.cap)).length ≤ i :=
      (List.length_take_le' _ _).trans (not_lt.mp hb)
    rw [List.getElem?_append_right hle, List.getElem?_replicate_of_lt
      (Nat.sub_lt_sub_right hle hi), List.getElem?_eq_none (not_lt.mp hb), Option.getD_none]

def Device.writeResult (p : d.Priv) (buf : List UInt8) (count : ℕ) (pos : ℤ) : d.Priv × Result :=
  let n := min count d.cap
  let m := d.filled p (d.arriving buf count) n (length_take_le_cap (Nat.le_refl n))
  if buf.length < n then (d.withMsg p m, .moved (.error .EFAULT) buf pos)
  else
    (d.withReady (d.withMsg p (m.setLen n (min_le_right count d.cap))) true,
      .moved (.ok n) buf (d.posAfter n))

/-- Where a write can be. -/
def Device.WriteMid (p : d.Priv) (buf : List UInt8) (count : ℕ) (pos : ℤ) : Work × d.Priv → Prop
  | (.writeCopy b k i q, p') => b = buf ∧ k = count ∧ q = pos ∧ i ≤ buf.length ∧
      ∃ h : i ≤ min count d.cap,
        p' = d.withMsg p (d.filled p (d.arriving buf count) i (length_take_le_cap h))
  | (.writePad b k i q, p') => b = buf ∧ k = count ∧ q = pos ∧ buf.length ≤ i ∧
      buf.length < min count d.cap ∧ ∃ h : i ≤ min count d.cap,
        p' = d.withMsg p (d.filled p (d.arriving buf count) i (length_take_le_cap h))
  | (.writeLen b k, p') => b = buf ∧ k = count ∧ min count d.cap ≤ buf.length ∧
      p' = d.withMsg p (d.filled p (d.arriving buf count) (min count d.cap)
        (length_take_le_cap (Nat.le_refl _)))
  | (.writeReady b k, p') => b = buf ∧ k = count ∧ min count d.cap ≤ buf.length ∧
      p' = d.withMsg p ((d.filled p (d.arriving buf count) (min count d.cap)
        (length_take_le_cap (Nat.le_refl _))).setLen (min count d.cap) (min_le_right count d.cap))
  | (.finished r, p') => (p', r) = d.writeResult p buf count pos
  | _ => False

theorem MsgPriv.eq_of {cap : ℕ} {p q : MsgPriv cap} (hb : p.buf = q.buf) (hl : p.len = q.len) :
    p = q := by
  cases p
  cases q
  cases hb
  cases hl
  rfl

/-- One more byte arrives, copied or zero. -/
theorem filled_put (p : d.Priv) {buf : List UInt8} {i count : ℕ} (h : i < min count d.cap) :
    MsgPriv.put (d.filled p (d.arriving buf count) i (length_take_le_cap (Nat.le_of_lt h))) i
        (buf.getD i 0) =
      d.filled p (d.arriving buf count) (i + 1) (length_take_le_cap h) := by
  have harrives : (d.arriving buf count)[i]? = some (buf.getD i 0) := arriving_getElem? d h
  obtain ⟨hi, hget⟩ := List.getElem?_eq_some_iff.mp harrives
  have hlen : ((d.arriving buf count).take i).length = i := by
    rw [List.length_take, Nat.min_eq_left (Nat.le_of_lt hi)]
  have hcap : i < (d.msg p).buf.length := by
    rw [(d.msg p).size]
    exact lt_of_lt_of_le h (min_le_right count d.cap)
  have hset := set_overlay ((d.arriving buf count).take i) (d.msg p).buf
    (by rw [hlen]; exact hcap) (d.arriving buf count)[i]
  rw [hlen, List.take_append_getElem, hget] at hset
  exact MsgPriv.eq_of hset rfl

theorem writeMid_work (p : d.Priv) (buf : List UInt8) (count : ℕ) (pos : ℤ) (a b : Work × d.Priv)
    (h : d.WriteMid p buf count pos a) (hw : d.work a.1 a.2 = some b) :
    d.WriteMid p buf count pos b := by
  obtain ⟨l, p'⟩ := a
  cases l with
  | writeCopy b' k i q =>
    obtain ⟨rfl, rfl, rfl, hib, hin, rfl⟩ := h
    simp only [Device.work, d.msg_withMsg, d.withMsg_withMsg] at hw
    by_cases hi : i < min k d.cap
    · simp only [hi, if_true] at hw
      cases hget : b'[i]? with
      | some v =>
        simp only [hget, Option.some.injEq] at hw
        subst hw
        have hlt := (List.getElem?_eq_some_iff.mp hget).1
        have hv : b'.getD i 0 = v := by rw [List.getD_eq_getElem?_getD, hget, Option.getD_some]
        refine ⟨rfl, rfl, rfl, hlt, hi, ?_⟩
        rw [← hv, filled_put d p hi]
      | none =>
        -- the caller's memory ends here
        simp only [hget, Option.some.injEq] at hw
        subst hw
        have hlen := List.getElem?_eq_none_iff.mp hget
        exact ⟨rfl, rfl, rfl, hlen, lt_of_le_of_lt hlen hi, hin, rfl⟩
    · simp only [hi, if_false, Option.some.injEq] at hw
      subst hw
      obtain rfl : i = min k d.cap := by omega
      exact ⟨rfl, rfl, hib, rfl⟩
  | writePad b' k i q =>
    obtain ⟨rfl, rfl, rfl, hbi, hb, hin, rfl⟩ := h
    simp only [Device.work, d.msg_withMsg, d.withMsg_withMsg] at hw
    by_cases hi : i < min k d.cap
    · simp only [hi, if_true, Option.some.injEq] at hw
      subst hw
      have hzero : b'.getD i 0 = 0 := by
        rw [List.getD_eq_getElem?_getD, List.getElem?_eq_none hbi, Option.getD_none]
      refine ⟨rfl, rfl, rfl, Nat.le_succ_of_le hbi, hb, hi, ?_⟩
      rw [← filled_put d p hi, hzero]
    · simp only [hi, if_false, Option.some.injEq] at hw
      subst hw
      obtain rfl : i = min k d.cap := by omega
      change (_, _) = _
      simp only [Device.writeResult, hb, if_true]
  | writeLen b' k =>
    obtain ⟨rfl, rfl, hlen, rfl⟩ := h
    simp only [Device.work, Option.some.injEq] at hw
    subst hw
    refine ⟨rfl, rfl, hlen, ?_⟩
    simp only [d.msg_withMsg, d.withMsg_withMsg]
  | writeReady b' k =>
    obtain ⟨rfl, rfl, hlen, rfl⟩ := h
    simp only [Device.work, Option.some.injEq] at hw
    subst hw
    change (_, _) = _
    simp only [Device.writeResult, if_neg (not_lt.mpr hlen)]
  | finished r => simp [Device.work] at hw
  | _ => exact h.elim

/-! ## Every call -/

/-- What holds along the work of a call holds at its end. -/
theorem works_mid {P : Work × d.Priv → Prop} (hP : ∀ a b, P a → d.work a.1 a.2 = some b → P b)
    {a b : Work × d.Priv} (ha : P a) (h : d.code.Works a b) : P b := by
  induction h with
  | refl => exact ha
  | tail _ hstep ih => exact hP _ _ ih hstep

/-- What `get_len` answers. -/
def lenResult (arg : List UInt8) (len : ℕ) : Result :=
  let (m, left) := copyToUser (.user arg) (intBytes len)
  .answered (if left ≠ 0 then .error .EFAULT else .ok 0) m.bytes

/-- The callbacks of the device as one step. -/
structure Device.Does (f : Call → d.Priv → d.Priv × Result) : Prop where
  refused : ∀ buf count pos p, d.refuses pos = true →
    f (.read buf count pos) p = (p, .moved (.error .EINVAL) buf pos)
  read : ∀ buf count pos p, d.refuses pos = false →
    f (.read buf count pos) p = (p, d.readResult p buf count pos)
  write : ∀ buf count pos p, f (.write buf count pos) p = d.writeResult p buf count pos
  getLen : d.hasIoctl = true → ∀ arg p, f (.ioctl nvDemoIocGetLen arg) p =
    (p, lenResult arg (d.msg p).len)
  clear : d.hasIoctl = true → ∀ arg p, f (.ioctl nvDemoIocClear arg) p =
    (d.withReady (d.withMsg p ((d.msg p).setLen 0 (Nat.zero_le d.cap))) false,
      .answered (.ok 0) arg)
  noIoctl : ∀ cmd arg p, (d.hasIoctl = false ∨ nvDemoIocGetLen ≠ cmd ∧ nvDemoIocClear ≠ cmd) →
    f (.ioctl cmd arg) p = (p, .answered (.error .ENOTTY) arg)
  poll : d.hasIoctl = true → ∀ p, f .poll p =
    (p, .mask (d.events p ||| (epollOut ||| epollWrNorm)))
  noPoll : d.hasIoctl = false → ∀ p, f .poll p = (p, .mask 0)

theorem readMid_end {p : d.Priv} {buf : List UInt8} {count : ℕ} {pos : ℤ} {l : Work} {p' : d.Priv}
    (h : d.ReadMid p buf count pos (l, p')) (hw : d.work l p' = none) :
    p' = p ∧ l = .finished (d.readResult p buf count pos) := by
  cases l with
  | readCheck b k q =>
    simp only [Device.work] at hw
    split at hw <;> cases hw
  | readCopy b n i q =>
    obtain ⟨rfl, rfl, -, rfl, -, -, -⟩ := h
    simp only [Device.work] at hw
    by_cases hi : i < (d.source p' count q).length
    · have hget := source_getElem? d p' hi
      rw [List.getElem?_eq_getElem hi] at hget
      simp only [hi, if_true, hget] at hw
      split at hw <;> cases hw
    · simp only [hi, if_false] at hw
      cases hw
  | finished r => exact ⟨h.1, congrArg Work.finished h.2⟩
  | _ => exact h.elim

theorem writeMid_end {p : d.Priv} {buf : List UInt8} {count : ℕ} {pos : ℤ} {l : Work} {p' : d.Priv}
    (h : d.WriteMid p buf count pos (l, p')) (hw : d.work l p' = none) :
    p' = (d.writeResult p buf count pos).1 ∧
      l = .finished (d.writeResult p buf count pos).2 := by
  cases l with
  | writeCopy b k i q =>
    simp only [Device.work] at hw
    split at hw
    · split at hw <;> cases hw
    · cases hw
  | writePad b k i q =>
    simp only [Device.work] at hw
    split at hw <;> cases hw
  | writeLen b k => cases hw
  | writeReady b k => cases hw
  | finished r =>
    obtain ⟨hp, hr⟩ := Prod.mk.inj h
    exact ⟨hp, congrArg Work.finished hr⟩
  | _ => exact h.elim

/-- A call with nothing left to do returns just that. -/
theorem returns_finished {r r' : Result} (h : d.code.Returns (.ok (.finished r)) r') : r = r' := by
  cases h with
  | later h =>
    cases h
    rfl

theorem returns_polled {m : UInt32} {r : Result} (h : d.code.Returns (.ok (.polled m)) r) :
    .mask (m ||| (epollOut ||| epollWrNorm)) = r := by
  cases h with
  | later h =>
    cases h
    rfl

/-- However far `get_len` has copied, it ends with the answer of one whole copy. -/
theorem returns_gotLen {arg : List UInt8} {len i : ℕ} {r : Result} (hi : i ≤ (intBytes len).length)
    (harg : i ≤ arg.length)
    (h : d.code.Returns (.ok (.gotLen (overlay ((intBytes len).take i) arg) len i)) r) :
    lenResult arg len = r := by
  induction hk : (intBytes len).length - i generalizing i with
  | zero =>
    obtain rfl : i = (intBytes len).length := by omega
    have hnone : (intBytes len)[(intBytes len).length]? = none :=
      List.getElem?_eq_none (Nat.le_refl _)
    cases h with
    | later h =>
      simp only [Device.code, after, hnone, List.take_length] at h
      cases h
      simp only [lenResult, copyToUser_user arg harg, ne_eq, not_true_eq_false, if_false]
  | succ k ih =>
    have hlt : i < (intBytes len).length := by omega
    have hlen : ((intBytes len).take i).length = i := by rw [List.length_take, Nat.min_eq_left hi]
    have hover : (overlay ((intBytes len).take i) arg).length = arg.length :=
      length_overlay (hlen.trans_le harg)
    cases h with
    | later h =>
      simp only [Device.code, after, List.getElem?_eq_getElem hlt, hover] at h
      by_cases hb : i < arg.length
      · have hset := set_overlay ((intBytes len).take i) arg (by rw [hlen]; exact hb)
          (intBytes len)[i]
        rw [hlen, List.take_append_getElem] at hset
        rw [if_pos hb, hset] at h
        exact ih hlt hb h (by omega)
      · -- the copy stops at the end of the caller's memory
        rw [if_neg hb] at h
        cases h
        obtain rfl : i = arg.length := by omega
        have hleft : (intBytes len).length - arg.length ≠ 0 := by omega
        simp only [lenResult, copyToUser, Mem.user, hleft, ne_eq, not_false_eq_true, if_true]

/-- The three places of a `clear`. -/
def Device.ClearMid (p : d.Priv) (arg : List UInt8) (a : Work × d.Priv) : Prop :=
  let q := d.withMsg p ((d.msg p).setLen 0 (Nat.zero_le d.cap))
  a = (.clearLen arg, p) ∨ a = (.clearReady arg, q) ∨
    a = (.finished (.answered (.ok 0) arg), d.withReady q false)

theorem clearMid_work (p : d.Priv) (arg : List UInt8) (a b : Work × d.Priv)
    (h : d.ClearMid p arg a) (hw : d.work a.1 a.2 = some b) : d.ClearMid p arg b := by
  rcases h with rfl | rfl | rfl
  · exact .inr (.inl (Option.some.inj hw).symm)
  · exact .inr (.inr (Option.some.inj hw).symm)
  · cases hw

/-- A call that does one thing under the lock and lets it go. -/
theorem works_once {l : Work} (l' : Work) {p : d.Priv} {b : Work × d.Priv}
    (hfirst : d.work l p = some (l', p)) (hlast : d.work l' p = none)
    (h : d.code.Works (l, p) b) (hend : d.work b.1 b.2 = none) : b = (l', p) := by
  have hmid := works_mid d (P := fun a => a = (l, p) ∨ a = (l', p)) ?_ (.inl rfl) h
  · rcases hmid with rfl | hb
    · rw [hfirst] at hend
      cases hend
    · exact hb
  · rintro a b (rfl | rfl) hw
    · exact .inr (Option.some.inj (hw.symm.trans hfirst))
    · rw [hlast] at hw
      cases hw

/-- The calls that return without the lock. -/
theorem before_error {c : Call} {r : Result} (h : d.before c = .error r) :
    (∃ buf count pos, c = .read buf count pos ∧ d.refuses pos = true ∧
      r = .moved (.error .EINVAL) buf pos) ∨
    (∃ cmd arg, c = .ioctl cmd arg ∧ r = .answered (.error .ENOTTY) arg ∧
      (d.hasIoctl = false ∨ nvDemoIocGetLen ≠ cmd ∧ nvDemoIocClear ≠ cmd)) ∨
    (c = .poll ∧ d.hasIoctl = false ∧ r = .mask 0) := by
  cases c with
  | read buf count pos =>
    simp only [Device.before] at h
    split at h
    · rename_i hr
      exact .inl ⟨buf, count, pos, rfl, hr, (Except.error.inj h).symm⟩
    · cases h
  | write buf count pos => cases h
  | ioctl cmd arg =>
    refine .inr (.inl ⟨cmd, arg, rfl, ?_⟩)
    simp only [Device.before] at h
    split at h
    · rename_i hio
      exact ⟨(Except.error.inj h).symm, .inl (Bool.not_eq_true' _ ▸ hio)⟩
    · split at h
      · cases h
      · rename_i hget
        split at h
        · cases h
        · rename_i hclear
          exact ⟨(Except.error.inj h).symm, .inr ⟨hget, hclear⟩⟩
  | poll =>
    simp only [Device.before] at h
    split at h
    · cases h
    · rename_i hio
      exact .inr (.inr ⟨rfl, Bool.not_eq_true _ ▸ hio, (Except.error.inj h).symm⟩)

/-- The calls that take the lock, and where each starts under it. -/
theorem before_ok {c : Call} {l : Work} (h : d.before c = .ok l) :
    (∃ buf count pos, c = .read buf count pos ∧ d.refuses pos = false ∧
      l = .readCheck buf count pos) ∨
    (∃ buf count pos, c = .write buf count pos ∧ l = .writeCopy buf count 0 pos) ∨
    (d.hasIoctl = true ∧ ((∃ arg, c = .ioctl nvDemoIocGetLen arg ∧ l = .getLen arg) ∨
      (∃ arg, c = .ioctl nvDemoIocClear arg ∧ l = .clearLen arg) ∨ c = .poll ∧ l = .poll)) := by
  cases c with
  | read buf count pos =>
    simp only [Device.before] at h
    split at h
    · cases h
    · rename_i hr
      exact .inl ⟨buf, count, pos, rfl, Bool.not_eq_true _ ▸ hr, (Except.ok.inj h).symm⟩
  | write buf count pos => exact .inr (.inl ⟨buf, count, pos, rfl, (Except.ok.inj h).symm⟩)
  | ioctl cmd arg =>
    simp only [Device.before] at h
    split at h
    · cases h
    · rename_i hio
      simp only [Bool.not_eq_true', Bool.not_eq_false] at hio
      split at h
      · rename_i hget
        exact .inr (.inr ⟨hio, .inl ⟨arg, by rw [hget], (Except.ok.inj h).symm⟩⟩)
      · split at h
        · rename_i hclear
          exact .inr (.inr ⟨hio, .inr (.inl ⟨arg, by rw [hclear], (Except.ok.inj h).symm⟩)⟩)
        · cases h
  | poll =>
    simp only [Device.before] at h
    split at h
    · rename_i hio
      exact .inr (.inr ⟨hio, .inr (.inr ⟨rfl, (Except.ok.inj h).symm⟩)⟩)
    · cases h

theorem Device.Does.meets {f : Call → d.Priv → d.Priv × Result} (h : d.Does f) :
    d.code.Meets f where
  refused c r hb p := by
    obtain ⟨buf, count, pos, rfl, hr, rfl⟩ | ⟨cmd, arg, rfl, rfl, hno⟩ | ⟨rfl, hio, rfl⟩ :=
      before_error d hb
    · exact h.refused buf count pos p hr
    · exact h.noIoctl cmd arg p hno
    · exact h.noPoll hio p
  worked c l hb p l' p' hworks hend := by
    obtain ⟨buf, count, pos, rfl, hr, rfl⟩ | ⟨buf, count, pos, rfl, rfl⟩ |
      ⟨hio, ⟨arg, rfl, rfl⟩ | ⟨arg, rfl, rfl⟩ | ⟨rfl, rfl⟩⟩ := before_ok d hb
    -- a read
    · have hmid := works_mid d (readMid_work d p buf count pos) (by exact ⟨rfl, rfl, rfl, rfl⟩)
        hworks
      obtain ⟨rfl, rfl⟩ := readMid_end d hmid hend
      rw [h.read buf count pos _ hr]
      exact ⟨rfl, fun r hr => returns_finished d hr⟩
    -- a write, which starts with nothing copied
    · have hstart : d.WriteMid p buf count pos (.writeCopy buf count 0 pos, p) := by
        refine ⟨rfl, rfl, rfl, Nat.zero_le _, Nat.zero_le _, ?_⟩
        have hsame : d.filled p (d.arriving buf count) 0
            (length_take_le_cap (Nat.zero_le (min count d.cap))) = d.msg p := MsgPriv.eq_of rfl rfl
        rw [hsame, d.withMsg_msg]
      have hmid := works_mid d (writeMid_work d p buf count pos) hstart hworks
      obtain ⟨rfl, rfl⟩ := writeMid_end d hmid hend
      rw [h.write]
      exact ⟨rfl, fun r hr => returns_finished d hr⟩
    -- the three calls of the driver with an ioctl
    · have heq := works_once d (.gotLen arg (d.msg p).len 0) rfl rfl hworks hend
      obtain ⟨rfl, rfl⟩ := Prod.mk.inj heq
      rw [h.getLen hio]
      exact ⟨rfl, fun r hr => returns_gotLen d (Nat.zero_le _) (Nat.zero_le _) hr⟩
    · have hmid := works_mid d (clearMid_work d p arg) (.inl rfl) hworks
      rw [h.clear hio]
      rcases hmid with heq | heq | heq
      · obtain ⟨rfl, rfl⟩ := Prod.mk.inj heq
        cases hend
      · obtain ⟨rfl, rfl⟩ := Prod.mk.inj heq
        cases hend
      · obtain ⟨rfl, rfl⟩ := Prod.mk.inj heq
        exact ⟨rfl, fun r hr => returns_finished d hr⟩
    · have heq := works_once d (.polled (d.events p)) rfl rfl hworks hend
      obtain ⟨rfl, rfl⟩ := Prod.mk.inj heq
      rw [h.poll hio]
      exact ⟨rfl, fun r hr => returns_polled d hr⟩

/-! ## The four devices -/

theorem storedRead_refused {cap : ℕ} (p : MsgPriv cap) (buf : List UInt8) (count : ℕ) {pos : ℤ}
    (h : pos < 0) : moved p (storedRead (some p) (.user buf) count pos) =
      (p, .moved (.error .EINVAL) buf pos) := by
  simp only [storedRead, if_pos h]
  rfl

theorem storedRead_result {cap : ℕ} (p : MsgPriv cap) (buf : List UInt8) (count : ℕ) {pos : ℤ}
    (h : ¬ pos < 0) : moved p (storedRead (some p) (.user buf) count pos) =
      (p, (stored cap).readResult p buf count pos) := by
  by_cases hend : p.len ≤ asSize pos
  · have hno : (stored cap).nothing p pos = true := decide_eq_true hend
    simp only [storedRead, if_neg h, if_pos hend, Device.readResult, hno, if_true]
    rfl
  · have hno : (stored cap).nothing p pos = false := decide_eq_false hend
    simp only [storedRead, if_neg h, if_neg hend, Device.readResult, hno, Bool.false_eq_true,
      if_false]
    change moved p (if (copyToUser (.user buf) ((stored cap).source p count pos)).2 ≠ 0 then _
      else _) = _
    split <;> rfl

/-- All that a copy brings is what the buffer takes. -/
theorem filled_arriving (p : d.Priv) (buf : List UInt8) (count : ℕ) :
    d.filled p (d.arriving buf count) (min count d.cap) (length_take_le_cap (Nat.le_refl _)) =
      (d.msg p).overwrite (copyFromUser (.user buf) (min count d.cap)).1
        ((copyFromUser_length _ _).trans_le (min_le_right count d.cap)) := by
  have hall : (d.arriving buf count).take (min count d.cap) = d.arriving buf count :=
    List.take_of_length_le (length_arriving d buf count).le
  simp only [Device.filled, hall]
  rfl

theorem writeResult_faulted (p : d.Priv) {buf : List UInt8} {count : ℕ} (pos : ℤ)
    (h : buf.length < min count d.cap) : d.writeResult p buf count pos =
      (d.withMsg p ((d.msg p).overwrite (copyFromUser (.user buf) (min count d.cap)).1
        ((copyFromUser_length _ _).trans_le (min_le_right count d.cap))),
        .moved (.error .EFAULT) buf pos) := by
  simp only [Device.writeResult, filled_arriving, if_pos h]

theorem writeResult_copied (p : d.Priv) {buf : List UInt8} {count : ℕ} (pos : ℤ)
    (h : ¬ buf.length < min count d.cap) : d.writeResult p buf count pos =
      (d.withReady (d.withMsg p (((d.msg p).overwrite (copyFromUser (.user buf) (min count d.cap)).1
        ((copyFromUser_length _ _).trans_le (min_le_right count d.cap))).setLen (min count d.cap)
          (min_le_right count d.cap))) true,
        .moved (.ok (min count d.cap)) buf (d.posAfter (min count d.cap))) := by
  simp only [Device.writeResult, filled_arriving, if_neg h]

theorem storedWrite_result {cap : ℕ} (p : MsgPriv cap) (buf : List UInt8) (count : ℕ) (pos : ℤ) :
    moved p (storedWrite (some p) (.user buf) count pos) =
      (stored cap).writeResult p buf count pos := by
  by_cases hlt : buf.length < min count cap
  · have hleft : (copyFromUser (.user buf) (min count cap)).2 ≠ 0 := Nat.sub_ne_zero_of_lt hlt
    simp only [storedWrite, if_pos hleft]
    exact (writeResult_faulted (stored cap) p pos hlt).symm
  · have hleft : (copyFromUser (.user buf) (min count cap)).2 = 0 :=
      Nat.sub_eq_zero_of_le (not_lt.mp hlt)
    simp only [storedWrite, if_neg (not_not.mpr hleft)]
    exact (writeResult_copied (stored cap) p pos hlt).symm

theorem wrapped_read {P : Type} {ops : DevOps (Option P)} {cb : RwCallback (Option P)}
    (h : ops.read = some cb) (ioctl : Option (UInt32 → IoctlHandler (Option P)))
    (poll : Option (Option P → UInt32)) (buf : List UInt8) (count : ℕ) (pos : ℤ) (p : P) :
    wrapped ops ioctl poll (.read buf count pos) p = moved p (cb (some p) (.user buf) count pos) := by
  simp only [wrapped, Io.read, Option.bind_some, h]
  rfl

theorem wrapped_write {P : Type} {ops : DevOps (Option P)} {cb : RwCallback (Option P)}
    (h : ops.write = some cb) (ioctl : Option (UInt32 → IoctlHandler (Option P)))
    (poll : Option (Option P → UInt32)) (buf : List UInt8) (count : ℕ) (pos : ℤ) (p : P) :
    wrapped ops ioctl poll (.write buf count pos) p =
      moved p (cb (some p) (.user buf) count pos) := by
  simp only [wrapped, Io.write, Option.bind_some, h]
  rfl

theorem stored_does {cap : ℕ} {ops : DevOps (Option (MsgPriv cap))}
    (hread : ops.read = some storedRead) (hwrite : ops.write = some storedWrite) :
    (stored cap).Does (wrapped ops none none) where
  refused buf count pos p hneg :=
    (wrapped_read hread none none buf count pos p).trans
      (storedRead_refused p buf count (of_decide_eq_true hneg))
  read buf count pos p hneg :=
    (wrapped_read hread none none buf count pos p).trans
      (storedRead_result p buf count (of_decide_eq_false hneg))
  write buf count pos p :=
    (wrapped_write hwrite none none buf count pos p).trans (storedWrite_result p buf count pos)
  getLen hio := by cases hio
  clear hio := by cases hio
  noIoctl cmd arg p _ := rfl
  poll hio := by cases hio
  noPoll _ p := rfl

theorem demoRead_result (p : DemoPriv) (buf : List UInt8) (count : ℕ) (pos : ℤ) :
    moved p (demoRead (some p) (.user buf) count pos) = (p, demo.readResult p buf count pos) := by
  by_cases hready : (!p.dataReady || p.len == 0) = true
  · have hno : demo.nothing p pos = true := by
      change (!p.dataReady || p.len == 0 || decide (p.len ≤ asSize pos)) = true
      rw [hready, Bool.true_or]
    simp only [demoRead, if_pos hready, Device.readResult, hno, if_true]
    rfl
  · by_cases hend : p.len ≤ asSize pos
    · have hno : demo.nothing p pos = true := by
        change (!p.dataReady || p.len == 0 || decide (p.len ≤ asSize pos)) = true
        rw [decide_eq_true hend, Bool.or_true]
      simp only [demoRead, if_neg hready, if_pos hend, Device.readResult, hno, if_true]
      rfl
    · have hno : demo.nothing p pos = false := by
        change (!p.dataReady || p.len == 0 || decide (p.len ≤ asSize pos)) = false
        rw [decide_eq_false hend, Bool.or_false]
        exact Bool.eq_false_iff.mpr hready
      simp only [demoRead, if_neg hready, if_neg hend, Device.readResult, hno, Bool.false_eq_true,
        if_false]
      change moved p (if (copyToUser (.user buf) (demo.source p count pos)).2 ≠ 0 then _
        else _) = _
      split <;> rfl

theorem demoWrite_result (p : DemoPriv) (buf : List UInt8) (count : ℕ) (pos : ℤ) :
    moved p (demoWrite (some p) (.user buf) count pos) = demo.writeResult p buf count pos := by
  by_cases hlt : buf.length < min count demoBufSize
  · have hleft : (copyFromUser (.user buf) (min count demoBufSize)).2 ≠ 0 :=
      Nat.sub_ne_zero_of_lt hlt
    simp only [demoWrite, if_pos hleft]
    exact (writeResult_faulted demo p pos hlt).symm
  · have hleft : (copyFromUser (.user buf) (min count demoBufSize)).2 = 0 :=
      Nat.sub_eq_zero_of_le (not_lt.mp hlt)
    simp only [demoWrite, if_neg (not_not.mpr hleft)]
    exact (writeResult_copied demo p pos hlt).symm

theorem demoGetLen_result (p : DemoPriv) (arg : List UInt8) :
    let r := demoIoctlGetLen (some p) (.user arg)
    (r.state.getD p, Result.answered r.ret r.arg.bytes) = (p, lenResult arg p.len) := by
  simp only [demoIoctlGetLen, lenResult]
  split <;> rfl

theorem demo_does (pageShift : ℕ) (holds : ℤ → Bool) :
    demo.Does (wrapped (MessageDevice.demo.ops pageShift) (some (demoIoctl holds))
      (some demoPoll)) where
  refused buf count pos p h := by cases h
  read buf count pos p _ :=
    (wrapped_read rfl (some (demoIoctl holds)) (some demoPoll) buf count pos p).trans
      (demoRead_result p buf count pos)
  write buf count pos p :=
    (wrapped_write rfl (some (demoIoctl holds)) (some demoPoll) buf count pos p).trans
      (demoWrite_result p buf count pos)
  getLen _ arg p := demoGetLen_result p arg
  clear _ arg p := rfl
  noIoctl cmd arg p h := by
    obtain ⟨hget, hclear⟩ := h.resolve_left (by decide)
    simp only [wrapped, Io.unlockedIoctl, demoIoctl, ioctlDispatch, demoIoctls, ioctlLoop, hget,
      hclear, ne_eq, not_false_eq_true, if_true]
    rfl
  poll _ p := rfl
  noPoll h := by cases h

theorem atomic_does (pageShift : ℕ) (holds : ℤ → Bool) (d : MessageDevice) :
    (device pageShift d).Does (atomic pageShift holds d) := by
  cases d with
  | echo => exact stored_does rfl rfl
  | miscEcho => exact stored_does rfl rfl
  | plat => exact stored_does rfl rfl
  | demo => exact demo_does pageShift holds

theorem message_devices_linearizable {ι : Type} [DecidableEq ι] (pageShift : ℕ) (holds : ℤ → Bool)
    (d : MessageDevice) (p : (device pageShift d).Priv) (acts : List (Act ι Call)) :
    Throughout (Locked.step (device pageShift d).code)
      (Linearized (atomic pageShift holds d) p) (State.init ι Call Work Result p) acts :=
  linearized_throughout (atomic_does pageShift holds d).meets p acts

end LinuxDriverFramework.NvChar.MessageThreads
