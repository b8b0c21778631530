import LinuxDriverFramework.Foundations.MessageStore
import LinuxDriverFramework.NvChar.MessageDevices

/-! # The devices that store one message, over runs of calls

`nv_char_echo`, `nv_char_misc_echo` and `nv_char_plat` through the wrappers of `nv_char.c`, with any
number of descriptors.

* `StoringDevice`: the three devices.
* `World`, `Call`, `exec`: the private structure and the positions of the descriptors; a complete
  call of `nv_char_read`, `nv_char_write` or `nv_char_llseek`.
* `storeExec`: the same calls on one message with a position per descriptor.
* `Fits`: the caller's buffer is there for all that a call copies, and so no copy faults.
* `runCalls_refines`: then nobody can tell the two apart. -/

namespace LinuxDriverFramework.NvChar.StoredMessage
open Foundations Io
set_option autoImplicit false

/-! ## The devices -/

inductive StoringDevice
  | echo | miscEcho | plat
  deriving DecidableEq, Repr

def StoringDevice.cap (pageShift : ℕ) : StoringDevice → ℕ
  | .echo => echoBufSize
  | .miscEcho | .plat => pageSize pageShift

def StoringDevice.ops (pageShift : ℕ) :
    (d : StoringDevice) → DevOps (Option (MsgPriv (d.cap pageShift)))
  | .echo => MessageDevice.echo.ops pageShift
  | .miscEcho => MessageDevice.miscEcho.ops pageShift
  | .plat => MessageDevice.plat.ops pageShift

/-- `storedRead` and `storedWrite` at one size. -/
def storedOps (cap : ℕ) : DevOps (Option (MsgPriv cap)) :=
  ⟨some storedRead, some storedWrite, none, none⟩

theorem StoringDevice.ops_eq (d : StoringDevice) (pageShift : ℕ) :
    d.ops pageShift = storedOps (d.cap pageShift) := by
  cases d <;> rfl

/-! ## Runs of calls -/

/-- What `default_llseek` returns for a position, an offset and a `whence`; a position that it
returns is the new one. -/
abbrev Llseek := Int64 → Int64 → ℤ → Except Errno Int64

/-- `nv_char_llseek` on a device without an `llseek` of its own: the result and the position. -/
def llseek (defaultLlseek : Llseek) (removing : Bool) (pos offset : Int64) (whence : ℤ) :
    Except Errno Int64 × Int64 :=
  if removing then (.error .ENODEV, pos)
  else
    match defaultLlseek pos offset whence with
    | .error e => (.error e, pos)
    | .ok p => (.ok p, p)

/-- `dev->priv` and the position of every descriptor. -/
structure World (cap : ℕ) where
  priv : Option (MsgPriv cap)
  pos : ℕ → Int64

/-- The device as its module registers it; the descriptors may be anywhere. -/
def World.start (cap : ℕ) (pos : ℕ → Int64) : World cap := ⟨some (.zero cap), pos⟩

def World.moveTo {cap : ℕ} (w : World cap) (fd : ℕ) (p : Int64) : World cap :=
  { w with pos := Function.update w.pos fd p }

/-- A call on a descriptor; `buf` is the caller's buffer. -/
inductive Call
  | read (fd : ℕ) (buf : List UInt8) (count : ℕ)
  | write (fd : ℕ) (buf : List UInt8) (count : ℕ)
  | llseek (fd : ℕ) (offset : Int64) (whence : ℤ)

/-- What the caller sees: the result, and for a transfer the buffer. -/
inductive Reply
  | moved (ret : Except Errno ℕ) (buf : List UInt8)
  | sought (ret : Except Errno Int64)

def Reply.bytes : Reply → List UInt8
  | .moved (.ok n) buf => buf.take n
  | _ => []

def Reply.faulted : Reply → Bool
  | .moved (.error .EFAULT) _ => true
  | _ => false

section Exec

variable {cap : ℕ} (ops : DevOps (Option (MsgPriv cap))) (defaultLlseek : Llseek)

def World.transfer (w : World cap) (fd : ℕ) (r : IoResult (Option (MsgPriv cap))) :
    World cap × Reply :=
  (World.moveTo { w with priv := r.state } fd (.ofInt r.pos), .moved r.ret r.mem.bytes)

def exec (w : World cap) : Call → World cap × Reply
  | .read fd buf count =>
    w.transfer fd (Io.read false (some ops) w.priv (.user buf) count (w.pos fd).toInt)
  | .write fd buf count =>
    w.transfer fd (Io.write false (some ops) w.priv (.user buf) count (w.pos fd).toInt)
  | .llseek fd offset whence =>
    let (ret, p) := llseek defaultLlseek false (w.pos fd) offset whence
    (w.moveTo fd p, .sought ret)

def runCalls (w : World cap) : List Call → World cap × List Reply
  | [] => (w, [])
  | c :: cs =>
    let first := exec ops defaultLlseek w c
    let rest := runCalls first.1 cs
    (rest.1, first.2 :: rest.2)

end Exec

/-! ## One message and one position per descriptor -/

abbrev Store := MessageStore ℕ UInt8

/-- The message is what `len` leaves of the buffer. -/
def message {cap : ℕ} (p : MsgPriv cap) : List UInt8 := p.buf.take p.len

def World.store {cap : ℕ} (w : World cap) : Store where
  message := w.priv.elim [] message
  pos := fun fd => (w.pos fd).toInt

def storeExec (cap : ℕ) (defaultLlseek : Llseek) (s : Store) : Call → Store × Reply
  | .read fd buf count =>
    match s.read fd count with
    | (s, none) => (s, .moved (.error .EINVAL) buf)
    | (s, some got) => (s, .moved (.ok got.length) (overlay got buf))
  | .write fd buf count =>
    let (s, n) := s.write cap fd (buf.take count)
    (s, .moved (.ok n) buf)
  | .llseek fd offset whence =>
    match defaultLlseek (.ofInt (s.pos fd)) offset whence with
    | .error e => (s, .sought (.error e))
    | .ok p => (s.moveTo fd p.toInt, .sought (.ok p))

def storeRun (cap : ℕ) (defaultLlseek : Llseek) (s : Store) : List Call → Store × List Reply
  | [] => (s, [])
  | c :: cs =>
    let first := storeExec cap defaultLlseek s c
    let rest := storeRun cap defaultLlseek first.1 cs
    (rest.1, first.2 :: rest.2)

/-! ## What is copied -/

/-- A position of a `loff_t` keeps its value where it is compared with a `size_t`. -/
theorem asSize_of_nonneg {pos : ℤ} (h : 0 ≤ pos) (hlt : pos < 2 ^ 63) : asSize pos = pos.toNat := by
  rw [asSize, Int.emod_eq_of_lt h (by omega)]

section Callbacks

variable {cap : ℕ} (p : MsgPriv cap)

/-- Where in the buffer a read copies from, and how much. -/
def readSpan (count : ℕ) (pos : ℤ) : Option (ℕ × ℕ) :=
  if pos < 0 ∨ p.len ≤ asSize pos then none else some (asSize pos, min count (p.len - asSize pos))

theorem storedRead_none {count : ℕ} {pos : ℤ} (h : readSpan p count pos = none) (buf : Mem) :
    storedRead (some p) buf count pos =
      ⟨if pos < 0 then .error .EINVAL else .ok 0, some p, buf, pos⟩ := by
  rw [readSpan, ite_eq_left_iff] at h
  have hend : pos < 0 ∨ p.len ≤ asSize pos := by
    by_contra hno
    cases h hno
  unfold storedRead
  by_cases hneg : pos < 0
  · simp only [hneg, if_true]
  · simp only [hneg, hend.resolve_left hneg, if_false, if_true]

theorem storedRead_some {count start n : ℕ} {pos : ℤ} (h : readSpan p count pos = some (start, n))
    (buf : Mem) :
    storedRead (some p) buf count pos =
      let (buf, left) := copyToUser buf ((p.buf.drop start).take n)
      if left ≠ 0 then ⟨.error .EFAULT, some p, buf, pos⟩ else ⟨.ok n, some p, buf, pos + n⟩ := by
  obtain ⟨hin, hspan⟩ := Option.ite_none_left_eq_some.mp h
  obtain ⟨rfl, rfl⟩ := Prod.mk.inj (Option.some.inj hspan)
  obtain ⟨hpos, hlen⟩ := not_or.mp hin
  simp only [storedRead, hpos, hlen, if_false]

theorem readSpan_within {count start n : ℕ} {pos : ℤ}
    (h : readSpan p count pos = some (start, n)) : start + n ≤ p.len := by
  obtain ⟨hin, hspan⟩ := Option.ite_none_left_eq_some.mp h
  obtain ⟨rfl, rfl⟩ := Prod.mk.inj (Option.some.inj hspan)
  omega

@[simp] theorem message_length : (message p).length = p.len := by
  rw [message, List.length_take, p.size, Nat.min_eq_left p.bound]

/-- A piece of the message is a piece of the buffer that ends with the message. -/
theorem message_piece (q n : ℕ) :
    ((message p).drop q).take n = (p.buf.drop q).take (min n (p.len - q)) := by
  rw [message, List.drop_take, List.take_take]

theorem storedRead_message {pos : ℤ} (h : 0 ≤ pos) (hlt : pos < 2 ^ 63) (buf : List UInt8)
    (count : ℕ) (hf : ∀ span ∈ readSpan p count pos, span.2 ≤ buf.length) :
    storedRead (some p) (.user buf) count pos =
      let got := ((message p).drop pos.toNat).take count
      ⟨.ok got.length, some p, ⟨.user, overlay got buf, buf.length⟩, pos + got.length⟩ := by
  have hsize := asSize_of_nonneg h hlt
  cases hspan : readSpan p count pos with
  | none =>
    have hlen : p.len ≤ pos.toNat := by
      rw [readSpan, ite_eq_left_iff] at hspan
      by_contra hno
      cases hspan (by omega)
    have hgot : ((message p).drop pos.toNat).take count = [] := by
      rw [List.drop_eq_nil_of_le (by rw [message_length]; exact hlen), List.take_nil]
    simp only [storedRead_none p hspan, hgot, if_neg (not_lt.mpr h)]
    simp [overlay, Mem.user]
  | some span =>
    obtain ⟨start, n⟩ := span
    obtain ⟨-, hs⟩ := Option.ite_none_left_eq_some.mp hspan
    obtain ⟨hstart, hn⟩ := Prod.mk.inj (Option.some.inj hs)
    have hgot : ((message p).drop pos.toNat).take count = (p.buf.drop start).take n := by
      rw [message_piece, ← hn, ← hstart, hsize]
    have hlen : ((p.buf.drop start).take n).length = n := by
      have hin := readSpan_within p hspan
      have hbound := p.bound
      rw [List.length_take, List.length_drop, p.size]
      omega
    have hfit : ((p.buf.drop start).take n).length ≤ buf.length := hlen.trans_le (hf _ hspan)
    rw [storedRead_some p hspan, hgot, copyToUser_user buf hfit]
    simp only [hlen, ne_eq, not_true_eq_false, if_false]

theorem storedWrite_message (buf : List UInt8) (count : ℕ) (pos : ℤ)
    (hfit : min count cap ≤ buf.length) : ∃ q : MsgPriv cap, message q = (buf.take count).take cap ∧
      storedWrite (some p) (.user buf) count pos =
        ⟨.ok (message q).length, some q, .user buf, (message q).length⟩ := by
  have hcopy := copyFromUser_user buf hfit
  let q := (p.overwrite (copyFromUser (.user buf) (min count cap)).1
    ((copyFromUser_length _ _).trans_le (min_le_right count cap))).setLen (min count cap)
      (min_le_right count cap)
  have hq : message q = (buf.take count).take cap := by
    show (overlay (copyFromUser (.user buf) (min count cap)).1 p.buf).take (min count cap) = _
    have hlen : (buf.take (min count cap)).length = min count cap := by
      rw [List.length_take, Nat.min_eq_left hfit]
    rw [hcopy, overlay, List.take_append_of_le_length hlen.ge, List.take_take, List.take_take,
      Nat.min_self, Nat.min_comm]
  refine ⟨q, hq, ?_⟩
  rw [message_length]
  show (if (copyFromUser (.user buf) (min count cap)).2 ≠ 0 then _ else _) = _
  rw [if_neg (by rw [hcopy]; exact fun h => h rfl)]
  rfl

/-- A read faults where its copy does not fit. -/
theorem storedRead_faults (buf : List UInt8) (count : ℕ) (pos : ℤ) :
    (storedRead (some p) (.user buf) count pos).ret = .error .EFAULT ↔
      ∃ span ∈ readSpan p count pos, buf.length < span.2 := by
  cases hspan : readSpan p count pos with
  | none =>
    rw [storedRead_none p hspan]
    by_cases hneg : pos < 0 <;> simp [hneg]
  | some span =>
    obtain ⟨start, n⟩ := span
    have hlen : ((p.buf.drop start).take n).length = n := by
      have hin := readSpan_within p hspan
      have hbound := p.bound
      rw [List.length_take, List.length_drop, p.size]
      omega
    rw [storedRead_some p hspan]
    simp only [copyToUser, Mem.user, hlen, Option.mem_some_iff, exists_eq_left']
    by_cases hfit : n - buf.length = 0
    · simp only [hfit, ne_eq, not_true_eq_false, if_false, reduceCtorEq, false_iff]
      omega
    · simp only [hfit, ne_eq, not_false_eq_true, if_true, true_iff]
      omega

theorem storedWrite_faults (buf : List UInt8) (count : ℕ) (pos : ℤ) :
    (storedWrite (some p) (.user buf) count pos).ret = .error .EFAULT ↔
      buf.length < min count cap := by
  simp only [storedWrite, copyFromUser, Mem.user]
  by_cases hfit : min count cap - buf.length = 0
  · simp only [hfit, ne_eq, not_true_eq_false, if_false, reduceCtorEq, false_iff]
    omega
  · simp only [hfit, ne_eq, not_false_eq_true, if_true, true_iff]
    omega

end Callbacks

/-! ## Calls whose copies fit -/

section Fits

variable {cap : ℕ}

/-- The piece of `priv->buf` that the copy of a call touches: its start and its length. -/
def touched (w : World cap) : Call → Option (ℕ × ℕ)
  | .read fd _ count => w.priv.bind fun p => readSpan p count (w.pos fd).toInt
  | .write _ _ count => w.priv.map fun _ => (0, min count cap)
  | .llseek .. => none

def Call.buffer : Call → List UInt8
  | .read _ buf _ => buf
  | .write _ buf _ => buf
  | .llseek .. => []

def Fits (w : World cap) (c : Call) : Prop := ∀ span ∈ touched w c, span.2 ≤ c.buffer.length

instance (w : World cap) (c : Call) : Decidable (Fits w c) :=
  inferInstanceAs (Decidable (∀ _ ∈ _, _))

/-- Every call of the run fits, as the device is when its turn comes. -/
def Faultless (ops : DevOps (Option (MsgPriv cap))) (defaultLlseek : Llseek) (w : World cap) :
    List Call → Prop
  | [] => True
  | c :: cs => Fits w c ∧ Faultless ops defaultLlseek (exec ops defaultLlseek w c).1 cs

instance decidableFaultless (ops : DevOps (Option (MsgPriv cap))) (defaultLlseek : Llseek) :
    ∀ (w : World cap) (calls : List Call), Decidable (Faultless ops defaultLlseek w calls)
  | _, [] => inferInstanceAs (Decidable True)
  | w, c :: cs =>
    have := decidableFaultless ops defaultLlseek (exec ops defaultLlseek w c).1 cs
    inferInstanceAs (Decidable (_ ∧ _))

/-- These are the calls that do not return `-EFAULT`. -/
theorem faulted_iff (defaultLlseek : Llseek) {w : World cap} {p : MsgPriv cap}
    (hp : w.priv = some p) (c : Call) :
    (exec (storedOps cap) defaultLlseek w c).2.faulted = true ↔ ¬ Fits w c := by
  have hmoved : ∀ (ret : Except Errno ℕ) (buf : List UInt8),
      (Reply.moved ret buf).faulted = true ↔ ret = .error .EFAULT := by
    intro ret buf
    rcases ret with e | n
    · cases e <;> simp [Reply.faulted]
    · simp [Reply.faulted]
  cases c with
  | read fd buf count =>
    have hread := storedRead_faults p buf count (w.pos fd).toInt
    rw [← hp] at hread
    refine (hmoved _ _).trans (hread.trans ?_)
    simp [Fits, touched, hp, Call.buffer]
  | write fd buf count =>
    have hwrite := storedWrite_faults p buf count (w.pos fd).toInt
    rw [← hp] at hwrite
    refine (hmoved _ _).trans (hwrite.trans ?_)
    simp [Fits, touched, hp, Call.buffer]
  | llseek fd offset whence =>
    refine iff_of_false (fun h => by cases h) fun h => h ?_
    intro span hspan
    cases hspan

end Fits

/-! ## One call -/

section Refines

variable {cap : ℕ} (defaultLlseek : Llseek)

theorem store_moveTo (w : World cap) (fd : ℕ) (x : Int64) :
    (w.moveTo fd x).store = w.store.moveTo fd x.toInt := by
  show (⟨w.store.message, fun i => (Function.update w.pos fd x i).toInt⟩ : Store) =
    ⟨w.store.message, Function.update (fun i => (w.pos i).toInt) fd x.toInt⟩
  congr 1
  funext i
  by_cases hi : i = fd
  · rw [hi, Function.update_self, Function.update_self]
  · rw [Function.update_of_ne hi, Function.update_of_ne hi]

/-- What a transfer leaves, if its position is a `loff_t`. -/
theorem transfer_store (w : World cap) (fd : ℕ) (ret : Except Errno ℕ) (q : MsgPriv cap) (mem : Mem)
    {n : ℤ} (h : (Int64.ofInt n).toInt = n) :
    (w.transfer fd ⟨ret, some q, mem, n⟩).1.store =
      ({ w.store with message := message q } : Store).moveTo fd n := by
  rw [World.transfer, store_moveTo, h]
  rfl

/-- A position that the message allows fits in a `loff_t`. -/
theorem toInt_ofInt_of_lt {n : ℤ} (h : 0 ≤ n) (hlt : n < 2 ^ 63) : (Int64.ofInt n).toInt = n :=
  Int64.toInt_ofInt_of_le (by omega) hlt

/-- The call does to the message and the positions what it does to the store. -/
def Refines (defaultLlseek : Llseek) (w : World cap) (c : Call) : Prop :=
  let r := exec (storedOps cap) defaultLlseek w c
  r.1.priv.isSome = true ∧ (r.1.store, r.2) = storeExec cap defaultLlseek w.store c

theorem read_refines (hcap : cap < 2 ^ 63) {w : World cap} {p : MsgPriv cap} (hp : w.priv = some p)
    (fd : ℕ) (buf : List UInt8) (count : ℕ) (hf : Fits w (.read fd buf count)) :
    Refines defaultLlseek w (.read fd buf count) := by
  have hpos := (w.pos fd).toInt_lt
  have hstore : { w.store with message := message p } = w.store := by
    rw [World.store, hp]
    rfl
  have hexec : exec (storedOps cap) defaultLlseek w (.read fd buf count) =
      w.transfer fd (storedRead (some p) (.user buf) count (w.pos fd).toInt) := by
    rw [← hp]
    rfl
  rw [Fits, touched, hp] at hf
  rw [Refines, hexec]
  by_cases hneg : (w.pos fd).toInt < 0
  · have hread : storedRead (some p) (.user buf) count (w.pos fd).toInt =
        ⟨.error .EINVAL, some p, .user buf, (w.pos fd).toInt⟩ := by
      simp only [storedRead, hneg, if_true]
    have hs : w.store.read fd count = (w.store, none) := if_pos hneg
    have hstay : w.store.moveTo fd (w.pos fd).toInt = w.store := w.store.moveTo_self fd
    rw [hread]
    refine ⟨rfl, ?_⟩
    rw [transfer_store w fd _ p _ (by rw [Int64.ofInt_toInt]), hstore, hstay]
    simp only [storeExec, hs]
    rfl
  · obtain ⟨q, hq⟩ := Int.eq_ofNat_of_zero_le (not_lt.mp hneg)
    have hread := storedRead_message p (not_lt.mp hneg) hpos buf count hf
    have hs := MessageStore.read_of_nonneg (s := w.store) hq count
    have hgot : w.store.slice q count = ((message p).drop q).take count := by
      rw [← hstore, MessageStore.slice]
    have hlen := w.store.slice_length q count
    have hmsg : w.store.message.length ≤ cap := by
      rw [← hstore, message_length]
      exact p.bound
    rw [hq, Int.toNat_natCast, ← hgot] at hread
    rw [hq] at hpos
    rw [hq, hread]
    refine ⟨rfl, ?_⟩
    rw [transfer_store w fd _ p _ (toInt_ofInt_of_lt (by omega) (by omega)), hstore]
    simp only [storeExec, hs, Nat.cast_add]
    rfl

theorem write_refines (hcap : cap < 2 ^ 63) {w : World cap} {p : MsgPriv cap} (hp : w.priv = some p)
    (fd : ℕ) (buf : List UInt8) (count : ℕ) (hf : Fits w (.write fd buf count)) :
    Refines defaultLlseek w (.write fd buf count) := by
  have hexec : exec (storedOps cap) defaultLlseek w (.write fd buf count) =
      w.transfer fd (storedWrite (some p) (.user buf) count (w.pos fd).toInt) := by
    rw [← hp]
    rfl
  rw [Fits, touched, hp] at hf
  rw [Refines, hexec]
  obtain ⟨q, hq, hwrite⟩ := storedWrite_message p buf count (w.pos fd).toInt (hf _ rfl)
  have hbound : (message q).length ≤ cap := by
    rw [message_length]
    exact q.bound
  rw [hwrite]
  refine ⟨rfl, ?_⟩
  rw [transfer_store w fd _ q _ (toInt_ofInt_of_lt (by omega) (by omega))]
  simp only [storeExec, MessageStore.write, ← hq]
  rfl

theorem llseek_refines {w : World cap} {p : MsgPriv cap} (hp : w.priv = some p) (fd : ℕ)
    (offset : Int64) (whence : ℤ) : Refines defaultLlseek w (.llseek fd offset whence) := by
  have hpos : Int64.ofInt (w.store.pos fd) = w.pos fd := Int64.ofInt_toInt (w.pos fd)
  have hsome : w.priv.isSome = true := by
    rw [hp]
    rfl
  refine ⟨hsome, ?_⟩
  simp only [exec, llseek, storeExec, hpos, Bool.false_eq_true, if_false]
  cases defaultLlseek (w.pos fd) offset whence with
  | error e =>
    have hstay : w.store.moveTo fd (w.pos fd).toInt = w.store := w.store.moveTo_self fd
    simp only [store_moveTo, hstay]
  | ok x => simp only [store_moveTo]

theorem exec_refines (hcap : cap < 2 ^ 63) {w : World cap} {p : MsgPriv cap} (hp : w.priv = some p)
    (c : Call) (hf : Fits w c) : Refines defaultLlseek w c := by
  cases c with
  | read fd buf count => exact read_refines defaultLlseek hcap hp fd buf count hf
  | write fd buf count => exact write_refines defaultLlseek hcap hp fd buf count hf
  | llseek fd offset whence => exact llseek_refines defaultLlseek hp fd offset whence

/-- Runs of calls that fit are runs on the store. -/
theorem runCalls_refines (hcap : cap < 2 ^ 63) {w : World cap} (hp : w.priv.isSome = true)
    {calls : List Call} (hf : Faultless (storedOps cap) defaultLlseek w calls) :
    let r := runCalls (storedOps cap) defaultLlseek w calls
    r.1.priv.isSome = true ∧ (r.1.store, r.2) = storeRun cap defaultLlseek w.store calls := by
  induction calls generalizing w with
  | nil => exact ⟨hp, rfl⟩
  | cons c cs ih =>
    obtain ⟨p, hp⟩ := Option.isSome_iff_exists.mp hp
    obtain ⟨hfirst, hrest⟩ := hf
    obtain ⟨hsome, hstep⟩ := exec_refines defaultLlseek hcap hp c hfirst
    obtain ⟨hend, hrun⟩ := ih hsome hrest
    refine ⟨hend, ?_⟩
    simp only [runCalls, storeRun, ← hstep, ← hrun]

end Refines

end LinuxDriverFramework.NvChar.StoredMessage
