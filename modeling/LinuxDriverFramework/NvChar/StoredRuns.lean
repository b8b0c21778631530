import LinuxDriverFramework.NvChar.StoredMessage

/-! # What a stored message looks like from its descriptors

* `touched_within`: the copy of a call stays inside the buffer.
* `ReadsOnce`: reads of one descriptor from the start of the message.
* `stores_one_message`: every run of calls that fit of `nv_char_echo`, `nv_char_misc_echo` and
  `nv_char_plat`. -/

namespace LinuxDriverFramework.NvChar.StoredMessage
open Foundations Io
set_option autoImplicit false

variable {cap : ℕ}

/-! ## Inside the buffer -/

theorem touched_within {w : World cap} {c : Call} {start n : ℕ}
    (h : touched w c = some (start, n)) : ∃ p, w.priv = some p ∧ start + n ≤ p.buf.length := by
  cases c with
  | read fd buf count =>
    obtain ⟨p, hp, hspan⟩ := Option.bind_eq_some_iff.mp h
    have hin := readSpan_within p hspan
    have hbound := p.bound
    exact ⟨p, hp, by rw [p.size]; omega⟩
  | write fd buf count =>
    obtain ⟨p, hp, hspan⟩ := Option.map_eq_some_iff.mp h
    obtain ⟨rfl, rfl⟩ := Prod.mk.inj hspan
    exact ⟨p, hp, by rw [p.size]; omega⟩
  | llseek fd offset whence => cases h

/-! ## Reading piece by piece -/

/-- One descriptor reads again and again, each time into a buffer and with a count of its own. -/
def reads (fd : ℕ) (chunks : List (List UInt8 × ℕ)) : List Call :=
  chunks.map fun c => .read fd c.1 c.2

def received (replies : List Reply) : List UInt8 := replies.flatMap Reply.bytes

def asked (chunks : List (List UInt8 × ℕ)) : ℕ := (chunks.map Prod.snd).sum

/-- The reads deliver the message up to what was asked for. Every count but 0 gets on, and the read
after them delivers the rest, or 0 bytes if there is none. -/
structure ReadsOnce (ops : DevOps (Option (MsgPriv cap))) (defaultLlseek : Llseek) (w : World cap)
    (fd : ℕ) (chunks : List (List UInt8 × ℕ)) : Prop where
  bytes : received (runCalls ops defaultLlseek w (reads fd chunks)).2 =
    w.store.message.take (asked chunks)
  whole : (∀ c ∈ chunks, 0 < c.2) → w.store.message.length ≤ chunks.length →
    received (runCalls ops defaultLlseek w (reads fd chunks)).2 = w.store.message
  next : ∀ buf count,
    Fits (runCalls ops defaultLlseek w (reads fd chunks)).1 (.read fd buf count) →
    (exec ops defaultLlseek (runCalls ops defaultLlseek w (reads fd chunks)).1
      (.read fd buf count)).2 =
    .moved (.ok (min count (w.store.message.length - asked chunks)))
      (overlay (w.store.slice (asked chunks) count) buf)

theorem length_le_asked {chunks : List (List UInt8 × ℕ)} (h : ∀ c ∈ chunks, 0 < c.2) :
    chunks.length ≤ asked chunks := by
  induction chunks with
  | nil => exact Nat.zero_le _
  | cons c cs ih =>
    obtain ⟨hc, hcs⟩ := List.forall_mem_cons.mp h
    have := ih hcs
    simp only [asked, List.map_cons, List.sum_cons, List.length_cons] at this ⊢
    omega

theorem bytes_overlay (got buf : List UInt8) :
    (Reply.moved (.ok got.length) (overlay got buf)).bytes = got := by
  simp only [Reply.bytes, overlay, List.take_left']

/-- On the store such reads are `readAll`. -/
theorem storeRun_reads (cap : ℕ) (defaultLlseek : Llseek) {s : Store} {fd p : ℕ} (h : s.pos fd = p)
    (chunks : List (List UInt8 × ℕ)) :
    (storeRun cap defaultLlseek s (reads fd chunks)).1 =
      (s.readAll fd (chunks.map Prod.snd)).1 ∧
    received (storeRun cap defaultLlseek s (reads fd chunks)).2 =
      (s.readAll fd (chunks.map Prod.snd)).2 := by
  induction chunks generalizing s p with
  | nil => exact ⟨rfl, rfl⟩
  | cons c cs ih =>
    have hread := MessageStore.read_of_nonneg h c.2
    obtain ⟨hstore, hbytes⟩ := ih (MessageStore.moveTo_pos_self s fd _)
    simp only [reads, List.map_cons, storeRun, storeExec, hread, MessageStore.readAll] at hstore hbytes ⊢
    refine ⟨hstore, ?_⟩
    rw [received, List.flatMap_cons, bytes_overlay]
    exact congrArg _ hbytes

section FromStart

variable (hcap : cap < 2 ^ 63) (defaultLlseek : Llseek) {w : World cap} (hp : w.priv.isSome = true)
  {fd : ℕ} (hpos : w.pos fd = 0) {chunks : List (List UInt8 × ℕ)}
  (hf : Faultless (storedOps cap) defaultLlseek w (reads fd chunks))
include hcap hp hpos hf

theorem reads_from_start :
    let r := runCalls (storedOps cap) defaultLlseek w (reads fd chunks)
    r.1.priv.isSome = true ∧
      r.1.store = w.store.moveTo fd (0 + (w.store.slice 0 (asked chunks)).length : ℕ) ∧
      received r.2 = w.store.slice 0 (asked chunks) := by
  have hstart : w.store.pos fd = (0 : ℕ) := congrArg Int64.toInt hpos
  obtain ⟨hsome, hrun⟩ := runCalls_refines defaultLlseek hcap hp hf
  obtain ⟨hend, hreplies⟩ := Prod.mk.inj hrun
  obtain ⟨hstore, hbytes⟩ := storeRun_reads cap defaultLlseek hstart chunks
  rw [MessageStore.readAll_eq hstart] at hstore hbytes
  exact ⟨hsome, hend.trans hstore, (congrArg received hreplies).trans hbytes⟩

theorem readsOnce : ReadsOnce (storedOps cap) defaultLlseek w fd chunks := by
  obtain ⟨hsome, hstore, hbytes⟩ := reads_from_start hcap defaultLlseek hp hpos hf
  rw [MessageStore.slice_zero] at hbytes
  refine ⟨hbytes, fun hpositive hlen => ?_, fun buf count hnext => ?_⟩
  · have := length_le_asked hpositive
    rw [hbytes, List.take_of_length_le (by omega)]
  · obtain ⟨p, hp'⟩ := Option.isSome_iff_exists.mp hsome
    obtain ⟨-, hstep⟩ := exec_refines defaultLlseek hcap hp' (.read fd buf count) hnext
    have hread := MessageStore.read_of_nonneg (MessageStore.moveTo_pos_self w.store fd
      (0 + (w.store.slice 0 (asked chunks)).length : ℕ)) count
    rw [MessageStore.slice_moveTo, MessageStore.slice_after, Nat.zero_add (asked chunks)] at hread
    have hlen := w.store.slice_length (asked chunks) count
    have hreply := congrArg Prod.snd hstep
    rw [hstore] at hreply
    simp only [storeExec, hread] at hreply
    rw [← hlen]
    exact hreply

end FromStart

/-! ## The three devices -/

/-- The device is one stored message with a position per descriptor; no copy leaves the buffer; and
reads from the start deliver the message once. -/
theorem stores_one_message (d : StoringDevice) (pageShift : ℕ) (hcap : d.cap pageShift < 2 ^ 63)
    (defaultLlseek : Llseek) (pos : ℕ → Int64) (calls : List Call)
    (hf : Faultless (d.ops pageShift) defaultLlseek (.start _ pos) calls) :
    let r := runCalls (d.ops pageShift) defaultLlseek (.start _ pos) calls
    (r.1.store, r.2) =
      storeRun (d.cap pageShift) defaultLlseek ⟨[], fun fd => (pos fd).toInt⟩ calls ∧
    (∀ c start n, touched r.1 c = some (start, n) →
      ∃ p, r.1.priv = some p ∧ start + n ≤ p.buf.length) ∧
    ∀ fd, r.1.pos fd = 0 → ∀ chunks,
      Faultless (d.ops pageShift) defaultLlseek r.1 (reads fd chunks) →
      ReadsOnce (d.ops pageShift) defaultLlseek r.1 fd chunks := by
  rw [d.ops_eq] at hf ⊢
  obtain ⟨hsome, hrun⟩ := runCalls_refines defaultLlseek hcap rfl hf
  exact ⟨hrun, fun c start n h => touched_within h,
    fun fd hfd chunks hchunks => readsOnce hcap defaultLlseek hsome hfd hchunks⟩

/-! ## The user-space test -/

/-- `default_llseek` for `SEEK_SET`. -/
def seekSet : Llseek := fun _ offset whence =>
  if whence = 0 ∧ 0 ≤ offset then .ok offset else .error .EINVAL

/-- The message is written, and read back from the start. -/
def echoTest : List Call :=
  [.write 0 [104, 101, 108, 108, 111] 5, .llseek 0 0 0, .read 0 [0, 0, 0, 0, 0, 0, 0, 0] 8]

theorem stores_one_message_echo :
    (runCalls (StoringDevice.echo.ops 12) seekSet (.start _ fun _ => 0) echoTest).2 =
      [.moved (.ok 5) [104, 101, 108, 108, 111], .sought (.ok 0),
        .moved (.ok 5) [104, 101, 108, 108, 111, 0, 0, 0]] := by
  have hrun := (stores_one_message .echo 12 (by decide) seekSet (fun _ => 0) echoTest (by decide)).1
  exact (congrArg Prod.snd hrun).trans rfl

end LinuxDriverFramework.NvChar.StoredMessage
