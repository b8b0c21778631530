import LinuxDriverFramework.Foundations.Runs
import LinuxDriverFramework.NvChar.Ioctl
import LinuxDriverFramework.NvChar.WriteFaults

/-! # Polling the demo device

`demo_poll` looks at the message only, `demo_read` also at the position of the descriptor.

* `World`, `Call`, `exec`: the private structure and the positions of any number of descriptors;
  complete calls of the wrappers.
* `PollAgrees`: on every descriptor polling reports `EPOLLIN` just when a read gets something.
* `Inside`: no descriptor stands at or behind the end of a message.
* `pollAgrees_iff_stays`: a run keeps the agreement just when none of its calls puts a descriptor
  there. -/

namespace LinuxDriverFramework.NvChar.DemoPoll
open Foundations Io WriteFaults
open StoredMessage (Llseek message message_length toInt_ofInt_of_lt)
set_option autoImplicit false

/-! ## Calls -/

/-- `dev->priv` and the position of every descriptor. -/
structure World where
  priv : Option DemoPriv
  pos : ℕ → Int64

/-- The device as its module registers it, with descriptors at the beginning. -/
def World.start : World := ⟨some ⟨.zero demoBufSize, false⟩, fun _ => 0⟩

def World.moveTo (w : World) (fd : ℕ) (x : Int64) : World :=
  { w with pos := Function.update w.pos fd x }

def demoOps : DevOps (Option DemoPriv) := ⟨some demoRead, some demoWrite, none, none⟩

/-- A call on a descriptor; an ioctl does not look at the position. -/
inductive Call
  | read (fd : ℕ) (buf : Mem) (count : ℕ)
  | write (fd : ℕ) (buf : Mem) (count : ℕ)
  | llseek (fd : ℕ) (offset : Int64) (whence : ℤ)
  | ioctl (holds : ℤ → Bool) (cmd : UInt32) (arg : Mem)

section Exec

variable (defaultLlseek : Llseek)

def World.transfer (w : World) (fd : ℕ) (r : IoResult (Option DemoPriv)) : World :=
  World.moveTo { w with priv := r.state } fd (.ofInt r.pos)

def exec (w : World) : Call → World
  | .read fd buf count =>
    w.transfer fd (Io.read false (some demoOps) w.priv buf count (w.pos fd).toInt)
  | .write fd buf count =>
    w.transfer fd (Io.write false (some demoOps) w.priv buf count (w.pos fd).toInt)
  | .llseek fd offset whence =>
    w.moveTo fd (StoredMessage.llseek defaultLlseek false (w.pos fd) offset whence).2
  | .ioctl holds cmd arg =>
    { w with priv := (Io.unlockedIoctl false (some (demoIoctl holds)) cmd w.priv arg).state }

def step (w : World) (c : Call) : Option World := some (exec defaultLlseek w c)

end Exec

/-! ## The two answers -/

def World.reportsIn (w : World) : Bool := Io.poll false (some demoPoll) w.priv &&& epollIn != 0

/-- A read of this size into memory without a bad page. -/
def World.readOk (w : World) (fd : ℕ) (buf : List UInt8) (count : ℕ) : Except Errno ℕ :=
  (Io.read false (some demoOps) w.priv (.user buf) count (w.pos fd).toInt).ret

def PollAgrees (w : World) : Prop :=
  ∀ fd buf count, 0 < count → count ≤ buf.length →
    (w.reportsIn = true ↔ ∃ n, 0 < n ∧ w.readOk fd buf count = .ok n)

/-- The message as a reader finds it. -/
def shownMessage (p : DemoPriv) : List UInt8 := if p.dataReady then message p.toMsgPriv else []

def shownLen (p : DemoPriv) : ℕ := if p.dataReady then p.len else 0

@[simp] theorem length_shownMessage (p : DemoPriv) : (shownMessage p).length = shownLen p := by
  unfold shownMessage shownLen
  split
  · exact message_length p.toMsgPriv
  · rfl

theorem shownLen_le (p : DemoPriv) : shownLen p ≤ demoBufSize := by
  unfold shownLen
  split
  · exact p.bound
  · exact Nat.zero_le _

/-- No descriptor stands at or behind the end of the message. -/
def Inside (p : DemoPriv) (pos : ℕ → Int64) : Prop :=
  ∀ fd, 0 < shownLen p → asSize (pos fd).toInt < shownLen p

section Answers

variable (p : DemoPriv) (pos : ℕ → Int64)

theorem reportsIn_iff : (⟨some p, pos⟩ : World).reportsIn = true ↔ 0 < shownLen p := by
  have hmask : (⟨some p, pos⟩ : World).reportsIn = (p.dataReady && p.len != 0) :=
    demoPoll_epollIn p
  rw [hmask, shownLen]
  cases p.dataReady with
  | false => simp
  | true => simp [Nat.pos_iff_ne_zero]

theorem readOk_iff (fd : ℕ) (buf : List UInt8) {count : ℕ} (hcount : 0 < count)
    (hbuf : count ≤ buf.length) :
    (∃ n, 0 < n ∧ (⟨some p, pos⟩ : World).readOk fd buf count = .ok n) ↔
      asSize (pos fd).toInt < shownLen p := by
  have hreply := demoRead_reply p (.user buf) count (pos fd).toInt
  have hret : (⟨some p, pos⟩ : World).readOk fd buf count =
      (readMessage false (shownMessage p) (.user buf) count (pos fd).toInt).1 :=
    congrArg Prod.fst hreply
  rw [hret, ← length_shownMessage]
  unfold readMessage
  rw [Bool.false_and, if_neg Bool.false_ne_true]
  by_cases hend : (shownMessage p).length ≤ asSize (pos fd).toInt
  · rw [if_pos hend]
    refine iff_of_false ?_ (not_lt.mpr hend)
    rintro ⟨n, hn, hok⟩
    cases hok
    exact Nat.lt_irrefl 0 hn
  · have hlt := not_le.mp hend
    have hlen : (((shownMessage p).drop (asSize (pos fd).toInt)).take count).length =
        min count ((shownMessage p).length - asSize (pos fd).toInt) := by
      rw [List.length_take, List.length_drop]
    have hfits : (((shownMessage p).drop (asSize (pos fd).toInt)).take count).length ≤
        buf.length := by omega
    have hcopy := copyToUser_user buf hfits
    simp only [if_neg hend, hcopy, ne_eq, not_true_eq_false, if_false]
    exact iff_of_true ⟨_, by omega, rfl⟩ hlt

theorem pollAgrees_iff : PollAgrees ⟨some p, pos⟩ ↔ Inside p pos := by
  constructor
  · intro h fd hlen
    have hread := (h fd [0] 1 Nat.one_pos (Nat.le_refl 1)).mp ((reportsIn_iff p pos).mpr hlen)
    exact (readOk_iff p pos fd [0] Nat.one_pos (Nat.le_refl 1)).mp hread
  · intro h fd buf count hcount hbuf
    rw [reportsIn_iff, readOk_iff p pos fd buf hcount hbuf]
    exact ⟨h fd, fun hlt => Nat.zero_lt_of_lt hlt⟩

end Answers

/-! ## What a call does to the positions -/

section Positions

variable {p : DemoPriv} {pos : ℕ → Int64}

theorem inside_update (hi : Inside p pos) (fd : ℕ) (x : Int64) :
    Inside p (Function.update pos fd x) ↔ (0 < shownLen p → asSize x.toInt < shownLen p) := by
  constructor
  · intro h hlen
    have hfd := h fd hlen
    rw [Function.update_self] at hfd
    exact hfd
  · intro h other hlen
    by_cases ho : other = fd
    · rw [ho, Function.update_self]
      exact h hlen
    · rw [Function.update_of_ne ho]
      exact hi other hlen

theorem toInt_of_asSize_lt {x : Int64} (h : asSize x.toInt < 2 ^ 63) :
    x.toInt = asSize x.toInt := by
  have hlow := x.le_toInt
  have hhigh := x.toInt_lt
  unfold asSize at h ⊢
  omega

theorem readMessage_pos (msg : List UInt8) (buf : Mem) (count : ℕ) (pos : ℤ) :
    (readMessage false msg buf count pos).2.2 =
      if asSize pos < msg.length ∧ buf.faults (min count (msg.length - asSize pos)) = false then
        pos + (min count (msg.length - asSize pos) : ℕ)
      else pos := by
  have hlen : ((msg.drop (asSize pos)).take count).length =
      min count (msg.length - asSize pos) := by
    rw [List.length_take, List.length_drop]
  have hfaults := copyToUser_faults buf ((msg.drop (asSize pos)).take count)
  rw [hlen] at hfaults
  unfold readMessage
  rw [Bool.false_and, if_neg Bool.false_ne_true]
  by_cases hend : msg.length ≤ asSize pos
  · rw [if_pos hend, if_neg fun h => absurd h.1 (not_lt.mpr hend)]
  · rw [if_neg hend]
    by_cases hf : buf.faults (min count (msg.length - asSize pos)) = true
    · simp only [if_pos (hfaults.mpr hf), hf, Bool.true_eq_false, and_false, if_false]
    · have hok : buf.faults (min count (msg.length - asSize pos)) = false :=
        Bool.eq_false_iff.mpr hf
      simp only [if_neg (mt hfaults.mp hf), hok, not_le.mp hend, and_self, if_true, hlen]

end Positions

/-- The call puts no descriptor at or behind the end of a message. -/
def Call.Stays (defaultLlseek : Llseek) (p : DemoPriv) (pos : ℕ → Int64) : Call → Prop
  | .read fd buf count =>
    let start := asSize (pos fd).toInt
    0 < shownLen p → buf.faults (min count (shownLen p - start)) = false →
      start + count < shownLen p
  | .write fd buf count =>
    let n := min count demoBufSize
    0 < n → buf.faults n = false → ∀ other, other ≠ fd → asSize (pos other).toInt < n
  | .llseek fd offset whence =>
    0 < shownLen p → ∀ x, defaultLlseek (pos fd) offset whence = .ok x →
      asSize x.toInt < shownLen p
  | .ioctl .. => True

/-- The call ends with every descriptor inside just when it stays. -/
def KeepsInside (defaultLlseek : Llseek) (p : DemoPriv) (pos : ℕ → Int64) (c : Call) : Prop :=
  ∃ q pos', exec defaultLlseek ⟨some p, pos⟩ c = ⟨some q, pos'⟩ ∧
    (Inside q pos' ↔ c.Stays defaultLlseek p pos)

theorem demoRead_state (p : DemoPriv) (buf : Mem) (count : ℕ) (pos : ℤ) :
    (demoRead (some p) buf count pos).state = some p := by
  unfold demoRead
  simp only
  split
  · rfl
  · split
    · rfl
    · split <;> rfl

/-- A write that fails leaves length and flag, one that succeeds replaces them. -/
theorem demoWrite_cases (p : DemoPriv) (buf : Mem) (count : ℕ) (pos : ℤ) :
    ∃ q, (demoWrite (some p) buf count pos).state = some q ∧
      (buf.faults (min count demoBufSize) = true ∧ shownLen q = shownLen p ∧
          (demoWrite (some p) buf count pos).pos = pos ∨
        buf.faults (min count demoBufSize) = false ∧ shownLen q = min count demoBufSize ∧
          (demoWrite (some p) buf count pos).pos = 0) := by
  have hfaults := copyFromUser_faults buf (min count demoBufSize)
  unfold demoWrite
  simp only
  by_cases hf : buf.faults (min count demoBufSize) = true
  · rw [if_pos (hfaults.mpr hf)]
    exact ⟨_, rfl, .inl ⟨hf, rfl, rfl⟩⟩
  · rw [if_neg (mt hfaults.mp hf)]
    exact ⟨_, rfl, .inr ⟨Bool.eq_false_iff.mpr hf, rfl, rfl⟩⟩

section Step

variable (defaultLlseek : Llseek) {p : DemoPriv} {pos : ℕ → Int64} (hi : Inside p pos)
include hi

theorem read_keeps (fd : ℕ) (buf : Mem) (count : ℕ) :
    KeepsInside defaultLlseek p pos (.read fd buf count) := by
  have hexec : exec defaultLlseek ⟨some p, pos⟩ (.read fd buf count) = ⟨some p,
      Function.update pos fd (.ofInt (demoRead (some p) buf count (pos fd).toInt).pos)⟩ := by
    show World.moveTo ⟨(demoRead (some p) buf count (pos fd).toInt).state, pos⟩ fd _ = _
    rw [demoRead_state]
    rfl
  refine ⟨p, _, hexec, ?_⟩
  have hreply : (demoRead (some p) buf count (pos fd).toInt).pos =
      (readMessage false (shownMessage p) buf count (pos fd).toInt).2.2 :=
    congrArg (fun r => r.2.2) (demoRead_reply p buf count (pos fd).toInt)
  have hpos := readMessage_pos (shownMessage p) buf count (pos fd).toInt
  rw [length_shownMessage] at hpos
  rw [inside_update hi, hreply, hpos]
  simp only [Call.Stays]
  by_cases hlen : 0 < shownLen p
  · have hin := hi fd hlen
    have hbound := shownLen_le p
    have hsize : demoBufSize = 256 := rfl
    by_cases hf : buf.faults (min count (shownLen p - asSize (pos fd).toInt)) = false
    · -- the copy goes through, and the position moves on
      have hnat : (pos fd).toInt = asSize (pos fd).toInt := toInt_of_asSize_lt (by omega)
      rw [if_pos ⟨hin, hf⟩]
      generalize asSize (pos fd).toInt = start at hin hf hnat ⊢
      have hsum : (pos fd).toInt + (min count (shownLen p - start) : ℕ) =
          (start + min count (shownLen p - start) : ℕ) := by
        rw [hnat]
        push_cast
        rfl
      rw [hsum, toInt_ofInt_of_lt (by omega) (by omega), asSize]
      simp only [hlen, hf, forall_const]
      omega
    · rw [if_neg fun h => hf h.2, Int64.ofInt_toInt]
      exact iff_of_true (fun _ => hin) fun _ h => absurd h hf
  · exact iff_of_true (fun h => absurd h hlen) fun h => absurd h hlen

theorem write_keeps (fd : ℕ) (buf : Mem) (count : ℕ) :
    KeepsInside defaultLlseek p pos (.write fd buf count) := by
  obtain ⟨q, hstate, hcases⟩ := demoWrite_cases p buf count (pos fd).toInt
  have hexec : exec defaultLlseek ⟨some p, pos⟩ (.write fd buf count) = ⟨some q,
      Function.update pos fd (.ofInt (demoWrite (some p) buf count (pos fd).toInt).pos)⟩ := by
    show World.moveTo ⟨(demoWrite (some p) buf count (pos fd).toInt).state, pos⟩ fd _ = _
    rw [hstate]
    rfl
  refine ⟨q, _, hexec, ?_⟩
  simp only [Call.Stays]
  obtain ⟨hf, hlen, hpos⟩ | ⟨hf, hlen, hpos⟩ := hcases
  · rw [hpos, Int64.ofInt_toInt, Function.update_eq_self]
    refine iff_of_true (fun other h => ?_) fun _ h => ?_
    · rw [hlen] at h ⊢
      exact hi other h
    · rw [hf] at h
      cases h
  · have hzero : asSize (Int64.ofInt 0).toInt = 0 := by decide
    rw [hpos]
    simp only [Inside, hlen, hf, forall_const]
    constructor
    · intro h hn other ho
      have hother := h other hn
      rw [Function.update_of_ne ho] at hother
      exact hother
    · intro h other hn
      by_cases ho : other = fd
      · rw [ho, Function.update_self, hzero]
        exact hn
      · rw [Function.update_of_ne ho]
        exact h hn other ho

theorem llseek_keeps (fd : ℕ) (offset : Int64) (whence : ℤ) :
    KeepsInside defaultLlseek p pos (.llseek fd offset whence) := by
  refine ⟨p, _, rfl, ?_⟩
  show Inside p (Function.update pos fd _) ↔ _
  rw [inside_update hi]
  simp only [Call.Stays, StoredMessage.llseek, Bool.false_eq_true, if_false]
  cases defaultLlseek (pos fd) offset whence with
  | error e => exact iff_of_true (hi fd) fun _ x h => by cases h
  | ok x =>
    refine ⟨fun h hlen y hy => ?_, fun h hlen => h hlen x rfl⟩
    cases hy
    exact h hlen

theorem ioctl_keeps (holds : ℤ → Bool) (cmd : UInt32) (arg : Mem) :
    KeepsInside defaultLlseek p pos (.ioctl holds cmd arg) := by
  have hexec : exec defaultLlseek ⟨some p, pos⟩ (.ioctl holds cmd arg) =
      ⟨(demoIoctl holds cmd (some p) arg).state, pos⟩ := rfl
  obtain hstate | hstate := demoIoctl_state holds cmd p arg
  · rw [hstate] at hexec
    exact ⟨p, pos, hexec, iff_of_true hi trivial⟩
  · rw [hstate] at hexec
    refine ⟨_, pos, hexec, iff_of_true (fun fd hlen => ?_) trivial⟩
    exact absurd hlen (Nat.lt_irrefl 0)

theorem exec_keeps (c : Call) : KeepsInside defaultLlseek p pos c := by
  cases c with
  | read fd buf count => exact read_keeps defaultLlseek hi fd buf count
  | write fd buf count => exact write_keeps defaultLlseek hi fd buf count
  | llseek fd offset whence => exact llseek_keeps defaultLlseek hi fd offset whence
  | ioctl holds cmd arg => exact ioctl_keeps defaultLlseek hi holds cmd arg

end Step

/-! ## Runs -/

/-- The guard as a condition on states. -/
def StaysInside (defaultLlseek : Llseek) (w : World) (c : Call) : Prop :=
  ∀ p, w.priv = some p → c.Stays defaultLlseek p w.pos

def AllInside (w : World) : Prop := ∃ p, w.priv = some p ∧ Inside p w.pos

/-- Polling and reading agree in all states of a run just when none of its calls puts a descriptor
at or behind the end of a message. -/
theorem pollAgrees_iff_stays (defaultLlseek : Llseek) (calls : List Call) :
    Throughout (step defaultLlseek) PollAgrees .start calls ↔
      Along (step defaultLlseek) (StaysInside defaultLlseek) .start calls := by
  refine throughout_iff_along (I := AllInside) (D := fun _ _ => True) ?_ ?_ ?_ calls _ ?_
    (along_true calls _)
  · rintro ⟨priv, pos⟩ ⟨p, hp, hi⟩
    obtain rfl : priv = some p := hp
    exact (pollAgrees_iff p pos).mpr hi
  · rintro ⟨priv, pos⟩ c w' ⟨p, hp, hi⟩ - hstays hw
    obtain rfl : priv = some p := hp
    obtain rfl := Option.some.inj hw
    obtain ⟨q, pos', hexec, hiff⟩ := exec_keeps defaultLlseek hi c
    rw [hexec]
    exact ⟨q, rfl, hiff.mpr (hstays p rfl)⟩
  · rintro ⟨priv, pos⟩ c ⟨p, hp, hi⟩ - hno
    obtain rfl : priv = some p := hp
    obtain ⟨q, pos', hexec, hiff⟩ := exec_keeps defaultLlseek hi c
    refine ⟨_, rfl, ?_⟩
    rw [hexec, pollAgrees_iff, hiff]
    intro hstays
    refine hno fun p' hp' => ?_
    obtain rfl := Option.some.inj hp'
    exact hstays
  · exact ⟨_, rfl, fun _ h => absurd h (Nat.lt_irrefl 0)⟩

/-- "hi" is written and read to its end on one descriptor. -/
def readToTheEnd : List Call := [.write 0 (.user [104, 105]) 2, .read 0 (.user [0, 0]) 2]

/-- What is there afterwards, whatever the seeks do. -/
def afterTheEnd (defaultLlseek : Llseek) : World :=
  exec defaultLlseek (exec defaultLlseek .start (.write 0 (.user [104, 105]) 2))
    (.read 0 (.user [0, 0]) 2)

/-- Polling still reports `EPOLLIN`, and a read gets nothing. -/
theorem poll_after_last_byte :
    ¬ ∀ (defaultLlseek : Llseek) (calls : List Call),
      Throughout (step defaultLlseek) PollAgrees .start calls := by
  intro h
  have hagree : PollAgrees (afterTheEnd fun _ _ _ => .error .EINVAL) :=
    ((h (fun _ _ _ => .error .EINVAL) readToTheEnd).2 _ rfl).2 _ rfl
  have hreports : (afterTheEnd fun _ _ _ => .error .EINVAL).reportsIn = true := by decide
  have hread : (afterTheEnd fun _ _ _ => .error .EINVAL).readOk 0 [0] 1 = .ok 0 := by rfl
  obtain ⟨n, hn, hok⟩ := (hagree 0 [0] 1 Nat.one_pos (Nat.le_refl 1)).mp hreports
  rw [hread] at hok
  cases hok
  exact Nat.lt_irrefl 0 hn

end LinuxDriverFramework.NvChar.DemoPoll
