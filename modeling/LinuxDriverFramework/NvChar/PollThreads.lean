import LinuxDriverFramework.Foundations.WaitQueues
import LinuxDriverFramework.NvChar.Interleaving
import LinuxDriverFramework.NvChar.Ioctl

/-! # Threads that poll, read, write and clear the demo device

A `poll(2)` calls the wrapper, sleeps if no event it asked for has come, and calls the wrapper again
when its entry in `dev->wq` has been triggered. The other system calls are one call of a wrapper.
The device may be unregistered at any time.

* `Request`, `Task`: a system call, and where its thread stands inside the callback or between two
  calls of the wrapper.
* `World`, `step`: the threads and the device of `Interleaving`, with `priv->lock`, the message and
  the wait queue. -/

namespace LinuxDriverFramework.NvChar.PollWakeups
open Foundations
open Interleaving hiding step init State
open Io hiding read write poll unlockedIoctl
set_option autoImplicit false

/-! ## Threads -/

inductive Request
  | poll (fd : ℕ) (events : UInt32) (last : Bool)
  | read (fd : ℕ)
  | write (fd : ℕ) (buf : Mem) (count : ℕ) (pos : ℤ)
  | ioctl (fd : ℕ) (holds : ℤ → Bool) (cmd : UInt32) (arg : Mem)

def Request.fd : Request → ℕ
  | .poll fd _ _ | .read fd | .write fd _ _ _ | .ioctl fd _ _ _ => fd

/-- The file operations that reach the callback of the request. -/
def Request.fits : Request → FileOp → Bool
  | .poll .., .poll => true
  | .read .., .read | .read .., .readIter .. => true
  | .write .., .write | .write .., .writeIter .. => true
  | .ioctl .., .unlockedIoctl | .ioctl .., .compatIoctl .. => true
  | _, _ => false

inductive Task
  | other
  | entering (r : Request)               -- in the wrapper
  | lock (r : Request)                   -- mutex_lock(&priv->lock)
  | body (r : Request)
  | wake (r : Request)                   -- nv_char_wake
  | unlock (r : Request) (mask : UInt32)
  | leave (r : Request) (mask : UInt32)
  | schedule (fd : ℕ) (events : UInt32)  -- poll_schedule_timeout
  | asleep (fd : ℕ) (events : UInt32)

def pollInMask : UInt32 := epollIn ||| epollRdNorm

/-- `poll(2)` adds the error events to those it was asked for. -/
def answered (events mask : UInt32) : Bool := mask &&& (events ||| (epollErr ||| epollHup)) != 0

def Request.locks : Request → Bool
  | .ioctl _ _ cmd _ => cmd == nvDemoIocGetLen || cmd == nvDemoIocClear
  | _ => true

/-- Without `priv` the callbacks return at once, `demo_poll` with `EPOLLERR`. -/
def Request.start (r : Request) (priv : Option DemoPriv) : Task :=
  if priv.isNone then .leave r epollErr else if r.locks then .lock r else .leave r 0

def Request.newPriv (r : Request) (priv : Option DemoPriv) : Option DemoPriv :=
  match r with
  | .write _ buf count pos => (demoWrite priv buf count pos).state
  | .ioctl _ holds cmd arg => (demoIoctl holds cmd priv arg).state
  | _ => priv

def Request.afterBody (r : Request) (priv : Option DemoPriv) : Task :=
  match r with
  | .poll .. => .unlock r (demoPoll priv)
  | .write _ buf count pos =>
    match (demoWrite priv buf count pos).ret with
    | .ok _ => .wake r
    | .error _ => .unlock r 0
  | _ => .unlock r 0

/-- `demo_write` wakes inside the lock, `demo_ioctl_clear` behind it. -/
def Request.afterWake (r : Request) : Task :=
  match r with
  | .write .. => .unlock r 0
  | _ => .leave r 0

def Request.afterUnlock (r : Request) (mask : UInt32) : Task :=
  match r with
  | .ioctl _ _ cmd _ => if cmd = nvDemoIocClear then .wake r else .leave r mask
  | _ => .leave r mask

/-- The requests that may get to a wake-up. -/
def Request.wakes : Request → Bool
  | .write .. => true
  | .ioctl _ _ cmd _ => cmd == nvDemoIocClear
  | _ => false

/-- Between two calls of the wrapper `poll(2)` keeps its reference to the file. -/
def Task.parkedOn : Task → Option ℕ
  | .schedule fd _ | .asleep fd _ => some fd
  | _ => none

def Task.isOther : Task → Bool
  | .other => true
  | _ => false

/-! ## The system -/

variable {ι : Type} [DecidableEq ι]

structure World (ι : Type) where
  dev : Interleaving.State ι
  task : ι → Task
  lock : Option ι
  priv : Option DemoPriv
  wq : WaitQueue ι

/-- The device as `demo_init` leaves it. -/
def init (ι : Type) : World ι where
  dev := Interleaving.init ι
  task := fun _ => .other
  lock := none
  priv := some ⟨.zero demoBufSize, false⟩
  wq := .empty

def World.goto (w : World ι) (t : ι) (k : Task) : World ι :=
  { w with task := Function.update w.task t k }

def World.readable (w : World ι) : Prop := ∃ p, w.priv = some p ∧ p.dataReady ∧ p.len ≠ 0

inductive Label (ι : Type)
  | dev (a : Act ι)
  | call (t : ι) (op : FileOp) (r : Request)
  | task (t : ι)
  | interrupt (t : ι)   -- a signal, or the timeout of the poll

/-- `demo_ops`. -/
def demoOps (configCompat : Bool) : Option Ops := some fun
  | .read | .write | .poll | .unlockedIoctl => true
  | .compatIoctl => configCompat
  | _ => false

/-- Operations without a callback in `demo_ops`, opens, and releases of a file that no `poll(2)`
refers to. -/
def World.plain (w : World ι) : Move → Prop
  | .callOp _ op => op = .llseek ∨ op = .mmap ∨ op = .fsync
  | .callRelease fd => ∀ u, (w.task u).parkedOn ≠ some fd
  | _ => True

variable [Fintype ι]

instance (w : World ι) (m : Move) : Decidable (w.plain m) := by
  unfold World.plain
  split <;> infer_instance

/-- The wrapper has moved: it is at its gate, it has called the callback, or it has returned. -/
def World.entered (w : World ι) (t : ι) (r : Request) (d : Interleaving.State ι) : World ι :=
  let w := { w with dev := d }
  match d.pc t, r with
  | .running _ _, .poll _ _ false => { w with wq := w.wq.add t }.goto t (r.start w.priv)
  | .running _ _, _ => w.goto t (r.start w.priv)
  -- the gate was shut: for a poll EPOLLERR | EPOLLHUP, which ends it
  | .idle, .poll .. => { w with wq := w.wq.remove t }.goto t .other
  | .idle, _ => w.goto t .other
  | _, _ => w

def World.left (w : World ι) (t : ι) (r : Request) (mask : UInt32) (d : Interleaving.State ι) :
    World ι :=
  let w := { w with dev := d }
  match r with
  | .poll fd events last =>
    if answered events mask || last then { w with wq := w.wq.remove t }.goto t .other
    else w.goto t (.schedule fd events)
  | _ => w.goto t .other

section Step

variable (configCompat : Bool)

/-- The next call of the wrapper by a `poll(2)`. -/
def World.again (w : World ι) (t : ι) (fd : ℕ) (events : UInt32) (last : Bool) :
    Option (World ι) :=
  (threadStep (demoOps configCompat) w.dev t (.callOp fd .poll)).map fun d =>
    { w with dev := d, wq := w.wq.consume t }.goto t (.entering (.poll fd events last))

def taskStep (w : World ι) (t : ι) : Option (World ι) :=
  match w.task t with
  | .other => none
  | .entering r => (threadStep (demoOps configCompat) w.dev t .advance).map (w.entered t r)
  | .lock r => if w.lock = none then some ({ w with lock := some t }.goto t (.body r)) else none
  | .body r => some ({ w with priv := r.newPriv w.priv }.goto t (r.afterBody w.priv))
  | .wake r => some ({ w with wq := w.wq.wakeAll }.goto t r.afterWake)
  | .unlock r mask => some ({ w with lock := none }.goto t (r.afterUnlock mask))
  | .leave r mask => (threadStep (demoOps configCompat) w.dev t .advance).map (w.left t r mask)
  | .schedule fd events =>
    if w.wq.triggered t then w.again configCompat t fd events false
    else some (w.goto t (.asleep fd events))
  | .asleep fd events =>
    if w.wq.triggered t then w.again configCompat t fd events false else none

def step (w : World ι) : Label ι → Option (World ι)
  | .dev (.unreg m) => (unregStep w.dev m).map fun d => { w with dev := d }
  | .dev (.thread t m) =>
    if (w.task t).isOther ∧ w.plain m then
      (threadStep (demoOps configCompat) w.dev t m).map fun d => { w with dev := d }
    else none
  | .call t op r =>
    if (w.task t).isOther ∧ r.fits op then
      (threadStep (demoOps configCompat) w.dev t (.callOp r.fd op)).map fun d =>
        { w with dev := d, wq := w.wq.consume t }.goto t (.entering r)
    else none
  | .task t => taskStep configCompat w t
  | .interrupt t =>
    match w.task t with
    | .asleep fd events => w.again configCompat t fd events true
    | _ => none

end Step

end LinuxDriverFramework.NvChar.PollWakeups
