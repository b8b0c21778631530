import LinuxDriverFramework.Foundations.Runs
import LinuxDriverFramework.Foundations.Tally
import LinuxDriverFramework.NvChar.FileOps
import Mathlib.Data.Finset.Card
import Mathlib.Data.Fintype.Pi

/-! # Opens, file operations, closes and one unregistration, interleaved

Any finite set `ι` of threads works on one registered `nv_char_dev` while one more thread runs
`nv_char_device_unregister`. Every shared access of the source is one step.

* `Pc`: where a thread stands in `nv_char_open`, in a file operation or in `nv_char_release`.
* `UnregPc`: where the unregistering thread stands; `Exit` records how its wait ended.
* `threadStep`, `unregStep`, `step`: the transition function. The label carries the outcome of
  `try_module_get`, of `ops->open`, and the order of the threads.
* `devAccess`: the fields of the device that a thread inside `nv_char_release` or
  `nv_char_release_open` touches with its next step.

The rules of the VFS are enabling conditions: an operation needs a live descriptor, a descriptor
is released once and only when no operation on it is under way, and a fresh `struct file` is not
live yet. -/

namespace LinuxDriverFramework.NvChar.Interleaving
open Foundations
set_option autoImplicit false

/-- Which caller `nv_char_release_open` returns to. -/
inductive Caller
  | openFailed | release
  deriving DecidableEq, Repr

inductive Pc
  | idle
  -- nv_char_acquire_open
  | firstCheck | tryModuleGet | secondCheck | modulePutBack | incOpens
  -- the rest of nv_char_open
  | opsOpen | traceOpen | openReturn
  -- a file operation on descriptor `f`
  | gate (f : ℕ) (op : FileOp) | chosen (f : ℕ) (o : Outcome) | running (f : ℕ) (cb : Callback)
  -- nv_char_release, and nv_char_release_open inside it
  | opsRelease
  | readOwner (c : Caller) | decOpens (c : Caller) | wakeUp (c : Caller) | modulePut (c : Caller)
  | traceDevt | traceOpens
  deriving DecidableEq, Repr

/-- The wait of `nv_char_device_unregister` ends because `opens` is 0 or because time is up. -/
inductive Exit
  | opensZero | timeout
  deriving DecidableEq, Repr

inductive UnregPc
  | notCalled
  | setRemoving
  | detach               -- clear the slot, remove the debugfs directory, destroy the device
  | waitOpens
  | cdevDel (e : Exit) | clearRegistered (e : Exit)
  | returned (e : Exit)
  deriving DecidableEq, Repr

variable {ι : Type} [DecidableEq ι]

structure State (ι : Type) where
  removing : Bool
  opens : ℤ
  registered : Bool
  cdevAdded : Bool
  /-- references to the owner taken by `try_module_get` and not yet put -/
  moduleRefs : ℤ
  /-- descriptors whose `nv_char_open` returned 0 and whose release has not begun -/
  live : Finset ℕ
  pc : ι → Pc
  unreg : UnregPc

/-- The device right after its registration, with no thread inside the driver. -/
def init (ι : Type) : State ι where
  removing := false
  opens := 0
  registered := true
  cdevAdded := true
  moduleRefs := 0
  live := ∅
  pc := fun _ => .idle
  unreg := .notCalled

def State.goto (s : State ι) (t : ι) (p : Pc) : State ι :=
  { s with pc := Function.update s.pc t p }

@[simp] theorem goto_pc_self (s : State ι) (t : ι) (p : Pc) : (s.goto t p).pc t = p := by
  simp [State.goto]

theorem goto_pc_other (s : State ι) {t u : ι} (p : Pc) (h : u ≠ t) :
    (s.goto t p).pc u = s.pc u := by
  simp [State.goto, Function.update_of_ne h]

/-- What a thread does next; the arguments are the environment's choices. -/
inductive Move
  | callOpen
  | callOp (f : ℕ) (op : FileOp)
  | callRelease (f : ℕ)
  | advance
  | moduleGet (ok : Bool)
  | opsOpen (ok : Bool)
  | openReturn (f : ℕ)
  deriving DecidableEq, Repr

inductive UnregMove
  | call | advance | timeout
  deriving DecidableEq, Repr

inductive Act (ι : Type)
  | thread (t : ι) (m : Move)
  | unreg (m : UnregMove)
  deriving DecidableEq, Repr

def Pc.onFile : Pc → Option ℕ
  | .gate f _ | .chosen f _ | .running f _ => some f
  | _ => none

variable [Fintype ι]

def threadStep (ops : Option Ops) (s : State ι) (t : ι) (m : Move) : Option (State ι) :=
  match s.pc t, m with
  | .idle, .callOpen => some (s.goto t .firstCheck)
  | .firstCheck, .advance => some (s.goto t (if s.removing then .idle else .tryModuleGet))
  | .tryModuleGet, .moduleGet true =>
      some ({ s with moduleRefs := s.moduleRefs + 1 }.goto t .secondCheck)
  | .tryModuleGet, .moduleGet false => some (s.goto t .idle)
  | .secondCheck, .advance =>
      some (s.goto t (if s.removing then .modulePutBack else .incOpens))
  | .modulePutBack, .advance => some ({ s with moduleRefs := s.moduleRefs - 1 }.goto t .idle)
  | .incOpens, .advance => some ({ s with opens := s.opens + 1 }.goto t .opsOpen)
  | .opsOpen, .opsOpen true => some (s.goto t .traceOpen)
  | .opsOpen, .opsOpen false =>
      if provides ops .opsOpen then some (s.goto t (.readOwner .openFailed)) else none
  | .traceOpen, .advance => some (s.goto t .openReturn)
  | .openReturn, .openReturn f =>
      if f ∈ s.live then none else some ({ s with live := insert f s.live }.goto t .idle)
  | .idle, .callOp f op => if f ∈ s.live then some (s.goto t (.gate f op)) else none
  | .gate f op, .advance => some (s.goto t (.chosen f (op.outcome s.removing ops)))
  | .chosen f (.call cb), .advance => some (s.goto t (.running f cb))
  | .chosen _ _, .advance => some (s.goto t .idle)
  | .running _ _, .advance => some (s.goto t .idle)
  | .idle, .callRelease f =>
      if f ∈ s.live ∧ ∀ u, (s.pc u).onFile ≠ some f then
        some ({ s with live := s.live.erase f }.goto t .opsRelease)
      else none
  | .opsRelease, .advance => some (s.goto t (.readOwner .release))
  | .readOwner c, .advance => some (s.goto t (.decOpens c))
  | .decOpens c, .advance =>
      -- atomic_dec_and_test: only the decrement that reaches 0 wakes the waiter
      some ({ s with opens := s.opens - 1 }.goto t
        (if s.opens - 1 = 0 then .wakeUp c else .modulePut c))
  | .wakeUp c, .advance => some (s.goto t (.modulePut c))
  | .modulePut .openFailed, .advance =>
      some ({ s with moduleRefs := s.moduleRefs - 1 }.goto t .idle)
  | .modulePut .release, .advance =>
      some ({ s with moduleRefs := s.moduleRefs - 1 }.goto t .traceDevt)
  | .traceDevt, .advance => some (s.goto t .traceOpens)
  | .traceOpens, .advance => some (s.goto t .idle)
  | _, _ => none

def unregStep (s : State ι) (m : UnregMove) : Option (State ι) :=
  match s.unreg, m with
  | .notCalled, .call => some (if s.registered then { s with unreg := .setRemoving } else s)
  | .setRemoving, .advance => some { s with removing := true, unreg := .detach }
  | .detach, .advance => some { s with unreg := .waitOpens }
  -- wait_event_timeout looks at the condition first, and once more when the time is up
  | .waitOpens, .advance => if s.opens = 0 then some { s with unreg := .cdevDel .opensZero } else none
  | .waitOpens, .timeout => if s.opens = 0 then none else some { s with unreg := .cdevDel .timeout }
  | .cdevDel e, .advance => some { s with cdevAdded := false, unreg := .clearRegistered e }
  | .clearRegistered e, .advance => some { s with registered := false, unreg := .returned e }
  | _, _ => none

def step (ops : Option Ops) (s : State ι) : Act ι → Option (State ι)
  | .thread t m => threadStep ops s t m
  | .unreg m => unregStep s m

/-! ## What the invariants look at -/

/-- The device fields that `nv_char_release` and `nv_char_release_open` use. -/
inductive DevField
  | ops | owner | opens | releaseWq | devt
  deriving DecidableEq, Repr

/-- The field a thread inside `nv_char_release` or `nv_char_release_open` accesses next. -/
def Pc.devAccess : Pc → Option DevField
  | .opsRelease => some .ops
  | .readOwner _ => some .owner
  | .decOpens _ => some .opens
  | .wakeUp _ => some .releaseWq
  | .traceDevt => some .devt
  | .traceOpens => some .opens
  | _ => none

/-- 1 from the increment of `opens` to its decrement, while the descriptor is not `live`. -/
def Pc.counted : Pc → ℕ
  | .opsOpen | .traceOpen | .openReturn | .opsRelease | .readOwner _ | .decOpens _ => 1
  | _ => 0

/-- The decrement of `opens` is done, an access to the device is not. -/
def Pc.pastDec : Pc → Bool
  | .wakeUp _ | .modulePut .release | .traceDevt | .traceOpens => true
  | _ => false

/-- A data-path callback is running or is the next thing to start. -/
def Pc.inCallback : Pc → Bool
  | .chosen _ (.call _) | .running _ _ => true
  | _ => false

/-- The wait of the unregistration ended through `opens == 0`. -/
def UnregPc.leftAtZero : UnregPc → Bool
  | .cdevDel .opensZero | .clearRegistered .opensZero | .returned .opensZero => true
  | _ => false

def UnregPc.pastSet : UnregPc → Bool
  | .notCalled | .setRemoving => false
  | _ => true

theorem Pc.devAccess_pastDec_or_counted {p : Pc} {x : DevField} (h : p.devAccess = some x) :
    p.pastDec = true ∨ p.counted = 1 := by
  cases p <;> simp_all [Pc.devAccess, Pc.pastDec, Pc.counted]

end LinuxDriverFramework.NvChar.Interleaving
