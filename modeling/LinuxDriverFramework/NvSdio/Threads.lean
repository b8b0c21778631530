import LinuxDriverFramework.Foundations.Runs
import LinuxDriverFramework.NvSdio.Demo
import Mathlib.Logic.Function.Basic

/-! # Threads of `nv_sdio_demo` on one host

Any number of threads run the entry points of `nv_sdio_demo` on any number of SDIO functions of
one host. A thread is interrupted after each of its calls.

* `Func`, `World`: one SDIO function; the functions, the threads and the host.
* `makeCall`, `step`: what a call does, and what can happen next.
* `Stepped`, `step_cases`: a step enters the driver, makes a call or leaves the driver. -/

namespace LinuxDriverFramework.NvSdio
open Foundations
set_option autoImplicit false

/-! ## Threads on one host -/

/-- Where an SDIO function is between the calls of `probe` and `remove` by the bus. -/
inductive BusState
  | unbound
  | probing
  | bound
  | removing
  deriving DecidableEq, Repr

/-- One SDIO function: its driver data, whether its sysfs group is there, and how many threads are
inside `reg_show` or `reg_store`. -/
structure Func where
  bus : BusState
  data : Data
  group : Bool
  users : ℕ
  deriving DecidableEq, Repr

def Func.initial : Func := ⟨.unbound, ⟨false, false, 0, false, 0⟩, false, 0⟩

inductive Reply
  | probed (ret : Ret)
  | removed
  | shown (text : Except Errno String)
  | stored (count : Except Errno ℕ)

structure Thread where
  func : ℕ
  code : Code Reply

/-- A bus operation, and whether its thread held the host. -/
structure Access where
  thread : ℕ
  op : BusOp
  held : Bool
  deriving DecidableEq, Repr

/-- `holder` is the thread that has claimed the host, with the number of its claims. -/
structure World where
  funcs : ℕ → Func
  threads : ℕ → Option Thread
  holder : Option (ℕ × ℕ)
  accesses : List Access

def World.initial : World := ⟨fun _ => .initial, fun _ => none, none, []⟩

def World.setFunc (w : World) (f : ℕ) (g : Func → Func) : World :=
  { w with funcs := Function.update w.funcs f (g (w.funcs f)) }

def World.setThread (w : World) (t : ℕ) (th : Option Thread) : World :=
  { w with threads := Function.update w.threads t th }

def World.holds (w : World) (t : ℕ) : Bool :=
  match w.holder with
  | some (t', _) => t' == t
  | none => false

/-- What the kernel or the card makes of a call that can fail. -/
structure Outcome where
  err : Option Errno
  val : UInt8

def Outcome.ret {α : Type} (o : Outcome) (a : α) : Except Errno α :=
  match o.err with
  | some e => .error e
  | none => .ok a

/-- `sdio_claim_host`: one thread at a time, which may claim again. -/
def claim (holder : Option (ℕ × ℕ)) (t : ℕ) : Option (ℕ × ℕ) :=
  match holder with
  | none => some (t, 1)
  | some (t', n) => if t' = t then some (t, n + 1) else none

/-- `sdio_release_host`: the last of the holder's claims frees the host. -/
def release (holder : Option (ℕ × ℕ)) (t : ℕ) : Option (ℕ × ℕ) :=
  match holder with
  | none => none
  | some (t', n) => if t' ≠ t then some (t', n) else if n ≤ 1 then none else some (t, n - 1)

/-- Thread `t` makes a call for function `f`; `none` while it has to wait. -/
def makeCall (w : World) (t f : ℕ) (o : Outcome) : (c : Call) → Option (World × c.Answer)
  | .claimHost => (claim w.holder t).map fun h => ({ w with holder := some h }, ())
  | .releaseHost => some ({ w with holder := release w.holder t }, ())
  | .bus op => some ({ w with accesses := ⟨t, op, w.holds t⟩ :: w.accesses }, o.ret o.val)
  | .kzalloc => some (w, o.err.isNone)
  | .addGroup =>
    some (if o.err.isNone then w.setFunc f fun F => { F with group := true } else w, o.ret ())
  | .load => some (w, (w.funcs f).data)
  | .update g => some (w.setFunc f fun F => { F with data := g F.data }, ())

inductive Event
  | probe (t f curBlksize : ℕ)
  | remove (t f : ℕ)
  | regShow (t f : ℕ)
  | regStore (t f : ℕ) (parsed : Except Errno ℕ) (count : ℕ)
  | turn (t : ℕ) (o : Outcome)
  | exit (t : ℕ)

/-- A free thread enters one of the entry points. -/
def enter (w : World) (t f : ℕ) (g : Func → Func) (code : Code Reply) : Option World :=
  if (w.threads t).isNone then some ((w.setFunc f g).setThread t (some ⟨f, code⟩)) else none

/-- A thread leaves its entry point. After a failed probe and after a remove the resources of the
device are released, which waits for the users of the sysfs group. -/
def leave (w : World) (t f : ℕ) (r : Reply) : Option World :=
  let w := w.setThread t none
  let released := fun (F : Func) => { F with bus := .unbound, group := false }
  match r with
  | .probed (.ok ()) => some (w.setFunc f fun F => { F with bus := .bound })
  | .probed (.error _) => if (w.funcs f).users = 0 then some (w.setFunc f released) else none
  | .removed => if (w.funcs f).users = 0 then some (w.setFunc f released) else none
  | .shown _ => some (w.setFunc f fun F => { F with users := F.users - 1 })
  | .stored _ => some (w.setFunc f fun F => { F with users := F.users - 1 })

def demoShow : Code Reply := Reply.shown <$> regShow

def demoStore (parsed : Except Errno ℕ) (count : ℕ) : Code Reply :=
  Reply.stored <$> regStore parsed count

def busProbe (curBlksize : ℕ) : Code Reply := Reply.probed <$> probe (some demoOps) curBlksize

def busRemove : Code Reply := (fun _ => Reply.removed) <$> remove (some demoOps)

/-- The bus probes what is unbound and removes what is bound; sysfs serves a group that is there. -/
def step (w : World) : Event → Option World
  | .probe t f curBlksize =>
    if (w.funcs f).bus = .unbound then
      enter w t f (fun F => { F with bus := .probing }) (busProbe curBlksize)
    else none
  | .remove t f =>
    if (w.funcs f).bus = .bound then
      enter w t f (fun F => { F with bus := .removing }) busRemove
    else none
  | .regShow t f =>
    if (w.funcs f).group then enter w t f (fun F => { F with users := F.users + 1 }) demoShow
    else none
  | .regStore t f parsed count =>
    if (w.funcs f).group then
      enter w t f (fun F => { F with users := F.users + 1 }) (demoStore parsed count)
    else none
  | .turn t o =>
    match w.threads t with
    | none => none
    | some ⟨_, .done _⟩ => none
    | some ⟨f, .call c next⟩ =>
      (makeCall w t f o c).map fun r => r.1.setThread t (some ⟨f, next r.2⟩)
  | .exit t =>
    match w.threads t with
    | some ⟨f, .done r⟩ => leave w t f r
    | _ => none
/-! ## What a step can do -/

/-- An entry point that the bus or sysfs may call now. -/
inductive MayEnter (F : Func) : Code Reply → Prop
  | probe (curBlksize : ℕ) (h : F.bus = .unbound) : MayEnter F (busProbe curBlksize)
  | remove (h : F.bus = .bound) : MayEnter F busRemove
  | regShow (h : F.group = true) : MayEnter F demoShow
  | regStore (h : F.group = true) (parsed : Except Errno ℕ) (count : ℕ) :
      MayEnter F (demoStore parsed count)

/-- A step enters the driver, makes a call or leaves the driver. -/
inductive Stepped (w : World) : Event → World → Prop
  | enter {e : Event} (t f : ℕ) (g : Func → Func) (code : Code Reply)
      (hcode : MayEnter (w.funcs f) code) (hbus : (g (w.funcs f)).bus ≠ .bound ∨ (w.funcs f).group)
      (hgroup : (g (w.funcs f)).group = (w.funcs f).group) :
      Stepped w e ((w.setFunc f g).setThread t (some ⟨f, code⟩))
  | turn (t f : ℕ) (o : Outcome) (c : Call) (next : c.Answer → Code Reply)
      (hthread : w.threads t = some ⟨f, .call c next⟩) (r : World × c.Answer)
      (hcall : makeCall w t f o c = some r) :
      Stepped w (.turn t o) (r.1.setThread t (some ⟨f, next r.2⟩))
  | exit (t f : ℕ) (r : Reply) (hthread : w.threads t = some ⟨f, .done r⟩) (w' : World)
      (hleave : leave w t f r = some w') : Stepped w (.exit t) w'

theorem enter_eq_some {w w' : World} {t f : ℕ} {g : Func → Func} {code : Code Reply}
    (h : enter w t f g code = some w') :
    w' = (w.setFunc f g).setThread t (some ⟨f, code⟩) := by
  rw [enter] at h
  split at h
  · exact (Option.some.inj h).symm
  · cases h

theorem step_cases {w w' : World} {e : Event} (h : step w e = some w') : Stepped w e w' := by
  cases e with
  | probe t f curBlksize =>
    simp only [step, Option.ite_none_right_eq_some] at h
    obtain ⟨hbus, h⟩ := h
    rw [enter_eq_some h]
    exact .enter t f _ _ (.probe curBlksize hbus) (.inl BusState.noConfusion) rfl
  | remove t f =>
    simp only [step, Option.ite_none_right_eq_some] at h
    obtain ⟨hbus, h⟩ := h
    rw [enter_eq_some h]
    exact .enter t f _ _ (.remove hbus) (.inl BusState.noConfusion) rfl
  | regShow t f =>
    simp only [step, Option.ite_none_right_eq_some] at h
    obtain ⟨hgroup, h⟩ := h
    rw [enter_eq_some h]
    exact .enter t f _ _ (.regShow hgroup) (.inr hgroup) rfl
  | regStore t f parsed count =>
    simp only [step, Option.ite_none_right_eq_some] at h
    obtain ⟨hgroup, h⟩ := h
    rw [enter_eq_some h]
    exact .enter t f _ _ (.regStore hgroup parsed count) (.inr hgroup) rfl
  | turn t o =>
    rw [step] at h
    split at h
    · cases h
    · cases h
    · rename_i f c next hthread
      obtain ⟨r, hcall, rfl⟩ := Option.map_eq_some_iff.mp h
      exact .turn t f o c next hthread r hcall
  | exit t =>
    rw [step] at h
    split at h
    · rename_i f r hthread
      exact .exit t f r hthread w' h
    · cases h

theorem leave_eq_some {w w' : World} {t f : ℕ} {r : Reply} (h : leave w t f r = some w') :
    w'.threads = Function.update w.threads t none ∧ w'.holder = w.holder ∧
      w'.accesses = w.accesses := by
  cases r with
  | probed ret =>
    cases ret with
    | ok u =>
      obtain rfl := Option.some.inj h
      exact ⟨rfl, rfl, rfl⟩
    | error e =>
      simp only [leave, Option.ite_none_right_eq_some] at h
      obtain rfl := Option.some.inj h.2
      exact ⟨rfl, rfl, rfl⟩
  | removed =>
    simp only [leave, Option.ite_none_right_eq_some] at h
    obtain rfl := Option.some.inj h.2
    exact ⟨rfl, rfl, rfl⟩
  | shown text =>
    obtain rfl := Option.some.inj h
    exact ⟨rfl, rfl, rfl⟩
  | stored count =>
    obtain rfl := Option.some.inj h
    exact ⟨rfl, rfl, rfl⟩

theorem makeCall_threads {w : World} {t f : ℕ} {o : Outcome} {c : Call} {r : World × c.Answer}
    (h : makeCall w t f o c = some r) (th : Option Thread) :
    (r.1.setThread t th).threads = Function.update w.threads t th := by
  suffices hsame : r.1.threads = w.threads by
    rw [World.setThread, hsame]
  cases c with
  | claimHost =>
    obtain ⟨x, -, rfl⟩ := Option.map_eq_some_iff.mp h
    rfl
  | addGroup =>
    obtain rfl := Option.some.inj h
    show (if o.err.isNone then _ else w : World).threads = w.threads
    split <;> rfl
  | releaseHost | bus op | kzalloc | load | update g =>
    obtain rfl := Option.some.inj h
    rfl

/-- A bus operation between a claim and its release is done by the holder, and leaves the host free. -/
theorem claim_protects {w : World} (h : w.holder = none) (t f : ℕ) (o : Outcome) (op : BusOp) :
    ∃ w₁ w₂ w₃ r, makeCall w t f o .claimHost = some (w₁, ()) ∧
      makeCall w₁ t f o (.bus op) = some (w₂, r) ∧
      makeCall w₂ t f o .releaseHost = some (w₃, ()) ∧
      w₃.accesses = ⟨t, op, true⟩ :: w.accesses ∧ w₃.holder = none := by
  let w₁ : World := { w with holder := some (t, 1) }
  let w₂ : World := { w₁ with accesses := ⟨t, op, w₁.holds t⟩ :: w.accesses }
  have hclaim : claim w.holder t = some (t, 1) := by
    rw [h]
    rfl
  have hheld : w₁.holds t = true := beq_self_eq_true t
  have hfree : release w₂.holder t = none := by
    show release (some (t, 1)) t = none
    simp only [release, ne_eq, not_true_eq_false, if_false, Nat.le_refl, if_true]
  refine ⟨w₁, w₂, { w₂ with holder := release w₂.holder t }, o.ret o.val, ?_, rfl, rfl, ?_, hfree⟩
  · show (claim w.holder t).map (fun x => ({ w with holder := some x }, ())) = some (w₁, ())
    rw [hclaim]
    rfl
  · show ⟨t, op, w₁.holds t⟩ :: w.accesses = _
    rw [hheld]

def World.Codes (w : World) (P : Code Reply → Prop) : Prop :=
  ∀ t th, w.threads t = some th → P th.code

theorem codes_update {w w' : World} {P : Code Reply → Prop} (h : w.Codes P) {t : ℕ}
    {th : Option Thread} (hw' : w'.threads = Function.update w.threads t th)
    (hth : ∀ x, th = some x → P x.code) : w'.Codes P := by
  rw [World.Codes, hw']
  apply (Function.forall_update_iff w.threads fun _ x => ∀ th, x = some th → P th.code).mpr
  exact ⟨hth, fun t' _ => h t'⟩

end LinuxDriverFramework.NvSdio
