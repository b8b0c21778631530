import LinuxDriverFramework.NvChar.PollThreads
import LinuxDriverFramework.NvChar.InterleavingInvariant

/-! # The invariant of the polling threads

* `Invariant`: who holds the lock, who is queued, and that every sleeper is `Covered`.
* `Moves`: what a step of a thread does to each part of the invariant.
* `reachable_invariant`: the rule for runs. -/

namespace LinuxDriverFramework.NvChar.PollWakeups
open Foundations
open Interleaving hiding step init State
open Io hiding read write poll unlockedIoctl
set_option autoImplicit false

variable {ι : Type} [DecidableEq ι] [Fintype ι]

/-! ## What the invariant looks at -/

def Task.holdsLock : Task → Bool
  | .body _ | .unlock _ _ | .wake (.write ..) => true
  | _ => false

/-- A `poll(2)` that is not in its last round has its entry in the queue. -/
def Task.inPoll : Task → Bool
  | .lock (.poll _ _ false) | .body (.poll _ _ false) => true
  | .unlock (.poll _ _ false) _ | .leave (.poll _ _ false) _ => true
  | .schedule .. | .asleep .. => true
  | _ => false

/-- A `poll(2)` that asked for a message, has not seen one and is going to sleep. -/
def Task.waits : Task → Prop
  | .unlock (.poll _ events false) mask | .leave (.poll _ events false) mask =>
    events &&& pollInMask ≠ 0 ∧ answered events mask = false
  | .schedule _ events | .asleep _ events => events &&& pollInMask ≠ 0
  | _ => False

/-- The message has been written and the wake-up is next. -/
def Task.owes : Task → Bool
  | .wake (.write ..) => true
  | _ => false

/-- Where the thread stands in `Interleaving`. -/
def Task.Stands (p : Pc) : Task → Prop
  | .other => True
  | .entering r => p.onFile = some r.fd
  | .lock r | .body r | .unlock r _ | .leave r _ => ∃ cb, p = .running r.fd cb
  | .wake r => r.wakes = true ∧ ∃ cb, p = .running r.fd cb
  | .schedule .. | .asleep .. => p = .idle

structure Invariant (w : World ι) : Prop where
  counted : Counted w.dev
  stands : ∀ t, (w.task t).Stands (w.dev.pc t)
  parked : ∀ t f, (w.task t).parkedOn = some f → f ∈ w.dev.live
  locked : ∀ t, (w.task t).holdsLock = true → w.lock = some t
  queued : ∀ t, (w.task t).inPoll = true → w.wq.queued t = true
  covered : w.wq.Covered (fun t => (w.task t).waits) w.readable (∃ t, (w.task t).owes = true)

omit [DecidableEq ι] in
theorem invariant_init : Invariant (init ι) where
  counted := counted_init
  stands := fun _ => trivial
  parked := fun _ _ h => by cases h
  locked := fun _ h => by cases h
  queued := fun _ h => by cases h
  covered := fun _ h => h.elim

/-- What a step of thread `t` does to the parts of the invariant. -/
structure Moves (configCompat : Bool) (w : World ι) (t : ι) (w' : World ι) : Prop where
  dev : Reachable (Interleaving.step (demoOps configCompat)) w.dev w'.dev
  pc_other : ∀ u, u ≠ t → w'.dev.pc u = w.dev.pc u
  task_other : ∀ u, u ≠ t → w'.task u = w.task u
  live : ∀ u f, (w.task u).parkedOn = some f → f ∈ w'.dev.live
  stands : (w'.task t).Stands (w'.dev.pc t)
  parked : ∀ f, (w'.task t).parkedOn = some f → f ∈ w'.dev.live
  lock : (w'.task t).holdsLock = true → w'.lock = some t
  lock_other : ∀ u, u ≠ t → w.lock = some u → w'.lock = some u
  wq : w.wq.SameBut t w'.wq ∨ w'.wq = w.wq.wakeAll
  queued : (w'.task t).inPoll = true → w'.wq.queued t = true
  /-- a message appears only with the wake-up ahead -/
  readable : w'.readable → w.readable ∨ (w'.task t).owes = true
  owes : (w.task t).owes = true → w'.wq = w.wq.wakeAll
  /-- a thread goes to wait only after it has seen no message -/
  waits : (w'.task t).waits →
    (w.task t).waits ∧ w'.wq.triggered t = w.wq.triggered t ∨ ¬ w'.readable

omit [Fintype ι] [DecidableEq ι] in
theorem Task.inPoll_of_waits {k : Task} (h : k.waits) : k.inPoll = true := by
  unfold Task.waits at h
  split at h <;> first | rfl | exact h.elim

theorem Moves.invariant {configCompat : Bool} {w w' : World ι} {t : ι}
    (m : Moves configCompat w t w') (hi : Invariant w) : Invariant w' := by
  have hqueued : ∀ u, (w'.task u).inPoll = true → w'.wq.queued u = true := by
    intro u hu
    by_cases hut : u = t
    · subst hut
      exact m.queued hu
    · rw [m.task_other u hut] at hu
      have hq := hi.queued u hu
      rcases m.wq with hsame | hwake
      · rw [(hsame u hut).1]
        exact hq
      · rw [hwake]
        exact hq
  have hwq : ∀ u, (w'.task u).waits → w'.wq.queued u = true := fun u hu =>
    hqueued u (Task.inPoll_of_waits hu)
  refine ⟨?_, fun u => ?_, fun u f hf => ?_, fun u hu => ?_, hqueued, ?_⟩
  · exact run_invariant step_counted hi.counted m.dev
  · by_cases hut : u = t
    · subst hut
      exact m.stands
    · rw [m.task_other u hut, m.pc_other u hut]
      exact hi.stands u
  · by_cases hut : u = t
    · subst hut
      exact m.parked f hf
    · rw [m.task_other u hut] at hf
      exact m.live u f hf
  · by_cases hut : u = t
    · subst hut
      exact m.lock hu
    · rw [m.task_other u hut] at hu
      exact m.lock_other u hut (hi.locked u hu)
  · rcases m.wq with hsame | hwake
    · by_cases howes : (w'.task t).owes = true
      · exact WaitQueue.covered_of_owed hwq ⟨t, howes⟩
      · by_cases hpaid : (w.task t).owes = true
        · rw [m.owes hpaid]
          refine WaitQueue.covered_wakeAll fun u hu => ?_
          have hq := hwq u hu
          rwa [m.owes hpaid] at hq
        · refine hi.covered.move t hsame (fun u hut hu => ?_) ?_ ?_ fun hw => ⟨hwq t hw, ?_⟩
          · rw [m.task_other u hut] at hu
            exact hu
          · exact fun hr => (m.readable hr).resolve_right howes
          · rintro ⟨u, hu⟩
            have hut : u ≠ t := by
              rintro rfl
              exact hpaid hu
            exact ⟨u, by rw [m.task_other u hut]; exact hu⟩
          · -- `t` waited before, or it has just found nothing
            rcases m.waits hw with ⟨hold, htrig⟩ | hnot
            · rcases (hi.covered t hold).2 with h1 | h1 | ⟨u, hu⟩
              · exact .inl (htrig.trans h1)
              · exact .inr (.inl fun hr => h1 ((m.readable hr).resolve_right howes))
              · have hut : u ≠ t := by
                  rintro rfl
                  exact hpaid hu
                exact .inr (.inr ⟨u, by rw [m.task_other u hut]; exact hu⟩)
            · exact .inr (.inl hnot)
    · rw [hwake]
      refine WaitQueue.covered_wakeAll fun u hu => ?_
      have hq := hwq u hu
      rwa [hwake] at hq

/-! ## What one step can do -/

section Device

variable {ops : Option Ops} {s s' : Interleaving.State ι} {t : ι} {f : ℕ}

theorem live_of_threadStep {m : Move} (h : threadStep ops s t m = some s') (hf : f ∈ s.live)
    (hm : m ≠ .callRelease f) : f ∈ s'.live := by
  unfold threadStep at h
  split at h
  all_goals try split at h
  all_goals simp only [Option.some.injEq, reduceCtorEq] at h
  all_goals subst h
  all_goals first
    | exact hf
    | exact Finset.mem_insert_of_mem hf
    | exact Finset.mem_erase.mpr ⟨fun hfg => hm (congrArg Move.callRelease hfg.symm), hf⟩

/-- A thread on a descriptor moves on inside the wrapper or returns. -/
theorem advance_onFile (hf : (s.pc t).onFile = some f)
    (h : threadStep ops s t .advance = some s') :
    s'.live = s.live ∧ ((s'.pc t).onFile = some f ∨ s'.pc t = .idle) := by
  cases hpc : s.pc t with
  | gate g op =>
    simp only [threadStep, hpc] at h
    obtain rfl := Option.some.inj h
    rw [hpc] at hf
    exact ⟨rfl, .inl (by rw [goto_pc_self]; exact hf)⟩
  | chosen g o =>
    rw [hpc] at hf
    cases o <;> simp only [threadStep, hpc] at h <;> obtain rfl := Option.some.inj h
    case call cb => exact ⟨rfl, .inl (by rw [goto_pc_self]; exact hf)⟩
    all_goals exact ⟨rfl, .inr (goto_pc_self _ _ _)⟩
  | running g cb =>
    simp only [threadStep, hpc] at h
    obtain rfl := Option.some.inj h
    exact ⟨rfl, .inr (goto_pc_self _ _ _)⟩
  | _ => rw [hpc] at hf; cases hf

theorem advance_running {cb : Callback} (hpc : s.pc t = .running f cb)
    (h : threadStep ops s t .advance = some s') : s' = s.goto t .idle := by
  simp only [threadStep, hpc] at h
  exact (Option.some.inj h).symm

theorem callOp_eq {op : FileOp} (h : threadStep ops s t (.callOp f op) = some s') :
    s.pc t = .idle ∧ f ∈ s.live ∧ s' = s.goto t (.gate f op) := by
  cases hpc : s.pc t <;> simp only [threadStep, hpc, reduceCtorEq] at h
  by_cases hf : f ∈ s.live
  · rw [if_pos hf] at h
    exact ⟨rfl, hf, (Option.some.inj h).symm⟩
  · rw [if_neg hf] at h
    cases h

theorem threadStep_pc_other {m : Move} {u : ι}
    (hfile : ∀ u f, (s.pc u).onFile = some f → f ∈ s.live)
    (h : threadStep ops s t m = some s') (hu : u ≠ t) : s'.pc u = s.pc u :=
  (threadStep_effect hfile h).pc_other u hu

end Device

theorem Request.afterBody_of_readable {r : Request} {priv : Option DemoPriv}
    (h : ∃ p, r.newPriv priv = some p ∧ p.dataReady ∧ p.len ≠ 0) :
    (∃ p, priv = some p ∧ p.dataReady ∧ p.len ≠ 0) ∨ (r.afterBody priv).owes = true := by
  cases r with
  | poll => exact .inl h
  | read => exact .inl h
  | ioctl fd holds cmd arg =>
    cases priv with
    | none =>
      obtain ⟨p, hp, -⟩ := h
      simp only [Request.newPriv, demoIoctl, ioctlDispatch, demoIoctls, ioctlLoop] at hp
      split at hp
      · split at hp <;> cases hp
      · cases hp
    | some q =>
      obtain ⟨p, hp, hready, hlen⟩ := h
      rcases demoIoctl_state holds cmd q arg with hsame | hclear
      · exact .inl ⟨p, hsame.symm.trans hp, hready, hlen⟩
      · obtain rfl := Option.some.inj (hclear.symm.trans hp)
        cases hready
  | write fd buf count pos =>
    cases priv with
    | none =>
      obtain ⟨p, hp, -⟩ := h
      cases hp
    | some q =>
      obtain ⟨p, hp, hready, hlen⟩ := h
      simp only [Request.newPriv, Request.afterBody, demoWrite] at hp ⊢
      by_cases hfault : (copyFromUser buf (min count demoBufSize)).2 ≠ 0
      · -- the copy failed halfway: the length and the flag are the old ones
        rw [if_pos hfault] at hp
        obtain rfl := Option.some.inj hp
        exact .inl ⟨q, rfl, hready, hlen⟩
      · rw [if_neg hfault]
        exact .inr rfl

theorem and_or_distrib (a b c : UInt32) : a &&& (b ||| c) = a &&& b ||| a &&& c :=
  UInt32.toBitVec_inj.1 (BitVec.and_or_distrib_left)

theorem answered_of_and {events mask b : UInt32} (hm : b &&& mask = b)
    (hf : b &&& (events ||| (epollErr ||| epollHup)) ≠ 0) : answered events mask = true := by
  unfold answered
  by_contra hne
  have hzero : mask &&& (events ||| (epollErr ||| epollHup)) = 0 := by simpa using hne
  rw [← hm, UInt32.and_assoc, hzero, UInt32.and_zero] at hf
  exact hf rfl

theorem answered_err (events : UInt32) : answered events epollErr = true := by
  refine answered_of_and UInt32.and_self ?_
  have hself : epollErr &&& (epollErr ||| epollHup) = epollErr := by decide
  rw [and_or_distrib, hself]
  intro hzero
  exact absurd (UInt32.or_eq_zero_iff.mp hzero).2 (by decide)

theorem answered_of_readable {p : DemoPriv} {events : UInt32} (hin : events &&& pollInMask ≠ 0)
    (hready : p.dataReady = true) (hlen : p.len ≠ 0) :
    answered events (demoPoll (some p)) = true := by
  have hmask : demoPoll (some p) = pollInMask ||| (epollOut ||| epollWrNorm) := by
    simp [demoPoll, hready, hlen, pollInMask]
  have hnone : pollInMask &&& (epollErr ||| epollHup) = 0 := by decide
  rw [hmask]
  refine answered_of_and (b := pollInMask) (by decide) ?_
  rw [and_or_distrib, hnone, UInt32.or_zero, UInt32.and_comm]
  exact hin

section Moves

variable {configCompat : Bool} {w : World ι} {t : ι}

/-- A step that leaves the device alone. -/
theorem Moves.local {k : Task} {l : Option ι} {p : Option DemoPriv} {q : WaitQueue ι}
    (hi : Invariant w) (hs : k.Stands (w.dev.pc t))
    (hparked : ∀ f, k.parkedOn = some f → (w.task t).parkedOn = some f)
    (hlock : k.holdsLock = true → l = some t) (hlo : ∀ u, u ≠ t → w.lock = some u → l = some u)
    (hwq : w.wq.SameBut t q ∨ q = w.wq.wakeAll)
    (hqueued : k.inPoll = true → q.queued t = true)
    (hread : (∃ p', p = some p' ∧ p'.dataReady ∧ p'.len ≠ 0) → w.readable ∨ k.owes = true)
    (howes : (w.task t).owes = true → q = w.wq.wakeAll)
    (hwaits : k.waits → (w.task t).waits ∧ q.triggered t = w.wq.triggered t ∨
      ¬ ∃ p', p = some p' ∧ p'.dataReady ∧ p'.len ≠ 0) :
    Moves configCompat w t ({ w with lock := l, priv := p, wq := q }.goto t k) where
  dev := .refl _
  pc_other := fun _ _ => rfl
  task_other := fun u hu => Function.update_of_ne hu _ _
  live := hi.parked
  stands := by simp only [World.goto, Function.update_self]; exact hs
  parked := by
    simp only [World.goto, Function.update_self]
    exact fun f hf => hi.parked t f (hparked f hf)
  lock := by simp only [World.goto, Function.update_self]; exact hlock
  lock_other := hlo
  wq := hwq
  queued := by simp only [World.goto, Function.update_self]; exact hqueued
  readable := by simp only [World.goto, Function.update_self]; exact hread
  owes := howes
  waits := by simp only [World.goto, Function.update_self]; exact hwaits

/-- A step inside the wrappers. -/
theorem Moves.device {m : Move} {d : Interleaving.State ι} {k : Task} {q : WaitQueue ι}
    (hi : Invariant w) (h : threadStep (demoOps configCompat) w.dev t m = some d)
    (hrel : ∀ u f, (w.task u).parkedOn = some f → m ≠ .callRelease f)
    (hs : k.Stands (d.pc t)) (hparked : ∀ f, k.parkedOn = some f → f ∈ d.live)
    (hk : k.holdsLock = false) (hsame : w.wq.SameBut t q)
    (hqueued : k.inPoll = true → q.queued t = true) (howes : (w.task t).owes = false)
    (hwaits : k.waits → (w.task t).waits ∧ q.triggered t = w.wq.triggered t) :
    Moves configCompat w t ({ w with dev := d, wq := q }.goto t k) where
  dev := (Reachable.refl _).tail (.thread t m) h
  pc_other := fun u hu => threadStep_pc_other hi.counted.onFile h hu
  task_other := fun u hu => Function.update_of_ne hu _ _
  live := fun u f hf => live_of_threadStep h (hi.parked u f hf) (hrel u f hf)
  stands := by simp only [World.goto, Function.update_self]; exact hs
  parked := by simp only [World.goto, Function.update_self]; exact hparked
  lock := by simp only [World.goto, Function.update_self, hk]; exact fun hf => by cases hf
  lock_other := fun _ _ => id
  wq := .inl hsame
  queued := by simp only [World.goto, Function.update_self]; exact hqueued
  readable := .inl
  owes := by rw [howes]; exact fun hf => by cases hf
  waits := by
    simp only [World.goto, Function.update_self]
    exact fun hw => .inl (hwaits hw)

omit [DecidableEq ι] [Fintype ι] in
theorem Request.not_waits_start (r : Request) (priv : Option DemoPriv) :
    ¬ (r.start priv).waits := by
  unfold Request.start
  by_cases hpriv : priv.isNone = true
  · rw [if_pos hpriv]
    rcases r with ⟨fd, events, _ | _⟩ | _ | _ | _
    · rintro ⟨-, hans⟩
      rw [answered_err] at hans
      cases hans
    all_goals exact id
  · rw [if_neg hpriv]
    by_cases hlocks : r.locks = true
    · rw [if_pos hlocks]
      exact id
    · rw [if_neg hlocks]
      cases r with
      | ioctl => exact id
      | _ => exact absurd rfl hlocks

theorem start_stands (r : Request) (priv : Option DemoPriv) {p : Pc} {cb : Callback}
    (hp : p = .running r.fd cb) :
    (r.start priv).Stands p ∧ (r.start priv).holdsLock = false ∧ (r.start priv).parkedOn = none := by
  unfold Request.start
  split
  · exact ⟨⟨cb, hp⟩, rfl, rfl⟩
  · split
    · exact ⟨⟨cb, hp⟩, rfl, rfl⟩
    · exact ⟨⟨cb, hp⟩, rfl, rfl⟩

theorem start_inPoll {r : Request} {priv : Option DemoPriv}
    (h : (r.start priv).inPoll = true) : ∃ fd events, r = .poll fd events false := by
  unfold Request.start at h
  rcases r with ⟨fd, events, _ | _⟩ | _ | _ | _
  · exact ⟨fd, events, rfl⟩
  all_goals
    split at h
    · cases h
    · split at h <;> cases h

omit [Fintype ι] in
/-- How a call of the wrapper goes on. -/
theorem entered_cases (w : World ι) (t : ι) (r : Request) (d : Interleaving.State ι) :
    (∃ f cb, d.pc t = .running f cb ∧ ∃ q, w.wq.SameBut t q ∧
      (∀ fd events, r = .poll fd events false → q.queued t = true) ∧
      w.entered t r d = { w with dev := d, wq := q }.goto t (r.start w.priv)) ∨
    (d.pc t = .idle ∧ ∃ q, w.wq.SameBut t q ∧
      w.entered t r d = { w with dev := d, wq := q }.goto t .other) ∨
    d.pc t ≠ .idle ∧ w.entered t r d = { w with dev := d } := by
  cases hpc : d.pc t with
  | running f cb =>
    refine .inl ⟨f, cb, rfl, ?_⟩
    rcases r with ⟨fd, events, _ | _⟩ | _ | _ | _ <;> simp only [World.entered, hpc]
    · exact ⟨w.wq.add t, WaitQueue.sameBut_add w.wq t,
        fun _ _ _ => Function.update_self _ _ _, rfl⟩
    all_goals
      refine ⟨w.wq, .refl t w.wq, fun _ _ h => ?_, rfl⟩
      cases h
  | idle =>
    refine .inr (.inl ⟨rfl, ?_⟩)
    cases r <;> simp only [World.entered, hpc]
    · exact ⟨w.wq.remove t, WaitQueue.sameBut_remove w.wq t, rfl⟩
    all_goals exact ⟨w.wq, .refl t w.wq, rfl⟩
  | _ =>
    refine .inr (.inr ⟨(fun h => by cases h), ?_⟩)
    simp only [World.entered, hpc]

theorem moves_entering {r : Request} {d : Interleaving.State ι} (hi : Invariant w)
    (hk : w.task t = .entering r)
    (h : threadStep (demoOps configCompat) w.dev t .advance = some d) :
    Moves configCompat w t (w.entered t r d) := by
  have hfile : (w.dev.pc t).onFile = some r.fd := by
    have hs := hi.stands t
    rw [hk] at hs
    exact hs
  have hrel : ∀ u f, (w.task u).parkedOn = some f → Move.advance ≠ .callRelease f :=
    fun _ _ _ hm => by cases hm
  have howes : (w.task t).owes = false := by rw [hk]; rfl
  have hnext := (advance_onFile hfile h).2
  rcases entered_cases w t r d with ⟨f, cb, hpc, q, hsame, hq, heq⟩ | ⟨hpc, q, hsame, heq⟩ |
    ⟨hidle, heq⟩
  · rw [heq]
    have hfd : f = r.fd := by
      rw [hpc] at hnext
      rcases hnext with h' | h'
      · exact Option.some.inj h'
      · cases h'
    obtain ⟨hs, hlock, hparked⟩ := start_stands r w.priv (hfd ▸ hpc)
    refine .device hi h hrel hs (fun f hf => ?_) hlock hsame (fun hin => ?_) howes
      fun hw => absurd hw (r.not_waits_start w.priv)
    · rw [hparked] at hf
      cases hf
    · obtain ⟨fd, events, hr⟩ := start_inPoll hin
      exact hq fd events hr
  · rw [heq]
    exact .device hi h hrel trivial (fun _ hf => by cases hf) rfl hsame
      (fun hin => by cases hin) howes fun hw => hw.elim
  · -- past the gate, with the callback still to be called
    have hsame : w.entered t r d = { w with dev := d, wq := w.wq }.goto t (.entering r) := by
      rw [heq, World.goto, ← hk, Function.update_eq_self]
    rw [hsame]
    refine .device hi h hrel ?_ (fun _ hf => by cases hf) rfl (.refl t _)
      (fun hin => by cases hin) howes fun hw => hw.elim
    exact hnext.resolve_right hidle

theorem moves_again {fd : ℕ} {events : UInt32} {last : Bool} {w' : World ι} (hi : Invariant w)
    (howes : (w.task t).owes = false) (h : w.again configCompat t fd events last = some w') :
    Moves configCompat w t w' := by
  obtain ⟨d, hd, rfl⟩ := Option.map_eq_some_iff.mp h
  obtain ⟨-, -, hnext⟩ := callOp_eq hd
  refine .device hi hd (fun _ _ _ hm => by cases hm) ?_ (fun _ hf => by cases hf) rfl
    (WaitQueue.sameBut_consume w.wq t) (fun hin => by cases hin) howes fun hw => hw.elim
  rw [hnext, goto_pc_self]
  rfl

theorem moves_left {r : Request} {mask : UInt32} {d : Interleaving.State ι} (hi : Invariant w)
    (hk : w.task t = .leave r mask)
    (h : threadStep (demoOps configCompat) w.dev t .advance = some d) :
    Moves configCompat w t (w.left t r mask d) := by
  obtain ⟨cb, hpc⟩ : ∃ cb, w.dev.pc t = .running r.fd cb := by
    have hs := hi.stands t
    rw [hk] at hs
    exact hs
  obtain rfl := advance_running hpc h
  have hlive : r.fd ∈ w.dev.live := hi.counted.onFile t r.fd (by rw [hpc]; rfl)
  have howes : (w.task t).owes = false := by rw [hk]; rfl
  have hother : ∀ q, w.wq.SameBut t q → Moves configCompat w t
      ({ w with dev := w.dev.goto t .idle, wq := q }.goto t .other) := fun q hsame =>
    .device hi h (fun _ _ _ hm => by cases hm) trivial (fun _ hf => by cases hf) rfl hsame
      (fun hin => by cases hin) howes fun hw => hw.elim
  cases r with
  | poll fd events last =>
    by_cases hdone : (answered events mask || last) = true
    · simp only [World.left, hdone, if_true]
      exact hother _ (WaitQueue.sameBut_remove w.wq t)
    · simp only [World.left, hdone, if_false, Bool.false_eq_true]
      simp only [Bool.or_eq_true, not_or, Bool.not_eq_true] at hdone
      obtain ⟨hans, rfl⟩ := hdone
      have hin : (w.task t).inPoll = true := by rw [hk]; rfl
      refine .device hi h (fun _ _ _ hm => by cases hm) (goto_pc_self _ _ _) (fun f hf => ?_) rfl
        (.refl t w.wq) (fun _ => hi.queued t hin) howes fun hw => ⟨?_, rfl⟩
      · obtain rfl := Option.some.inj hf
        exact hlive
      · rw [hk]
        exact ⟨hw, hans⟩
  | _ => exact hother w.wq (.refl t w.wq)

/-! ## Inside the callbacks -/

theorem moves_lock {r : Request} (hi : Invariant w) (hk : w.task t = .lock r)
    (hfree : w.lock = none) :
    Moves configCompat w t ({ w with lock := some t }.goto t (.body r)) := by
  have hs := hi.stands t
  have hin := hi.queued t
  rw [hk] at hs hin
  refine Moves.local hi hs (fun _ hf => by cases hf) (fun _ => rfl) (fun u _ hl => ?_)
    (.inl (.refl t w.wq)) (fun hp => hin ?_) .inl (fun ho => ?_) fun hw => hw.elim
  · rw [hfree] at hl
    cases hl
  · rcases r with ⟨fd, events, _ | _⟩ | _ | _ | _ <;> first | rfl | cases hp
  · rw [hk] at ho
    cases ho

theorem moves_body {r : Request} (hi : Invariant w) (hk : w.task t = .body r) :
    Moves configCompat w t
      ({ w with priv := r.newPriv w.priv }.goto t (r.afterBody w.priv)) := by
  have hs := hi.stands t
  have hin := hi.queued t
  have hlock := hi.locked t
  rw [hk] at hs hin hlock
  have hafter : (∃ mask, r.afterBody w.priv = .unlock r mask ∧
        ∀ fd events last, r = .poll fd events last → mask = demoPoll w.priv) ∨
      r.afterBody w.priv = .wake r ∧ r.wakes = true := by
    cases r with
    | poll => exact .inl ⟨_, rfl, fun _ _ _ _ => rfl⟩
    | write fd buf count pos =>
      simp only [Request.afterBody]
      split
      · exact .inr ⟨rfl, rfl⟩
      · exact .inl ⟨0, rfl, fun _ _ _ h => by cases h⟩
    | _ => exact .inl ⟨0, rfl, fun _ _ _ h => by cases h⟩
  refine Moves.local hi ?_ (fun f hf => ?_) (fun _ => hlock rfl) (fun _ _ => id)
    (.inl (.refl t w.wq)) (fun hp => hin ?_) Request.afterBody_of_readable (fun ho => ?_)
    fun hw => .inr ?_
  · rcases hafter with ⟨mask, heq, -⟩ | ⟨heq, hwakes⟩ <;> rw [heq]
    · exact hs
    · exact ⟨hwakes, hs⟩
  · rcases hafter with ⟨mask, heq, -⟩ | ⟨heq, -⟩ <;> rw [heq] at hf <;> cases hf
  · rcases hafter with ⟨mask, heq, -⟩ | ⟨heq, -⟩ <;> rw [heq] at hp
    · rcases r with ⟨fd, events, _ | _⟩ | _ | _ | _ <;> first | rfl | cases hp
    · cases hp
  · rw [hk] at ho
    cases ho
  · rcases hafter with ⟨mask, heq, hmask⟩ | ⟨heq, -⟩ <;> rw [heq] at hw
    · rcases r with ⟨fd, events, _ | _⟩ | _ | _ | _
      case poll.false =>
        -- the poll has looked under the lock
        rintro ⟨p, hp, hready, hlen⟩
        have hp' : w.priv = some p := hp
        have hans := answered_of_readable hw.1 hready hlen
        rw [← hp', ← hmask fd events false rfl, hw.2] at hans
        cases hans
      all_goals exact hw.elim
    · exact hw.elim

theorem moves_wake {r : Request} (hi : Invariant w) (hk : w.task t = .wake r) :
    Moves configCompat w t ({ w with wq := w.wq.wakeAll }.goto t r.afterWake) := by
  have hs := hi.stands t
  have hlock := hi.locked t
  rw [hk] at hs hlock
  obtain ⟨hwakes, cb, hpc⟩ := hs
  cases r with
  | poll => cases hwakes
  | write =>
    exact Moves.local hi ⟨cb, hpc⟩ (fun _ hf => by cases hf) (fun _ => hlock rfl) (fun _ _ => id)
      (.inr rfl) (fun hp => by cases hp) .inl (fun _ => rfl) fun hw => hw.elim
  | _ =>
    exact Moves.local hi ⟨cb, hpc⟩ (fun _ hf => by cases hf) (fun h => by cases h) (fun _ _ => id)
      (.inr rfl) (fun hp => by cases hp) .inl (fun _ => rfl) fun hw => hw.elim

theorem moves_unlock {r : Request} {mask : UInt32} (hi : Invariant w)
    (hk : w.task t = .unlock r mask) :
    Moves configCompat w t ({ w with lock := none }.goto t (r.afterUnlock mask)) := by
  have hs := hi.stands t
  have hin := hi.queued t
  have hlock : w.lock = some t := hi.locked t (by rw [hk]; rfl)
  rw [hk] at hs hin
  have hother : ∀ u, u ≠ t → w.lock = some u → none = some u := fun u hu hl =>
    absurd (Option.some.inj (hl.symm.trans hlock)) hu
  have howes : (w.task t).owes = true → w.wq = w.wq.wakeAll := by
    rw [hk]
    exact fun ho => by cases ho
  have hafter : r.afterUnlock mask = .leave r mask ∨
      r.afterUnlock mask = .wake r ∧ ∃ fd holds arg, r = .ioctl fd holds nvDemoIocClear arg := by
    cases r with
    | ioctl fd holds cmd arg =>
      by_cases hcmd : cmd = nvDemoIocClear
      · exact .inr ⟨if_pos hcmd, fd, holds, arg, by rw [hcmd]⟩
      · exact .inl (if_neg hcmd)
    | _ => exact .inl rfl
  rcases hafter with heq | ⟨heq, fd, holds, arg, rfl⟩ <;> rw [heq]
  · refine Moves.local hi hs (fun _ hf => by cases hf) (fun h => by cases h) hother
      (.inl (.refl t w.wq)) (fun hp => hin ?_) .inl howes fun hw => .inl ⟨?_, rfl⟩
    · rcases r with ⟨fd, events, _ | _⟩ | _ | _ | _ <;> first | rfl | cases hp
    · rw [hk]
      rcases r with ⟨fd, events, _ | _⟩ | _ | _ | _ <;> exact hw
  · exact Moves.local hi ⟨rfl, hs⟩ (fun _ hf => by cases hf) (fun h => by cases h) hother
      (.inl (.refl t w.wq)) (fun hp => by cases hp) .inl howes fun hw => hw.elim

theorem moves_schedule {fd : ℕ} {events : UInt32} (hi : Invariant w)
    (hk : w.task t = .schedule fd events) :
    Moves configCompat w t (w.goto t (.asleep fd events)) := by
  have hs := hi.stands t
  have hin := hi.queued t
  rw [hk] at hs hin
  refine Moves.local hi hs (fun f hf => ?_) (fun h => by cases h) (fun _ _ => id)
    (.inl (.refl t w.wq)) (fun _ => hin rfl) .inl (fun ho => ?_) fun hw => .inl ⟨?_, rfl⟩
  · rw [hk]
    exact hf
  · rw [hk] at ho
    cases ho
  · rw [hk]
    exact hw

theorem moves_other {m : Move} {d : Interleaving.State ι} (hi : Invariant w)
    (hk : w.task t = .other) (hm : w.plain m)
    (h : threadStep (demoOps configCompat) w.dev t m = some d) :
    Moves configCompat w t { w with dev := d } := by
  have heq : ({ w with dev := d } : World ι) =
      { w with dev := d, wq := w.wq }.goto t .other := by
    rw [World.goto, ← hk, Function.update_eq_self]
  rw [heq]
  refine .device hi h (fun u f hf hrel => ?_) trivial (fun _ hf => by cases hf) rfl
    (.refl t w.wq) (fun hin => by cases hin) (by rw [hk]; rfl) fun hw => hw.elim
  subst hrel
  exact hm u hf

theorem moves_call {op : FileOp} {r : Request} {d : Interleaving.State ι} (hi : Invariant w)
    (hk : w.task t = .other)
    (h : threadStep (demoOps configCompat) w.dev t (.callOp r.fd op) = some d) :
    Moves configCompat w t
      ({ w with dev := d, wq := w.wq.consume t }.goto t (.entering r)) := by
  refine .device hi h (fun _ _ _ hm => by cases hm) ?_ (fun _ hf => by cases hf) rfl
    (WaitQueue.sameBut_consume w.wq t) (fun hin => by cases hin) (by rw [hk]; rfl)
    fun hw => hw.elim
  rw [(callOp_eq h).2.2, goto_pc_self]
  rfl

theorem taskStep_moves {w' : World ι} (hi : Invariant w)
    (h : taskStep configCompat w t = some w') : Moves configCompat w t w' := by
  unfold taskStep at h
  cases hk : w.task t with
  | other => simp only [hk, reduceCtorEq] at h
  | entering r =>
    simp only [hk] at h
    obtain ⟨d, hd, rfl⟩ := Option.map_eq_some_iff.mp h
    exact moves_entering hi hk hd
  | lock r =>
    simp only [hk] at h
    by_cases hfree : w.lock = none
    · rw [if_pos hfree] at h
      exact Option.some.inj h ▸ moves_lock hi hk hfree
    · rw [if_neg hfree] at h
      cases h
  | body r =>
    simp only [hk] at h
    exact Option.some.inj h ▸ moves_body hi hk
  | wake r =>
    simp only [hk] at h
    exact Option.some.inj h ▸ moves_wake hi hk
  | unlock r mask =>
    simp only [hk] at h
    exact Option.some.inj h ▸ moves_unlock hi hk
  | leave r mask =>
    simp only [hk] at h
    obtain ⟨d, hd, rfl⟩ := Option.map_eq_some_iff.mp h
    exact moves_left hi hk hd
  | schedule fd events =>
    simp only [hk] at h
    by_cases htrig : w.wq.triggered t = true
    · rw [if_pos htrig] at h
      exact moves_again hi (by rw [hk]; rfl) h
    · rw [if_neg htrig] at h
      exact Option.some.inj h ▸ moves_schedule hi hk
  | asleep fd events =>
    simp only [hk] at h
    by_cases htrig : w.wq.triggered t = true
    · rw [if_pos htrig] at h
      exact moves_again hi (by rw [hk]; rfl) h
    · rw [if_neg htrig] at h
      cases h

/-- A step is one of the unregistration, or a thread moves. -/
theorem step_cases {a : Label ι} {w' : World ι} (hi : Invariant w)
    (h : step configCompat w a = some w') :
    (∃ m d, a = .dev (.unreg m) ∧ unregStep w.dev m = some d ∧ w' = { w with dev := d }) ∨
      ∃ t, Moves configCompat w t w' := by
  match a with
  | .dev (.unreg m) =>
    obtain ⟨d, hd, rfl⟩ := Option.map_eq_some_iff.mp h
    exact .inl ⟨m, d, rfl, hd, rfl⟩
  | .dev (.thread t m) =>
    simp only [step] at h
    by_cases hm : (w.task t).isOther = true ∧ w.plain m
    · rw [if_pos hm] at h
      obtain ⟨d, hd, rfl⟩ := Option.map_eq_some_iff.mp h
      have hk : w.task t = .other := by
        cases hk : w.task t <;> rw [hk] at hm <;> first | rfl | cases hm.1
      exact .inr ⟨t, moves_other hi hk hm.2 hd⟩
    · rw [if_neg hm] at h
      cases h
  | .call t op r =>
    simp only [step] at h
    by_cases hm : (w.task t).isOther = true ∧ r.fits op = true
    · rw [if_pos hm] at h
      obtain ⟨d, hd, rfl⟩ := Option.map_eq_some_iff.mp h
      have hk : w.task t = .other := by
        cases hk : w.task t <;> rw [hk] at hm <;> first | rfl | cases hm.1
      exact .inr ⟨t, moves_call hi hk hd⟩
    · rw [if_neg hm] at h
      cases h
  | .task t => exact .inr ⟨t, taskStep_moves hi h⟩
  | .interrupt t =>
    simp only [step] at h
    cases hk : w.task t <;> simp only [hk, reduceCtorEq] at h
    exact .inr ⟨t, moves_again hi (by rw [hk]; rfl) h⟩

theorem step_invariant (w : World ι) (a : Label ι) (w' : World ι) (hi : Invariant w)
    (h : step configCompat w a = some w') : Invariant w' := by
  rcases step_cases hi h with ⟨m, d, -, hd, rfl⟩ | ⟨t, hm⟩
  · have e := unregStep_effect hd
    refine ⟨e.counted hi.counted, fun t => ?_, fun t f hf => ?_, hi.locked, hi.queued, hi.covered⟩
    · rw [e.pc_eq]
      exact hi.stands t
    · rw [e.live_eq]
      exact hi.parked t f hf
  · exact hm.invariant hi

theorem reachable_invariant (h : Reachable (step configCompat) (init ι) w) : Invariant w :=
  run_invariant step_invariant invariant_init h

end Moves

end LinuxDriverFramework.NvChar.PollWakeups
