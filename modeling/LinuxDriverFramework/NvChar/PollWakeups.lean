import LinuxDriverFramework.NvChar.PollInvariant

/-! # The wake-ups that a poll of the demo device waits for

* `sleeper_leaves`: a sleeper with a message to read can be out of its sleep in two steps.
* `Deaf`, `Stuck`: `removing` is set and no wake-up is ahead of any thread.
* `sleeper_stays`: `nv_char_device_unregister` wakes nobody, so that a sleeper may keep its
  descriptor open for good. -/

namespace LinuxDriverFramework.NvChar.PollWakeups
open Foundations
open Interleaving hiding step init State
open Io hiding read write poll unlockedIoctl
set_option autoImplicit false

variable {ι : Type} [DecidableEq ι] [Fintype ι] {configCompat : Bool} {w : World ι} {t : ι}

/-! ## The way out of the sleep -/

variable (configCompat) in
theorem again_of_asleep {fd : ℕ} {events : UInt32} (hi : Invariant w)
    (hk : w.task t = .asleep fd events) (htrig : w.wq.triggered t = true) :
    ∃ w', step configCompat w (.task t) = some w' ∧
      w'.task t = .entering (.poll fd events false) := by
  have hs := hi.stands t
  have hlive := hi.parked t fd (by rw [hk]; rfl)
  rw [hk] at hs
  have hpc : w.dev.pc t = .idle := hs
  have hd : threadStep (demoOps configCompat) w.dev t (.callOp fd .poll) =
      some (w.dev.goto t (.gate fd .poll)) := by
    simp only [threadStep, hpc]
    exact if_pos hlive
  refine ⟨{ w with dev := w.dev.goto t (.gate fd .poll), wq := w.wq.consume t }.goto t
    (.entering (.poll fd events false)), ?_, Function.update_self _ _ _⟩
  simp only [step, taskStep, hk, htrig, if_true, World.again, hd]
  rfl

/-- A `poll(2)` that asked for a message and sleeps although there is one has been triggered, or
the writer of the message holds the lock and its next step is the wake-up; so two steps get it out
of its sleep. -/
theorem sleeper_leaves (configCompat : Bool) (w : World ι)
    (hw : Reachable (step configCompat) (init ι) w) (t : ι) (fd : ℕ) (events : UInt32)
    (hsleep : w.task t = .asleep fd events) (hin : events &&& pollInMask ≠ 0)
    (hread : w.readable) :
    (w.wq.triggered t = true ∨
      ∃ u r, w.task u = .wake r ∧ w.lock = some u) ∧
    ∃ acts w', acts.length ≤ 2 ∧ run (step configCompat) w acts = some w' ∧
      w'.task t = .entering (.poll fd events false) := by
  have hi := reachable_invariant hw
  have hwaits : (w.task t).waits := by
    rw [hsleep]
    exact hin
  obtain ⟨hq, hcov⟩ := hi.covered t hwaits
  by_cases htrig : w.wq.triggered t = true
  · obtain ⟨w', hw', hk⟩ := again_of_asleep configCompat hi hsleep htrig
    refine ⟨.inl htrig, [.task t], w', by simp, ?_, hk⟩
    rw [run_cons, hw']
    rfl
  · rcases hcov with h1 | h1 | ⟨u, hu⟩
    · exact absurd h1 htrig
    · exact absurd hread h1
    · obtain ⟨r, hr⟩ : ∃ r, w.task u = .wake r := by
        cases hk : w.task u <;> rw [hk] at hu <;> first | exact ⟨_, rfl⟩ | cases hu
      have hlock : w.lock = some u := by
        apply hi.locked u
        rw [hr] at hu ⊢
        cases r <;> first | rfl | cases hu
      have hut : t ≠ u := by
        rintro rfl
        rw [hr] at hsleep
        cases hsleep
      have hstep : step configCompat w (.task u) =
          some ({ w with wq := w.wq.wakeAll }.goto u r.afterWake) := by
        simp only [step, taskStep, hr]
      have hk₁ : ({ w with wq := w.wq.wakeAll }.goto u r.afterWake).task t =
          .asleep fd events := by
        rw [← hsleep]
        exact Function.update_of_ne hut _ _
      have htrig₁ : ({ w with wq := w.wq.wakeAll }.goto u r.afterWake).wq.triggered t = true := by
        change (w.wq.triggered t || w.wq.queued t) = true
        rw [hq, Bool.or_true]
      obtain ⟨w', hw', hk'⟩ :=
        again_of_asleep configCompat (step_invariant w _ _ hi hstep) hk₁ htrig₁
      refine ⟨.inr ⟨u, r, hr, hlock⟩, [.task u, .task t], w', by simp, ?_, hk'⟩
      rw [run_cons, hstep, Option.bind_some, run_cons, hw']
      rfl

def openFile (t : Fin 2) (fd : ℕ) : List (Label (Fin 2)) :=
  [Move.callOpen, .advance, .moduleGet true, .advance, .advance, .opsOpen true, .advance,
    .openReturn fd].map fun m => .dev (.thread t m)

/-- Thread 0 asks for a message, finds none and sleeps. -/
def pollSleeps : List (Label (Fin 2)) :=
  openFile 0 3 ++ .call 0 .poll (.poll 3 pollInMask false) :: List.replicate 7 (.task 0)

/-- Thread 1 has written a message and still holds the lock. -/
def writeUnderSleep : List (Label (Fin 2)) :=
  pollSleeps ++ openFile 1 4 ++ .call 1 .write (.write 4 (.user [104, 105]) 2 0) ::
    List.replicate 4 (.task 1)

theorem sleeper_leaves_writeUnderSleep :
    ∃ w acts w', run (step true) (init (Fin 2)) writeUnderSleep = some w ∧
      w.wq.triggered 0 = false ∧ acts.length ≤ 2 ∧ run (step true) w acts = some w' ∧
      w'.task 0 = .entering (.poll 3 pollInMask false) := by
  obtain ⟨w, hw, hsleep, htrig, hread⟩ :
      ∃ w, run (step true) (init (Fin 2)) writeUnderSleep = some w ∧
        w.task 0 = .asleep 3 pollInMask ∧ w.wq.triggered 0 = false ∧ w.readable :=
    ⟨_, rfl, rfl, rfl, _, rfl, rfl, by decide⟩
  obtain ⟨-, acts, w', hlen, hrun, hk⟩ :=
    sleeper_leaves true w ⟨_, hw⟩ 0 3 pollInMask hsleep (by decide) hread
  exact ⟨w, acts, w', hw, htrig, hlen, hrun, hk⟩

/-! ## Nobody to wake a sleeper -/

/-- The thread is past its gate and a wake-up may still be ahead of it. -/
def Task.wakeAhead (p : Pc) : Task → Bool
  | .entering r => r.wakes && p.inCallback
  | .lock r | .body r | .wake r => r.wakes
  | .unlock (.ioctl _ _ cmd _) _ => cmd == nvDemoIocClear
  | _ => false

/-- `removing` is set and all the threads that found it clear have done their wake-ups. -/
structure Deaf (w : World ι) : Prop where
  removing : w.dev.removing = true
  silent : ∀ u, (w.task u).wakeAhead (w.dev.pc u) = false

theorem start_silent {r : Request} {priv : Option DemoPriv} (p : Pc) (h : r.wakes = false) :
    (r.start priv).wakeAhead p = false := by
  unfold Request.start
  split
  · rfl
  · split
    · exact h
    · rfl

theorem removing_of_threadStep {ops : Option Ops} {s s' : Interleaving.State ι} {m : Move}
    (hfile : ∀ u f, (s.pc u).onFile = some f → f ∈ s.live)
    (h : threadStep ops s t m = some s') : s'.removing = s.removing :=
  (threadStep_effect hfile h).removing_eq

/-- Once `removing` is set no wrapper gets past its gate. -/
theorem inCallback_of_threadStep {ops : Option Ops} {s s' : Interleaving.State ι} {m : Move}
    (hfile : ∀ u f, (s.pc u).onFile = some f → f ∈ s.live) (hr : s.removing = true)
    (h : threadStep ops s t m = some s') (hcb : (s'.pc t).inCallback = true) :
    (s.pc t).inCallback = true := by
  rcases (threadStep_effect hfile h).callback hcb with hold | hclear
  · exact hold
  · rw [hr] at hclear
    cases hclear

theorem again_silent {fd : ℕ} {events : UInt32} {last : Bool} {w' : World ι} (hi : Invariant w)
    (hd : Deaf w) (h : w.again configCompat t fd events last = some w') :
    w'.dev.removing = true ∧ (w'.task t).wakeAhead (w'.dev.pc t) = false ∧
      w.wq.SameBut t w'.wq := by
  obtain ⟨d, hd', rfl⟩ := Option.map_eq_some_iff.mp h
  refine ⟨(removing_of_threadStep hi.counted.onFile hd').trans hd.removing, ?_,
    WaitQueue.sameBut_consume w.wq t⟩
  simp only [World.goto, Function.update_self]
  rfl

/-- The gate of a deaf device lets no thread past that owes a wake-up. -/
theorem entered_silent {r : Request} {d : Interleaving.State ι} (hi : Invariant w) (hd : Deaf w)
    (hk : w.task t = .entering r)
    (h : threadStep (demoOps configCompat) w.dev t .advance = some d) :
    (w.entered t r d).dev.removing = true ∧
      ((w.entered t r d).task t).wakeAhead ((w.entered t r d).dev.pc t) = false ∧
      w.wq.SameBut t (w.entered t r d).wq := by
  have hsil := hd.silent t
  have hrem := (removing_of_threadStep hi.counted.onFile h).trans hd.removing
  have hcb := inCallback_of_threadStep hi.counted.onFile hd.removing h
  rw [hk] at hsil
  rcases entered_cases w t r d with ⟨f, cb, hpc, q, hsame, -, heq⟩ | ⟨-, q, hsame, heq⟩ |
    ⟨-, heq⟩ <;> rw [heq]
  · have hwakes : r.wakes = false := by
      rw [hpc] at hcb
      have hin : (w.dev.pc t).inCallback = true := hcb rfl
      simpa [Task.wakeAhead, hin] using hsil
    refine ⟨hrem, ?_, hsame⟩
    simp only [World.goto, Function.update_self]
    exact start_silent _ hwakes
  · refine ⟨hrem, ?_, hsame⟩
    simp only [World.goto, Function.update_self]
    rfl
  · refine ⟨hrem, ?_, .refl t w.wq⟩
    simp only [hk, Task.wakeAhead, Bool.and_eq_false_iff] at hsil ⊢
    rcases hsil with hwakes | hout
    · exact .inl hwakes
    · right
      by_contra hin
      rw [hcb (by simpa using hin)] at hout
      cases hout

theorem left_silent {r : Request} {mask : UInt32} {d : Interleaving.State ι}
    (hi : Invariant w) (hd : Deaf w)
    (h : threadStep (demoOps configCompat) w.dev t .advance = some d) :
    (w.left t r mask d).dev.removing = true ∧
      ((w.left t r mask d).task t).wakeAhead ((w.left t r mask d).dev.pc t) = false ∧
      w.wq.SameBut t (w.left t r mask d).wq := by
  have hrem := (removing_of_threadStep hi.counted.onFile h).trans hd.removing
  cases r with
  | poll fd events last =>
    simp only [World.left]
    split
    · refine ⟨hrem, ?_, WaitQueue.sameBut_remove w.wq t⟩
      simp only [World.goto, Function.update_self]
      rfl
    · refine ⟨hrem, ?_, .refl t w.wq⟩
      simp only [World.goto, Function.update_self]
      rfl
  | _ =>
    refine ⟨hrem, ?_, .refl t w.wq⟩
    simp only [World.left, World.goto, Function.update_self]
    rfl

theorem taskStep_silent {w' : World ι} (hi : Invariant w) (hd : Deaf w)
    (h : taskStep configCompat w t = some w') :
    w'.dev.removing = true ∧ (w'.task t).wakeAhead (w'.dev.pc t) = false ∧
      w.wq.SameBut t w'.wq := by
  have hsil := hd.silent t
  have hs := hi.stands t
  unfold taskStep at h
  cases hk : w.task t with
  | other => simp only [hk, reduceCtorEq] at h
  | entering r =>
    simp only [hk] at h
    obtain ⟨d, hd', rfl⟩ := Option.map_eq_some_iff.mp h
    exact entered_silent hi hd hk hd'
  | lock r =>
    simp only [hk] at h hsil
    by_cases hfree : w.lock = none
    · rw [if_pos hfree] at h
      obtain rfl := Option.some.inj h
      refine ⟨hd.removing, ?_, .refl t w.wq⟩
      simp only [World.goto, Function.update_self]
      exact hsil
    · rw [if_neg hfree] at h
      cases h
  | body r =>
    simp only [hk] at h hsil
    obtain rfl := Option.some.inj h
    refine ⟨hd.removing, ?_, .refl t w.wq⟩
    simp only [World.goto, Function.update_self]
    cases r with
    | write => cases hsil
    | ioctl => exact hsil
    | _ => rfl
  | wake r =>
    -- the thread would owe a wake-up
    simp only [hk] at hsil hs
    have hwakes : r.wakes = true := hs.1
    have hnone : r.wakes = false := hsil
    rw [hwakes] at hnone
    cases hnone
  | unlock r mask =>
    simp only [hk] at h hsil
    obtain rfl := Option.some.inj h
    refine ⟨hd.removing, ?_, .refl t w.wq⟩
    simp only [World.goto, Function.update_self]
    cases r with
    | ioctl fd holds cmd arg =>
      have hcmd : cmd ≠ nvDemoIocClear := by simpa [Task.wakeAhead] using hsil
      rw [Request.afterUnlock, if_neg hcmd]
      rfl
    | _ => rfl
  | leave r mask =>
    simp only [hk] at h
    obtain ⟨d, hd', rfl⟩ := Option.map_eq_some_iff.mp h
    exact left_silent hi hd hd'
  | schedule fd events =>
    simp only [hk] at h
    by_cases htrig : w.wq.triggered t = true
    · rw [if_pos htrig] at h
      exact again_silent hi hd h
    · rw [if_neg htrig] at h
      obtain rfl := Option.some.inj h
      refine ⟨hd.removing, ?_, .refl t w.wq⟩
      simp only [World.goto, Function.update_self]
      rfl
  | asleep fd events =>
    simp only [hk] at h
    by_cases htrig : w.wq.triggered t = true
    · rw [if_pos htrig] at h
      exact again_silent hi hd h
    · rw [if_neg htrig] at h
      cases h

/-- What a step of thread `u` leaves of a deaf device, and the queue of the others. -/
theorem Deaf.of_step {w' : World ι} {u : ι} (hd : Deaf w) (hrem : w'.dev.removing = true)
    (hsil : (w'.task u).wakeAhead (w'.dev.pc u) = false) (m : Moves configCompat w u w') :
    Deaf w' where
  removing := hrem
  silent := by
    intro v
    by_cases hvu : v = u
    · rw [hvu]
      exact hsil
    · rw [m.task_other v hvu, m.pc_other v hvu]
      exact hd.silent v

/-- The thread sleeps, nothing has triggered it and nothing will. -/
structure Stuck (t : ι) (fd : ℕ) (events : UInt32) (w : World ι) : Prop where
  invariant : Invariant w
  deaf : Deaf w
  asleep : w.task t = .asleep fd events
  untriggered : w.wq.triggered t = false

theorem Stuck.of_moves {fd : ℕ} {events : UInt32} {u : ι} {w' : World ι}
    (hs : Stuck t fd events w) (hut : u ≠ t) (m : Moves configCompat w u w')
    (hd : w'.dev.removing = true ∧ (w'.task u).wakeAhead (w'.dev.pc u) = false ∧
      w.wq.SameBut u w'.wq) : Stuck t fd events w' where
  invariant := m.invariant hs.invariant
  deaf := hs.deaf.of_step hd.1 hd.2.1 m
  asleep := (m.task_other t hut.symm).trans hs.asleep
  untriggered := (hd.2.2 t hut.symm).2.trans hs.untriggered

omit [DecidableEq ι] [Fintype ι] in
theorem removing_of_unregStep {s s' : Interleaving.State ι} {m : UnregMove}
    (hr : s.removing = true) (h : unregStep s m = some s') : s'.removing = true := by
  unfold unregStep at h
  split at h
  all_goals try split at h
  all_goals simp only [Option.some.injEq, reduceCtorEq] at h
  all_goals subst h
  all_goals first | exact hr | rfl

theorem step_stuck {fd : ℕ} {events : UInt32} (w : World ι) (a : Label ι) (w' : World ι)
    (hs : Stuck t fd events w) (ha : a ≠ .interrupt t) (h : step configCompat w a = some w') :
    Stuck t fd events w' := by
  have hi := hs.invariant
  have hnotOther : (w.task t).isOther = false := by
    rw [hs.asleep]
    rfl
  match a with
  | .dev (.unreg m) =>
    obtain ⟨d, hd, rfl⟩ := Option.map_eq_some_iff.mp h
    refine ⟨step_invariant w _ _ hi h, ⟨removing_of_unregStep hs.deaf.removing hd, fun u => ?_⟩,
      hs.asleep, hs.untriggered⟩
    rw [(unregStep_effect hd).pc_eq]
    exact hs.deaf.silent u
  | .dev (.thread u m) =>
    simp only [step] at h
    by_cases hm : (w.task u).isOther = true ∧ w.plain m
    · rw [if_pos hm] at h
      obtain ⟨d, hd, rfl⟩ := Option.map_eq_some_iff.mp h
      have hk : w.task u = .other := by
        cases hk : w.task u <;> rw [hk] at hm <;> first | rfl | cases hm.1
      have hut : u ≠ t := by
        rintro rfl
        rw [hnotOther] at hm
        cases hm.1
      have hrem := (removing_of_threadStep hi.counted.onFile hd).trans hs.deaf.removing
      refine hs.of_moves hut (moves_other hi hk hm.2 hd) ⟨hrem, ?_, .refl u w.wq⟩
      simp only [hk]
      rfl
    · rw [if_neg hm] at h
      cases h
  | .call u op r =>
    simp only [step] at h
    by_cases hm : (w.task u).isOther = true ∧ r.fits op = true
    · rw [if_pos hm] at h
      obtain ⟨d, hd, rfl⟩ := Option.map_eq_some_iff.mp h
      have hk : w.task u = .other := by
        cases hk : w.task u <;> rw [hk] at hm <;> first | rfl | cases hm.1
      have hut : u ≠ t := by
        rintro rfl
        rw [hnotOther] at hm
        cases hm.1
      have hrem := (removing_of_threadStep hi.counted.onFile hd).trans hs.deaf.removing
      refine hs.of_moves hut (moves_call hi hk hd) ⟨hrem, ?_, WaitQueue.sameBut_consume w.wq u⟩
      -- the thread stands at its gate
      simp only [World.goto, Function.update_self, (callOp_eq hd).2.2, goto_pc_self]
      simp [Task.wakeAhead, Pc.inCallback]
    · rw [if_neg hm] at h
      cases h
  | .task u =>
    have hut : u ≠ t := by
      rintro rfl
      simp only [step, taskStep, hs.asleep, hs.untriggered, Bool.false_eq_true, if_false] at h
      cases h
    exact hs.of_moves hut (taskStep_moves hi h) (taskStep_silent hi hs.deaf h)
  | .interrupt u =>
    have hut : u ≠ t := fun hut => ha (congrArg Label.interrupt hut)
    simp only [step] at h
    cases hk : w.task u <;> simp only [hk, reduceCtorEq] at h
    exact hs.of_moves hut (moves_again hi (by rw [hk]; rfl) h) (again_silent hi hs.deaf h)

/-- Once `removing` is set and the threads past their gates have no wake-up left, a sleeping
`poll(2)` that is not triggered sleeps on in every continuation without a signal or a timeout of
its own. Its descriptor stays open, so that the wait of the unregistration cannot end through
`opens == 0`. -/
theorem sleeper_stays (configCompat : Bool) (w w' : World ι)
    (hw : Reachable (step configCompat) (init ι) w) (hremoving : w.dev.removing = true)
    (hsilent : ∀ u, (w.task u).wakeAhead (w.dev.pc u) = false) (t : ι) (fd : ℕ) (events : UInt32)
    (hsleep : w.task t = .asleep fd events) (htrig : w.wq.triggered t = false)
    (acts : List (Label ι)) (hacts : ∀ a ∈ acts, a ≠ .interrupt t)
    (hrun : run (step configCompat) w acts = some w') :
    w'.task t = .asleep fd events ∧ w'.wq.triggered t = false ∧ fd ∈ w'.dev.live ∧
      0 < w'.dev.opens ∧
      (w'.dev.unreg = .waitOpens → step configCompat w' (.dev (.unreg .advance)) = none) := by
  have hs : Stuck t fd events w := ⟨reachable_invariant hw, ⟨hremoving, hsilent⟩, hsleep, htrig⟩
  have hs' : Stuck t fd events w' :=
    run_along step_stuck acts w w' hs (along_of_labels hacts w) hrun
  have hlive : fd ∈ w'.dev.live := hs'.invariant.parked t fd (by rw [hs'.asleep]; rfl)
  have hopens : 0 < w'.dev.opens := by
    have hcount := hs'.invariant.counted.opens_eq
    have hcard : 0 < w'.dev.live.card := Finset.card_pos.mpr ⟨fd, hlive⟩
    omega
  refine ⟨hs'.asleep, hs'.untriggered, hlive, hopens, fun hwait => ?_⟩
  have hne : w'.dev.opens ≠ 0 := by omega
  simp only [step, unregStep, hwait, if_neg hne, Option.map_none]

/-- The unregistration sets `removing` over the sleeper. -/
def unregisterOverSleep : List (Label (Fin 2)) :=
  pollSleeps ++ [.dev (.unreg .call), .dev (.unreg .advance)]

theorem sleeper_stays_until_timeout :
    ∃ w w', run (step true) (init (Fin 2)) unregisterOverSleep = some w ∧
      run (step true) w [.dev (.unreg .advance), .dev (.unreg .timeout), .dev (.unreg .advance),
        .dev (.unreg .advance)] = some w' ∧
      w'.dev.unreg = .returned .timeout ∧ w'.task 0 = .asleep 3 pollInMask ∧ 0 < w'.dev.opens := by
  obtain ⟨w, w', hw, hremoving, hsleep, htrig, hidle, hrun, hret⟩ :
      ∃ w w', run (step true) (init (Fin 2)) unregisterOverSleep = some w ∧
        w.dev.removing = true ∧ w.task 0 = .asleep 3 pollInMask ∧ w.wq.triggered 0 = false ∧
        w.task 1 = .other ∧
        run (step true) w [.dev (.unreg .advance), .dev (.unreg .timeout), .dev (.unreg .advance),
          .dev (.unreg .advance)] = some w' ∧ w'.dev.unreg = .returned .timeout :=
    ⟨_, _, rfl, rfl, rfl, rfl, rfl, rfl, rfl⟩
  have hsilent : ∀ u, (w.task u).wakeAhead (w.dev.pc u) = false :=
    Fin.forall_fin_two.mpr ⟨congrArg (Task.wakeAhead (w.dev.pc 0)) hsleep,
      congrArg (Task.wakeAhead (w.dev.pc 1)) hidle⟩
  have hstays := sleeper_stays true w w' ⟨_, hw⟩ hremoving hsilent 0 3 pollInMask hsleep htrig _
    (by simp) hrun
  exact ⟨w, w', hw, hrun, hret, hstays.1, hstays.2.2.2.1⟩

end LinuxDriverFramework.NvChar.PollWakeups
