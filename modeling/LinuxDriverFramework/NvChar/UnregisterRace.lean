import LinuxDriverFramework.NvChar.InterleavingInvariant

/-! # What holds once `nv_char_device_unregister` has returned through `opens == 0`

* `Quiet`: no data-path callback is running or chosen. Every run keeps it: a callback under way
  sits on a counted descriptor, and later operations stop at the gate.
* `Closed`: `opens` is 0 and no thread is in the window between its second removing check and its
  increment. A run keeps it exactly when that window is empty at the moment the wait ends.
* `Tailless`: no thread has an access to the device left after its decrement of `opens`.
-/

namespace LinuxDriverFramework.NvChar.Interleaving
open Foundations
set_option autoImplicit false

variable {ι : Type} [DecidableEq ι] [Fintype ι] {ops : Option Ops}

/-- This step ends the wait of the unregistration through `opens == 0`. -/
def EndsWait (s : State ι) (a : Act ι) : Prop :=
  a = .unreg .advance ∧ s.unreg = .waitOpens ∧ s.opens = 0

instance (s : State ι) (a : Act ι) : Decidable (EndsWait s a) :=
  inferInstanceAs (Decidable (_ ∧ _ ∧ _))

def Quiet (s : State ι) : Prop :=
  s.unreg.leftAtZero = true → ∀ t, (s.pc t).inCallback = false

def Closed (s : State ι) : Prop :=
  s.unreg.leftAtZero = true → s.opens = 0 ∧ ∀ t, s.pc t ≠ .incOpens

def Tailless (s : State ι) : Prop :=
  s.unreg.leftAtZero = true → ∀ t, (s.pc t).pastDec = false

omit [DecidableEq ι] in
theorem Counted.removing_of_leftAtZero {s : State ι} (hc : Counted s)
    (h : s.unreg.leftAtZero = true) : s.removing = true := by
  apply hc.removing
  cases hu : s.unreg <;> simp_all [UnregPc.leftAtZero, UnregPc.pastSet]

omit [DecidableEq ι] [Fintype ι] in
theorem Pc.inCallback_onFile {p : Pc} (h : p.inCallback = true) : ∃ f, p.onFile = some f := by
  cases p with
  | chosen f o => exact ⟨f, rfl⟩
  | running f cb => exact ⟨f, rfl⟩
  | _ => exact absurd h (by simp [Pc.inCallback])

omit [DecidableEq ι] [Fintype ι] in
theorem Pc.counted_eq_zero_or_one (p : Pc) : p.counted = 0 ∨ p.counted = 1 := by
  cases p <;> simp [Pc.counted]

/-! ## No callback after the return -/

theorem step_quiet (s : State ι) (a : Act ι) (s' : State ι) (hc : Counted s) (hq : Quiet s)
    (h : step ops s a = some s') : Quiet s' := by
  intro hz u
  cases a with
  | thread t m =>
    have e := threadStep_effect hc.onFile h
    rw [e.unreg_eq] at hz
    by_cases hu : u = t
    · subst hu
      by_contra hcb
      rcases e.callback (by simpa using hcb) with hold | hr
      · exact absurd hold (by simp [hq hz u])
      · exact absurd hr (by simp [hc.removing_of_leftAtZero hz])
    · rw [e.pc_other u hu]
      exact hq hz u
  | unreg m =>
    have e := unregStep_effect h
    rw [e.pc_eq]
    rcases e.leaves hz with hold | ⟨_, h0⟩
    · exact hq hold u
    · -- nothing is live, so no operation is under way
      by_contra hcb
      obtain ⟨f, hf⟩ := Pc.inCallback_onFile (p := s.pc u) (by simpa using hcb)
      rw [hc.onFile_none h0 u] at hf
      cases hf

theorem reachable_quiet {s : State ι} (h : Reachable (step ops) (init ι) s) : Quiet s := by
  have hstep : ∀ (s : State ι) (a : Act ι) (s' : State ι), Counted s ∧ Quiet s →
      step ops s a = some s' → Counted s' ∧ Quiet s' := fun s a s' hi hs =>
    ⟨step_counted s a s' hi.1 hs, step_quiet s a s' hi.1 hi.2 hs⟩
  have hinit : Counted (init ι) ∧ Quiet (init ι) :=
    ⟨counted_init, fun hz => absurd hz (by simp [init, UnregPc.leftAtZero])⟩
  exact (run_invariant hstep hinit h).2

/-- After the return through `opens == 0` no data-path callback runs and none starts. -/
theorem no_callback_after_unregister (ops : Option Ops) (s : State ι)
    (h : Reachable (step ops) (init ι) s) (hret : s.unreg = .returned .opensZero) :
    (∀ t f cb, s.pc t ≠ .running f cb) ∧
    ∀ t m s', step ops s (.thread t m) = some s' → ∀ f cb, s'.pc t ≠ .running f cb := by
  have hnone : ∀ s : State ι, Reachable (step ops) (init ι) s → s.unreg = .returned .opensZero →
      ∀ t f cb, s.pc t ≠ .running f cb := by
    intro s hs hr t f cb hpc
    have hq := reachable_quiet hs (by rw [hr]; rfl) t
    rw [hpc] at hq
    cases hq
  refine ⟨hnone s h hret, fun t m s' hs => ?_⟩
  have hs' : s'.unreg = .returned .opensZero :=
    (threadStep_effect (reachable_counted h).onFile hs).unreg_eq.trans hret
  exact hnone s' (h.tail _ hs) hs' t

/-- One thread opens, starts a read, finishes it and closes; then the device is unregistered. -/
def useThenUnregister : List (Act (Fin 1)) :=
  [.thread 0 .callOpen, .thread 0 .advance, .thread 0 (.moduleGet true), .thread 0 .advance,
    .thread 0 .advance, .thread 0 (.opsOpen true), .thread 0 .advance, .thread 0 (.openReturn 3),
    .thread 0 (.callOp 3 .read), .thread 0 .advance, .unreg .call, .unreg .advance,
    .thread 0 .advance, .thread 0 .advance, .thread 0 (.callRelease 3), .thread 0 .advance,
    .thread 0 .advance, .thread 0 .advance, .thread 0 .advance, .thread 0 .advance,
    .thread 0 .advance, .thread 0 .advance, .unreg .advance, .unreg .advance, .unreg .advance,
    .unreg .advance]

theorem no_callback_after_use_then_unregister :
    ∃ s, run (step (some fun _ => true)) (init (Fin 1)) useThenUnregister = some s ∧
      s.unreg = .returned .opensZero ∧ ∀ t f cb, s.pc t ≠ .running f cb := by
  obtain ⟨s, hs, hret⟩ : ∃ s, run (step (some fun _ => true)) (init (Fin 1)) useThenUnregister =
      some s ∧ s.unreg = .returned .opensZero := ⟨_, rfl, rfl⟩
  exact ⟨s, hs, hret, (no_callback_after_unregister _ s ⟨_, hs⟩ hret).1⟩

/-! ## The window before the increment -/

/-- When the wait ends through `opens == 0`, no thread stands between its second removing check
and its increment of `opens`. -/
def WindowEmpty (s : State ι) (a : Act ι) : Prop :=
  EndsWait s a → ∀ t, s.pc t ≠ .incOpens

instance (s : State ι) (a : Act ι) : Decidable (WindowEmpty s a) :=
  inferInstanceAs (Decidable (EndsWait s a → ∀ t, s.pc t ≠ .incOpens))

theorem step_closed (s : State ι) (a : Act ι) (s' : State ι) (hc : Counted s) (hcl : Closed s)
    (hw : WindowEmpty s a) (h : step ops s a = some s') : Closed s' := by
  intro hz
  cases a with
  | thread t m =>
    have e := threadStep_effect hc.onFile h
    rw [e.unreg_eq] at hz
    obtain ⟨h0, hwin⟩ := hcl hz
    have hold := hc.counted_zero h0 t
    have hlive := hc.live_empty h0
    have hlive' : s'.live = ∅ := by
      rw [Finset.eq_empty_iff_forall_notMem]
      intro f hf
      rcases e.added f hf with hm | hm
      · rw [hlive] at hm
        exact Finset.notMem_empty f hm
      · omega
    have hnew : (s'.pc t).counted = 0 := by
      rcases Pc.counted_eq_zero_or_one (s'.pc t) with hn | hn
      · exact hn
      · rcases e.enters hn with h1 | h1 | h1
        · omega
        · exact absurd h1 (hwin t)
        · exact absurd hlive h1.ne_empty
    have hbal := e.balance
    rw [hlive, hlive', hold, hnew, h0] at hbal
    refine ⟨by simpa using hbal, fun u hu => ?_⟩
    by_cases hut : u = t
    · subst hut
      exact absurd (e.window hu) (by simp [hc.removing_of_leftAtZero hz])
    · rw [e.pc_other u hut] at hu
      exact hwin u hu
  | unreg m =>
    have e := unregStep_effect h
    rw [e.opens_eq, e.pc_eq]
    rcases e.leaves hz with hold | ⟨hwait, h0⟩
    · exact hcl hold
    · refine ⟨h0, hw ⟨?_, hwait, h0⟩⟩
      cases m with
      | advance => rfl
      | call => exact absurd h (by simp [step, unregStep, hwait])
      | timeout => exact absurd h (by simp [step, unregStep, hwait, h0])

/-- What the unregistration is to guarantee from its return on: `opens` is 0 and no
`nv_char_open` of the device returns success. -/
def NoOpener (ops : Option Ops) (s : State ι) : Prop :=
  s.opens = 0 ∧ ∀ t f, step ops s (.thread t (.openReturn f)) = none

theorem noOpener_of_opens_zero {s : State ι} (hc : Counted s) (h0 : s.opens = 0) :
    NoOpener ops s := by
  refine ⟨h0, fun t f => ?_⟩
  have hold := hc.counted_zero h0 t
  cases hpc : s.pc t <;> simp_all [step, threadStep, Pc.counted]

theorem closed_run (acts : List (Act ι)) (s : State ι)
    (hw : Along (step ops) WindowEmpty (init ι) acts)
    (hr : run (step ops) (init ι) acts = some s) : Closed s := by
  have hstep : ∀ (s : State ι) (a : Act ι) (s' : State ι), Counted s ∧ Closed s →
      WindowEmpty s a → step ops s a = some s' → Counted s' ∧ Closed s' :=
    fun s a s' hi hg hs => ⟨step_counted s a s' hi.1 hs, step_closed s a s' hi.1 hi.2 hg hs⟩
  have hinit : Counted (init ι) ∧ Closed (init ι) :=
    ⟨counted_init, fun hz => absurd hz (by simp [init, UnregPc.leftAtZero])⟩
  exact (run_along hstep acts (init ι) s hinit hw hr).2

/-! ## From the end of the wait to the return -/

/-- The state after `cdev_del` and the clearing of `registered`, nothing else having moved. -/
def State.afterWait (s : State ι) : State ι :=
  { s with cdevAdded := false, registered := false, unreg := .returned .opensZero }

omit [DecidableEq ι] [Fintype ι] in
theorem unregStep_endsWait {s s₁ : State ι} (hwait : s.unreg = .waitOpens) (h0 : s.opens = 0)
    (h : unregStep s .advance = some s₁) : s₁ = { s with unreg := .cdevDel .opensZero } := by
  simp only [unregStep, hwait] at h
  rw [if_pos h0] at h
  exact (Option.some.inj h).symm

theorem reachable_afterWait {s s₁ : State ι} (hwait : s.unreg = .waitOpens) (h0 : s.opens = 0)
    (h : step ops s (.unreg .advance) = some s₁) : Reachable (step ops) s₁ s.afterWait := by
  rw [unregStep_endsWait hwait h0 h]
  exact ⟨[.unreg .advance, .unreg .advance], rfl⟩

theorem step_leftAtZero {s s' : State ι} {a : Act ι} (hc : Counted s)
    (hz : s.unreg.leftAtZero = true) (h : step ops s a = some s') :
    s'.unreg.leftAtZero = true ∧ WindowEmpty s a := by
  constructor
  · cases a with
    | thread t m => rw [(threadStep_effect hc.onFile h).unreg_eq]; exact hz
    | unreg m => exact (unregStep_effect h).stays hz
  · rintro ⟨_, hwait, _⟩
    rw [hwait] at hz
    cases hz

/-- From a state past the wait with nobody in the window, every later state is closed. -/
theorem reachable_closed {s₁ s : State ι} (hc : Counted s₁) (hz : s₁.unreg.leftAtZero = true)
    (hcl : Closed s₁) (h : Reachable (step ops) s₁ s) : Counted s ∧ Closed s := by
  have hstep : ∀ (s : State ι) (a : Act ι) (s' : State ι),
      Counted s ∧ s.unreg.leftAtZero = true ∧ Closed s → step ops s a = some s' →
      Counted s' ∧ s'.unreg.leftAtZero = true ∧ Closed s' := by
    rintro s a s' ⟨hc, hz, hcl⟩ hs
    obtain ⟨hz', hw⟩ := step_leftAtZero hc hz hs
    exact ⟨step_counted s a s' hc hs, hz', step_closed s a s' hc hcl hw hs⟩
  have hi := run_invariant hstep ⟨hc, hz, hcl⟩ h
  exact ⟨hi.1, hi.2.2⟩

/-- The guarantee of `nv_char_device_unregister` holds in every run that meets `WindowEmpty`, and
at the end of the wait an empty window is exactly what all continuations need. -/
theorem no_opener_iff_window_empty (ops : Option Ops) :
    (∀ (acts : List (Act ι)) (s : State ι), Along (step ops) WindowEmpty (init ι) acts →
      run (step ops) (init ι) acts = some s → s.unreg = .returned .opensZero → NoOpener ops s) ∧
    ∀ (s s₁ : State ι) (a : Act ι), Reachable (step ops) (init ι) s → EndsWait s a →
      step ops s a = some s₁ →
      ((∀ s', Reachable (step ops) s₁ s' → s'.unreg = .returned .opensZero → NoOpener ops s') ↔
        ∀ t, s.pc t ≠ .incOpens) := by
  constructor
  · intro acts s hw hr hret
    have h0 := (closed_run acts s hw hr (by rw [hret]; rfl)).1
    exact noOpener_of_opens_zero (reachable_counted ⟨acts, hr⟩) h0
  · intro s s₁ a hs hend hstep
    obtain ⟨rfl, hwait, h0⟩ := hend
    have hc := reachable_counted hs
    have hs₁ := unregStep_endsWait hwait h0 hstep
    constructor
    · -- the thread in the window increments after the return
      intro hall t hpc
      have hopen : Reachable (step ops) s.afterWait
          ({ s.afterWait with opens := s.opens + 1 }.goto t .opsOpen) := by
        refine ⟨[.thread t .advance], ?_⟩
        have hpc' : s.afterWait.pc t = .incOpens := hpc
        simp only [run_cons, step, threadStep, hpc']
        rfl
      obtain ⟨acts, hacts⟩ := hopen
      have hno := hall _ ((reachable_afterWait hwait h0 hstep).run acts hacts) rfl
      have hone : s.opens + 1 = 0 := hno.1
      omega
    · intro hwin s' hs' hret
      have hcl : Closed s₁ := by
        intro _
        rw [hs₁]
        exact ⟨h0, hwin⟩
      have hz : s₁.unreg.leftAtZero = true := by rw [hs₁]; rfl
      obtain ⟨hc', hcl'⟩ := reachable_closed (step_counted s _ s₁ hc hstep) hz hcl hs'
      exact noOpener_of_opens_zero hc' (hcl' (by rw [hret]; rfl)).1

/-- A thread passes both removing checks, the unregistration runs from its call to its return, and
then the thread increments `opens` and its `nv_char_open` returns 0. -/
def openInWindow : List (Act (Fin 1)) :=
  [.thread 0 .callOpen, .thread 0 .advance, .thread 0 (.moduleGet true), .thread 0 .advance,
    .unreg .call, .unreg .advance, .unreg .advance, .unreg .advance, .unreg .advance,
    .unreg .advance,
    .thread 0 .advance, .thread 0 (.opsOpen true), .thread 0 .advance, .thread 0 (.openReturn 3)]

theorem open_succeeds_after_unregister :
    ¬ ∀ (n : ℕ) (ops : Option Ops) (acts : List (Act (Fin n))) (s : State (Fin n)),
      run (step ops) (init (Fin n)) acts = some s → s.unreg = .returned .opensZero →
      NoOpener ops s := by
  intro hall
  obtain ⟨s, hs, hret, hopens⟩ : ∃ s, run (step none) (init (Fin 1)) openInWindow = some s ∧
      s.unreg = .returned .opensZero ∧ s.opens = 1 := ⟨_, rfl, rfl, rfl⟩
  have h0 := (hall 1 none openInWindow s hs hret).1
  rw [hopens] at h0
  exact absurd h0 (by decide)

/-- The same open, started after `removing` was set, is turned away and the window stays empty. -/
def openAfterRemoving : List (Act (Fin 1)) :=
  [.unreg .call, .unreg .advance, .thread 0 .callOpen, .thread 0 .advance, .unreg .advance,
    .unreg .advance, .unreg .advance, .unreg .advance]

theorem no_opener_after_removing :
    Along (step none) WindowEmpty (init (Fin 1)) openAfterRemoving ∧
    ∃ s, run (step none) (init (Fin 1)) openAfterRemoving = some s ∧ NoOpener none s := by
  obtain ⟨s, hs, hret⟩ : ∃ s, run (step none) (init (Fin 1)) openAfterRemoving = some s ∧
      s.unreg = .returned .opensZero := ⟨_, rfl, rfl⟩
  have hw : Along (step none) WindowEmpty (init (Fin 1)) openAfterRemoving := by decide
  exact ⟨hw, s, hs, (no_opener_iff_window_empty none).1 _ s hw hs hret⟩

/-! ## Accesses after the decrement -/

/-- When the wait ends through `opens == 0`, no thread has still to increment `opens`, and none
that has decremented it still has to wake the waiters or to read the fields of its tracepoint. -/
def TailEmpty (s : State ι) (a : Act ι) : Prop :=
  EndsWait s a → ∀ t, s.pc t ≠ .incOpens ∧ (s.pc t).pastDec = false

instance (s : State ι) (a : Act ι) : Decidable (TailEmpty s a) :=
  inferInstanceAs (Decidable (EndsWait s a → ∀ t, s.pc t ≠ .incOpens ∧ (s.pc t).pastDec = false))

/-- No thread inside `nv_char_release` or `nv_char_release_open` is about to use the device. -/
def NoDevAccess (s : State ι) : Prop :=
  ∀ t, (s.pc t).devAccess = none

theorem step_tailless (s : State ι) (a : Act ι) (s' : State ι) (hc : Counted s) (hcl : Closed s)
    (ht : Tailless s) (hg : TailEmpty s a) (h : step ops s a = some s') : Tailless s' := by
  intro hz u
  cases a with
  | thread t m =>
    have e := threadStep_effect hc.onFile h
    rw [e.unreg_eq] at hz
    by_cases hu : u = t
    · subst hu
      by_contra hp
      rcases e.tail (by simpa using hp) with hold | hold
      · exact absurd hold (by simp [ht hz u])
      · have hzero := hc.counted_zero (hcl hz).1 u
        omega
    · rw [e.pc_other u hu]
      exact ht hz u
  | unreg m =>
    have e := unregStep_effect h
    rw [e.pc_eq]
    rcases e.leaves hz with hold | ⟨hwait, h0⟩
    · exact ht hold u
    · refine (hg ⟨?_, hwait, h0⟩ u).2
      cases m with
      | advance => rfl
      | call => exact absurd h (by simp [step, unregStep, hwait])
      | timeout => exact absurd h (by simp [step, unregStep, hwait, h0])

omit [DecidableEq ι] in
theorem noDevAccess_of_tailless {s : State ι} (hc : Counted s) (hcl : Closed s) (ht : Tailless s)
    (hz : s.unreg.leftAtZero = true) : NoDevAccess s := by
  intro t
  cases hacc : (s.pc t).devAccess with
  | none => rfl
  | some x =>
    have hzero := hc.counted_zero (hcl hz).1 t
    rcases Pc.devAccess_pastDec_or_counted hacc with hp | hp
    · exact absurd hp (by simp [ht hz t])
    · omega

/-- The three facts that guarded steps carry to every state after the wait. -/
structure Released (s : State ι) : Prop where
  counted : Counted s
  closed : Closed s
  tailless : Tailless s

theorem step_released (s : State ι) (a : Act ι) (s' : State ι) (hi : Released s)
    (hg : TailEmpty s a) (h : step ops s a = some s') : Released s' where
  counted := step_counted s a s' hi.counted h
  closed := step_closed s a s' hi.counted hi.closed (fun he t => (hg he t).1) h
  tailless := step_tailless s a s' hi.counted hi.closed hi.tailless hg h

omit [DecidableEq ι] in
theorem released_init : Released (init ι) where
  counted := counted_init
  closed := fun hz => absurd hz (by simp [init, UnregPc.leftAtZero])
  tailless := fun hz => absurd hz (by simp [init, UnregPc.leftAtZero])

/-- A thread that is past its decrement when the unregistration returns goes on to use the
device, at once or after putting the module. -/
theorem devAccess_of_pastDec (ops : Option Ops) {s : State ι} {t : ι}
    (h : (s.pc t).pastDec = true) :
    ∃ s', Reachable (step ops) s s' ∧ s'.unreg = s.unreg ∧ (s'.pc t).devAccess ≠ none := by
  cases hpc : s.pc t with
  | modulePut c =>
    cases c with
    | openFailed => rw [hpc] at h; cases h
    | release =>
      refine ⟨{ s with moduleRefs := s.moduleRefs - 1 }.goto t .traceDevt,
        ⟨[.thread t .advance], ?_⟩, rfl, by rw [goto_pc_self]; simp [Pc.devAccess]⟩
      simp only [run_cons, step, threadStep, hpc]
      rfl
  | wakeUp c => exact ⟨s, .refl s, rfl, by rw [hpc]; simp [Pc.devAccess]⟩
  | traceDevt => exact ⟨s, .refl s, rfl, by rw [hpc]; simp [Pc.devAccess]⟩
  | traceOpens => exact ⟨s, .refl s, rfl, by rw [hpc]; simp [Pc.devAccess]⟩
  | _ => rw [hpc] at h; cases h

/-- A thread that is in the window when the unregistration returns gets its descriptor, and its
close goes through the device. -/
theorem devAccess_of_window (ops : Option Ops) {s : State ι} {t : ι} (hlive : s.live = ∅) (hpc : s.pc t = .incOpens)
    (hfile : ∀ u, (s.pc u).onFile = none) :
    ∃ s', Reachable (step ops) s s' ∧ s'.unreg = s.unreg ∧ (s'.pc t).devAccess ≠ none := by
  let s₁ := { s with opens := s.opens + 1 }.goto t .opsOpen
  let s₂ := s₁.goto t .traceOpen
  let s₃ := s₂.goto t .openReturn
  let s₄ := { s₃ with live := insert 0 s₃.live }.goto t .idle
  let s₅ := { s₄ with live := s₄.live.erase 0 }.goto t .opsRelease
  have h₁ : step ops s (.thread t .advance) = some s₁ := by simp only [step, threadStep, hpc]; rfl
  have h₂ : step ops s₁ (.thread t (.opsOpen true)) = some s₂ := by
    simp only [step, threadStep, s₁, goto_pc_self]; rfl
  have h₃ : step ops s₂ (.thread t .advance) = some s₃ := by
    simp only [step, threadStep, s₂, goto_pc_self]; rfl
  have h₄ : step ops s₃ (.thread t (.openReturn 0)) = some s₄ := by
    have hfresh : 0 ∉ s₃.live := by
      change 0 ∉ s.live
      rw [hlive]
      exact Finset.notMem_empty 0
    simp only [step, threadStep, s₃, goto_pc_self] at hfresh ⊢
    exact if_neg hfresh
  have h₅ : step ops s₄ (.thread t (.callRelease 0)) = some s₅ := by
    have hmem : 0 ∈ s₄.live := Finset.mem_insert_self 0 _
    have hfree : ∀ u, (s₄.pc u).onFile ≠ some 0 := by
      intro u
      by_cases hu : u = t
      · subst hu
        simp [s₄, Pc.onFile]
      · have hsame : s₄.pc u = s.pc u := by
          simp only [s₄, s₃, s₂, s₁, goto_pc_other _ _ hu]
        rw [hsame, hfile u]
        exact fun h => by cases h
    have hidle : s₄.pc t = .idle := goto_pc_self _ _ _
    simp only [step, threadStep, hidle]
    exact if_pos ⟨hmem, hfree⟩
  refine ⟨s₅, ?_, rfl, by rw [goto_pc_self]; simp [Pc.devAccess]⟩
  exact ((((Reachable.refl s).tail _ h₁).tail _ h₂).tail _ h₃).tail _ h₄ |>.tail _ h₅

/-- Runs that meet `TailEmpty` never touch the device from a release once the unregistration has
returned through `opens == 0`, and at the end of the wait the condition is exactly what all
continuations need. -/
theorem no_dev_access_iff_tail_empty (ops : Option Ops) :
    (∀ (acts : List (Act ι)) (s : State ι), Along (step ops) TailEmpty (init ι) acts →
      run (step ops) (init ι) acts = some s → s.unreg = .returned .opensZero → NoDevAccess s) ∧
    ∀ (s s₁ : State ι) (a : Act ι), Reachable (step ops) (init ι) s → EndsWait s a →
      step ops s a = some s₁ →
      ((∀ s', Reachable (step ops) s₁ s' → s'.unreg = .returned .opensZero → NoDevAccess s') ↔
        ∀ t, s.pc t ≠ .incOpens ∧ (s.pc t).pastDec = false) := by
  constructor
  · intro acts s hg hr hret
    have hi := run_along step_released acts (init ι) s released_init hg hr
    exact noDevAccess_of_tailless hi.counted hi.closed hi.tailless (by rw [hret]; rfl)
  · intro s s₁ a hs hend hstep
    obtain ⟨rfl, hwait, h0⟩ := hend
    have hc := reachable_counted hs
    have hs₁ := unregStep_endsWait hwait h0 hstep
    have hret := reachable_afterWait hwait h0 hstep
    constructor
    · intro hall t
      -- whatever thread `t` still does to the device, it can do after the return
      have hno : ∀ s', Reachable (step ops) s.afterWait s' → s'.unreg = s.afterWait.unreg →
          (s'.pc t).devAccess = none := by
        rintro s' ⟨acts, hacts⟩ hu
        exact hall s' (hret.run acts hacts) hu t
      constructor
      · intro hpc
        obtain ⟨s', hr', hu', hacc⟩ := devAccess_of_window (s := s.afterWait) ops
          (hc.live_empty h0) hpc (hc.onFile_none h0)
        exact hacc (hno s' hr' hu')
      · by_contra hp
        have hp' : (s.pc t).pastDec = true := by simpa using hp
        obtain ⟨s', hr', hu', hacc⟩ := devAccess_of_pastDec (s := s.afterWait) ops hp'
        exact hacc (hno s' hr' hu')
    · intro hg s' hs' hret'
      have hstep' : ∀ (s : State ι) (a : Act ι) (s' : State ι),
          Released s ∧ s.unreg.leftAtZero = true → step ops s a = some s' →
          Released s' ∧ s'.unreg.leftAtZero = true := by
        rintro s a s' ⟨hi, hz⟩ hs
        have hg' : TailEmpty s a := fun he => by
          obtain ⟨_, hw, _⟩ := he
          rw [hw] at hz
          cases hz
        exact ⟨step_released s a s' hi hg' hs, (step_leftAtZero hi.counted hz hs).1⟩
      have hz : s₁.unreg.leftAtZero = true := by rw [hs₁]; rfl
      have hi₁ : Released s₁ := by
        refine ⟨step_counted s _ s₁ hc hstep, ?_, ?_⟩ <;> rw [hs₁] <;> intro _
        · exact ⟨h0, fun t => (hg t).1⟩
        · exact fun t => (hg t).2
      obtain ⟨hi, hz'⟩ := run_invariant hstep' ⟨hi₁, hz⟩ hs'
      exact noDevAccess_of_tailless hi.counted hi.closed hi.tailless hz'

/-- The last close decrements `opens` to 0, the unregistration looks at the condition before it is
woken and returns, and only then the closing thread wakes `release_wq`. -/
def closeOvertaken : List (Act (Fin 1)) :=
  [.thread 0 .callOpen, .thread 0 .advance, .thread 0 (.moduleGet true), .thread 0 .advance,
    .thread 0 .advance, .thread 0 (.opsOpen true), .thread 0 .advance, .thread 0 (.openReturn 3),
    .unreg .call, .unreg .advance, .unreg .advance,
    .thread 0 (.callRelease 3), .thread 0 .advance, .thread 0 .advance, .thread 0 .advance,
    .unreg .advance, .unreg .advance, .unreg .advance]

theorem dev_access_after_unregister :
    ¬ ∀ (n : ℕ) (ops : Option Ops) (acts : List (Act (Fin n))) (s : State (Fin n)),
      run (step ops) (init (Fin n)) acts = some s → s.unreg = .returned .opensZero →
      NoDevAccess s := by
  intro hall
  obtain ⟨s, hs, hret, hacc⟩ : ∃ s, run (step none) (init (Fin 1)) closeOvertaken = some s ∧
      s.unreg = .returned .opensZero ∧ (s.pc 0).devAccess = some .releaseWq := ⟨_, rfl, rfl, rfl⟩
  have hno := hall 1 none closeOvertaken s hs hret 0
  rw [hacc] at hno
  cases hno

theorem no_dev_access_after_use_then_unregister :
    Along (step (some fun _ => true)) TailEmpty (init (Fin 1)) useThenUnregister ∧
    ∃ s, run (step (some fun _ => true)) (init (Fin 1)) useThenUnregister = some s ∧
      NoDevAccess s := by
  obtain ⟨s, hs, hret⟩ : ∃ s, run (step (some fun _ => true)) (init (Fin 1)) useThenUnregister =
      some s ∧ s.unreg = .returned .opensZero := ⟨_, rfl, rfl⟩
  have hg : Along (step (some fun _ => true)) TailEmpty (init (Fin 1)) useThenUnregister := by
    decide
  exact ⟨hg, s, hs, (no_dev_access_iff_tail_empty _).1 _ s hg hs hret⟩

end LinuxDriverFramework.NvChar.Interleaving
