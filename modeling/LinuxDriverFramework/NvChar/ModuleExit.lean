import LinuxDriverFramework.NvChar.UnregisterRace

/-! # The unregistration in a module's exit function

The modules that own a device unregister it in their exit function. The kernel runs that function
only when nobody holds a reference to the module, and hands out no reference from then on.

* `ModuleExit`: the runs in which the unregistration is called that way.
* `RefCounted`: the references are those of the threads inside the driver and of the live
  descriptors.
* `Left`: nobody holds a reference any more, which guarded runs keep from the call on.
* `CdevExit`: the runs with the reference to `cdev.owner`, which the kernel takes before
  `nv_char_open` and gives back after `nv_char_release`.
* `module_exit`: what the exit function finds, and the tracepoint that may outlive it. -/

namespace LinuxDriverFramework.NvChar.Interleaving
open Foundations
set_option autoImplicit false

variable {ι : Type} [DecidableEq ι] {ops : Option Ops}

/-- 1 from `try_module_get` to `module_put`, while the descriptor is not `live`. -/
def Pc.holdsRef : Pc → ℕ
  | .secondCheck | .modulePutBack | .incOpens => 1
  | .opsOpen | .traceOpen | .openReturn | .opsRelease => 1
  | .readOwner _ | .decOpens _ | .wakeUp _ | .modulePut _ => 1
  | _ => 0

/-- The tracepoint of `nv_char_release` reads the device after `module_put`. -/
def Pc.tracing : Pc → Bool
  | .traceDevt | .traceOpens => true
  | _ => false

/-- The exit function is called without references to the module, and none is given out later. -/
def ModuleExit (s : State ι) : Act ι → Prop
  | .unreg .call => s.moduleRefs = 0
  | .thread _ (.moduleGet true) => s.unreg = .notCalled
  | _ => True

instance (s : State ι) (a : Act ι) : Decidable (ModuleExit s a) := by
  unfold ModuleExit
  split <;> infer_instance

/-- `chrdev_open` takes its reference to the module before it calls `nv_char_open`, and `__fput`
puts it after `nv_char_release`: a thread inside the driver and a descriptor hold one. -/
def CdevExit (s : State ι) : Act ι → Prop
  | .unreg .call => (∀ t, s.pc t = .idle) ∧ s.live = ∅
  | .thread _ .callOpen => s.unreg = .notCalled
  | _ => True

/-! ## Counting the references -/

variable [Fintype ι]

theorem threadStep_refs {s s' : State ι} {t : ι} {m : Move}
    (h : threadStep ops s t m = some s') :
    s'.moduleRefs - s'.live.card - (s'.pc t).holdsRef =
      s.moduleRefs - s.live.card - (s.pc t).holdsRef := by
  unfold threadStep at h
  split at h <;> rename_i hpc
  all_goals try split at h
  all_goals simp only [Option.some.injEq, reduceCtorEq] at h
  all_goals subst h
  all_goals simp only [hpc, State.goto, Function.update_self]
  case h_11.isFalse hf =>
    -- the reference passes to the descriptor
    simp only [Finset.card_insert_of_notMem hf, Pc.holdsRef]
    omega
  case h_17.isTrue hf =>
    have hcard : 0 < s.live.card := Finset.card_pos.mpr ⟨_, hf.1⟩
    simp only [Finset.card_erase_of_mem hf.1, Pc.holdsRef]
    omega
  all_goals simp only [Pc.holdsRef]
  all_goals omega

structure RefCounted (s : State ι) : Prop where
  counted : Counted s
  refs_eq : s.moduleRefs = ((tally Pc.holdsRef s.pc + s.live.card : ℕ) : ℤ)

omit [DecidableEq ι] in
theorem refCounted_init : RefCounted (init ι) where
  counted := counted_init
  refs_eq := by simp [init, tally_const_zero Pc.holdsRef Pc.idle rfl]

omit [DecidableEq ι] [Fintype ι] in
theorem unregStep_refs {s s' : State ι} {m : UnregMove} (h : unregStep s m = some s') :
    s'.moduleRefs = s.moduleRefs ∧ (s.unreg ≠ .notCalled → s'.unreg ≠ .notCalled) := by
  unfold unregStep at h
  split at h <;> rename_i hpc
  all_goals try split at h
  all_goals simp only [Option.some.injEq, reduceCtorEq] at h
  all_goals subst h
  all_goals exact ⟨rfl, fun hne => by simp_all⟩

theorem step_refCounted (s : State ι) (a : Act ι) (s' : State ι) (hr : RefCounted s)
    (h : step ops s a = some s') : RefCounted s' := by
  refine ⟨step_counted s a s' hr.counted h, ?_⟩
  have hrefs := hr.refs_eq
  cases a with
  | thread t m =>
    have e := threadStep_effect hr.counted.onFile h
    have htally := tally_update Pc.holdsRef s.pc t (s'.pc t)
    rw [← e.pc_eq] at htally
    have hbal := threadStep_refs h
    push_cast at hrefs ⊢
    omega
  | unreg m =>
    have e := unregStep_effect h
    rw [(unregStep_refs h).1, e.pc_eq, e.live_eq]
    exact hrefs

/-! ## Nobody left -/

/-- No thread holds a reference to the module and no descriptor is open. -/
structure Left (s : State ι) : Prop where
  holdsRef : ∀ t, (s.pc t).holdsRef = 0
  live : s.live = ∅

omit [DecidableEq ι] in
theorem RefCounted.left {s : State ι} (hr : RefCounted s) (h : s.moduleRefs = 0) : Left s where
  holdsRef t := by
    have hrefs := hr.refs_eq
    have hle := le_tally Pc.holdsRef s.pc t
    omega
  live := by
    have hrefs := hr.refs_eq
    exact Finset.card_eq_zero.mp (by omega)

omit [DecidableEq ι] [Fintype ι] in
theorem Pc.counted_le_holdsRef (p : Pc) : p.counted ≤ p.holdsRef := by
  cases p <;> simp [Pc.counted, Pc.holdsRef]

omit [DecidableEq ι] [Fintype ι] in
theorem Pc.tracing_of_devAccess {p : Pc} {x : DevField} (h : p.devAccess = some x)
    (hp : p.holdsRef = 0) : p.tracing = true := by
  cases p <;> simp_all [Pc.devAccess, Pc.holdsRef, Pc.tracing]

omit [DecidableEq ι] in
theorem Left.opens {s : State ι} (hl : Left s) (hc : Counted s) : s.opens = 0 := by
  have hzero : tally Pc.counted s.pc = 0 := by
    refine Finset.sum_eq_zero fun t _ => ?_
    have hle := Pc.counted_le_holdsRef (s.pc t)
    have href := hl.holdsRef t
    omega
  rw [hc.opens_eq, hzero, hl.live]
  rfl

/-- Without new references nobody comes to hold one, and nobody gets to the tracepoint. -/
theorem threadStep_left {s s' : State ι} {t : ι} {m : Move} (hl : Left s)
    (hm : m ≠ .moduleGet true) (h : threadStep ops s t m = some s') :
    (s'.pc t).holdsRef = 0 ∧ s'.live = ∅ ∧
      ((s'.pc t).tracing = true → (s.pc t).tracing = true) := by
  have hself := hl.holdsRef t
  have hlive := hl.live
  unfold threadStep at h
  split at h <;> rename_i hpc
  all_goals try rw [hpc] at hself
  all_goals try split at h
  all_goals simp only [Option.some.injEq, reduceCtorEq] at h
  all_goals subst h
  all_goals simp only [State.goto, Function.update_self, hpc]
  all_goals first
    | exact absurd rfl hm
    | exact absurd hself Nat.one_ne_zero
    | exact ⟨rfl, hlive, fun _ => rfl⟩
    | exact ⟨rfl, hlive, fun h => absurd h Bool.false_ne_true⟩
    | (rename_i hf; exact absurd (hlive ▸ hf.1) (Finset.notMem_empty _))

/-- The invariant of the guarded runs. -/
structure Exiting (s : State ι) : Prop where
  refs : RefCounted s
  left : s.unreg ≠ .notCalled → Left s
  in_time : ∀ e, s.unreg = .cdevDel e ∨ s.unreg = .clearRegistered e ∨ s.unreg = .returned e →
    e = .opensZero
  registered : s.unreg = .notCalled → s.registered = true

omit [DecidableEq ι] in
theorem exiting_init : Exiting (init ι) where
  refs := refCounted_init
  left := fun h => absurd rfl h
  in_time := fun e h => by simp [init] at h
  registered := fun _ => rfl

theorem Left.of_threadStep {s s' : State ι} {t : ι} {m : Move} (hc : Counted s) (hl : Left s)
    (hm : m ≠ .moduleGet true) (h : threadStep ops s t m = some s') : Left s' := by
  have e := threadStep_effect hc.onFile h
  obtain ⟨hself, hlive, -⟩ := threadStep_left hl hm h
  refine ⟨fun u => ?_, hlive⟩
  by_cases hut : u = t
  · rw [hut]
    exact hself
  · rw [e.pc_other u hut]
    exact hl.holdsRef u

omit [DecidableEq ι] [Fintype ι] in
/-- Where the unregistration goes if nothing is open. -/
theorem unregStep_in_time {s s' : State ι} {m : UnregMove} (h0 : s.unreg ≠ .notCalled → s.opens = 0)
    (hin : ∀ e, s.unreg = .cdevDel e ∨ s.unreg = .clearRegistered e ∨ s.unreg = .returned e →
      e = .opensZero)
    (h : unregStep s m = some s') :
    ∀ e, s'.unreg = .cdevDel e ∨ s'.unreg = .clearRegistered e ∨ s'.unreg = .returned e →
      e = .opensZero := by
  unfold unregStep at h
  split at h <;> rename_i hpc
  all_goals try split at h
  all_goals simp only [Option.some.injEq, reduceCtorEq] at h
  all_goals subst h
  all_goals simp_all

omit [DecidableEq ι] [Fintype ι] in
theorem registered_of_unregStep {s s' : State ι} {m : UnregMove}
    (hr : s.unreg = .notCalled → s.registered = true) (h : unregStep s m = some s') :
    s'.unreg = .notCalled → s'.registered = true := by
  unfold unregStep at h
  split at h <;> rename_i hpc
  all_goals try split at h
  all_goals simp only [Option.some.injEq, reduceCtorEq] at h
  all_goals subst h
  all_goals simp_all

theorem registered_of_threadStep {s s' : State ι} {t : ι} {m : Move}
    (h : threadStep ops s t m = some s') : s'.registered = s.registered := by
  unfold threadStep at h
  split at h
  all_goals try split at h
  all_goals simp only [Option.some.injEq, reduceCtorEq] at h
  all_goals subst h
  all_goals rfl

theorem step_exiting (s : State ι) (a : Act ι) (s' : State ι) (hi : Exiting s)
    (hg : ModuleExit s a) (h : step ops s a = some s') : Exiting s' := by
  have hrefs := step_refCounted s a s' hi.refs h
  cases a with
  | thread t m =>
    have e := threadStep_effect hi.refs.counted.onFile h
    refine ⟨hrefs, fun hcalled => ?_, by rw [e.unreg_eq]; exact hi.in_time, fun hnot => ?_⟩
    · rw [e.unreg_eq] at hcalled
      have hm : m ≠ .moduleGet true := by
        rintro rfl
        exact hcalled hg
      exact (hi.left hcalled).of_threadStep hi.refs.counted hm h
    · rw [registered_of_threadStep h]
      exact hi.registered (e.unreg_eq ▸ hnot)
  | unreg m =>
    have e := unregStep_effect h
    refine ⟨hrefs, fun _ => ?_, ?_, registered_of_unregStep hi.registered h⟩
    · have hl : Left s := by
        cases m with
        | call => exact hi.refs.left hg
        | _ =>
          refine hi.left fun hnot => ?_
          simp [step, unregStep, hnot] at h
      exact ⟨by rw [e.pc_eq]; exact hl.holdsRef, by rw [e.live_eq]; exact hl.live⟩
    · exact unregStep_in_time (fun hc => (hi.left hc).opens hi.refs.counted) hi.in_time h

theorem exiting_run {acts : List (Act ι)} {s s' : State ι} (hi : Exiting s)
    (hg : Along (step ops) ModuleExit s acts) (hr : run (step ops) s acts = some s') :
    Exiting s' :=
  run_along step_exiting acts s s' hi hg hr

/-- No thread is at the tracepoint and the unregistration has been called. -/
structure Silent (s : State ι) : Prop where
  exiting : Exiting s
  called : s.unreg ≠ .notCalled
  tracing : ∀ t, (s.pc t).tracing = false

theorem step_silent (s : State ι) (a : Act ι) (s' : State ι) (hs : Silent s)
    (hg : ModuleExit s a) (h : step ops s a = some s') : Silent s' := by
  refine ⟨step_exiting s a s' hs.exiting hg h, ?_, fun u => ?_⟩
  · cases a with
    | thread t m =>
      rw [(threadStep_effect hs.exiting.refs.counted.onFile h).unreg_eq]
      exact hs.called
    | unreg m => exact (unregStep_refs h).2 hs.called
  · cases a with
    | thread t m =>
      by_cases hut : u = t
      · subst hut
        have hm : m ≠ .moduleGet true := by
          rintro rfl
          exact hs.called hg
        by_contra htr
        have hold := (threadStep_left (hs.exiting.left hs.called) hm h).2.2 (by simpa using htr)
        rw [hs.tracing u] at hold
        cases hold
      · rw [(threadStep_effect hs.exiting.refs.counted.onFile h).pc_other u hut]
        exact hs.tracing u
    | unreg m =>
      rw [(unregStep_effect h).pc_eq]
      exact hs.tracing u

/-- What holds of the device when the exit function goes on, whatever the threads do. -/
structure SafeToFree (ops : Option Ops) (s : State ι) : Prop where
  opens : s.opens = 0
  live : s.live = ∅
  noOpener : ∀ t f, step ops s (.thread t (.openReturn f)) = none
  noCallback : ∀ t, (s.pc t).inCallback = false
  in_time : s.unreg ≠ .returned .timeout
  /-- all that is left is a tracepoint -/
  tail : ∀ t x, (s.pc t).devAccess = some x → (s.pc t).tracing = true

variable (ops) in
theorem Exiting.safeToFree {s : State ι} (hi : Exiting s) (h : s.unreg ≠ .notCalled) :
    SafeToFree ops s := by
  have hl := hi.left h
  have h0 := hl.opens hi.refs.counted
  refine ⟨h0, hl.live, (noOpener_of_opens_zero hi.refs.counted h0).2, fun t => ?_, fun hret => ?_,
    fun t x hx => Pc.tracing_of_devAccess hx (hl.holdsRef t)⟩
  · by_contra hcb
    obtain ⟨f, hf⟩ := Pc.inCallback_onFile (p := s.pc t) (by simpa using hcb)
    rw [hi.refs.counted.onFile_none h0 t] at hf
    cases hf
  · have hz := hi.in_time .timeout (.inr (.inr hret))
    cases hz

/-! ## With the reference of the kernel -/

/-- Nobody is inside the driver once the unregistration has been called. -/
def Outside (s : State ι) : Prop := s.unreg ≠ .notCalled → (∀ t, s.pc t = .idle) ∧ s.live = ∅

theorem threadStep_outside {s : State ι} {t : ι} {m : Move} (hpc : s.pc t = .idle)
    (hlive : s.live = ∅) (hm : m ≠ .callOpen) : threadStep ops s t m = none := by
  cases m <;> simp_all [threadStep]

theorem moduleExit_of_cdevExit {s s' : State ι} {a : Act ι} (hr : RefCounted s) (ho : Outside s)
    (hg : CdevExit s a) (h : step ops s a = some s') : ModuleExit s a := by
  cases a with
  | unreg m =>
    cases m with
    | call =>
      obtain ⟨hidle, hlive⟩ := hg
      have hzero : tally Pc.holdsRef s.pc = 0 :=
        Finset.sum_eq_zero fun t _ => by rw [hidle t]; rfl
      change s.moduleRefs = 0
      rw [hr.refs_eq, hzero, hlive]
      rfl
    | _ => trivial
  | thread t m =>
    cases m with
    | moduleGet ok =>
      cases ok with
      | false => trivial
      | true =>
        by_contra hcalled
        obtain ⟨hidle, hlive⟩ := ho hcalled
        have hnone : step ops s (.thread t (.moduleGet true)) = none :=
          threadStep_outside (hidle t) hlive (by simp)
        cases hnone.symm.trans h
    | _ => trivial

theorem step_outside {s s' : State ι} {a : Act ι} (hc : Counted s) (ho : Outside s)
    (hg : CdevExit s a) (h : step ops s a = some s') : Outside s' := by
  cases a with
  | thread t m =>
    have e := threadStep_effect hc.onFile h
    intro hcalled
    rw [e.unreg_eq] at hcalled
    obtain ⟨hidle, hlive⟩ := ho hcalled
    have hm : m ≠ .callOpen := by
      rintro rfl
      exact hcalled hg
    have hnone : step ops s (.thread t m) = none := threadStep_outside (hidle t) hlive hm
    cases hnone.symm.trans h
  | unreg m =>
    have e := unregStep_effect h
    intro _
    have hout : (∀ t, s.pc t = .idle) ∧ s.live = ∅ := by
      cases m with
      | call => exact hg
      | _ =>
        refine ho fun hnot => ?_
        simp [step, unregStep, hnot] at h
    exact ⟨by rw [e.pc_eq]; exact hout.1, by rw [e.live_eq]; exact hout.2⟩

theorem cdevExit_run {acts : List (Act ι)} {s : State ι}
    (hg : Along (step ops) CdevExit (init ι) acts) (hr : run (step ops) (init ι) acts = some s) :
    Exiting s ∧ Outside s := by
  refine run_along (I := fun s => Exiting s ∧ Outside s) (fun s a s' hi hg h => ?_) acts _ s
    ⟨exiting_init, fun hcalled => absurd rfl hcalled⟩ hg hr
  have hmod := moduleExit_of_cdevExit hi.1.refs hi.2 hg h
  exact ⟨step_exiting s a s' hi.1 hmod h, step_outside hi.1.refs.counted hi.2 hg h⟩

/-- Called from a module's exit function, the unregistration finds the device unused and returns in
time, and no open and no callback follows. The device may be freed then exactly if no thread was at
the tracepoint of its release when the exit function began. The reference to `cdev.owner` sees to
that: with it nobody is inside the driver, and nobody touches the device again. -/
theorem module_exit (ops : Option Ops) :
    (∀ (acts : List (Act ι)) (s : State ι), Along (step ops) ModuleExit (init ι) acts →
      run (step ops) (init ι) acts = some s → s.unreg ≠ .notCalled → SafeToFree ops s) ∧
    (∀ (acts : List (Act ι)) (s : State ι), Along (step ops) ModuleExit (init ι) acts →
      run (step ops) (init ι) acts = some s → s.unreg = .notCalled → s.moduleRefs = 0 →
      ((∀ acts' s', Along (step ops) ModuleExit s (.unreg .call :: acts') →
          run (step ops) s (.unreg .call :: acts') = some s' → s'.unreg = .returned .opensZero →
          NoDevAccess s') ↔
        ∀ t, (s.pc t).tracing = false)) ∧
    ∀ (acts : List (Act ι)) (s : State ι), Along (step ops) CdevExit (init ι) acts →
      run (step ops) (init ι) acts = some s → s.unreg ≠ .notCalled →
      SafeToFree ops s ∧ NoDevAccess s := by
  refine ⟨?_, ?_, ?_⟩
  · intro acts s hg hr hcalled
    exact (exiting_run exiting_init hg hr).safeToFree ops hcalled
  · intro acts s hg hr hnot href
    have hi := exiting_run exiting_init hg hr
    have hcall : step ops s (.unreg .call) = some { s with unreg := .setRemoving } := by
      simp only [step, unregStep, hnot, hi.registered hnot, if_true]
    constructor
    · -- a thread at the tracepoint can stay there until the return
      intro hall t
      by_contra htr
      have htr' : (s.pc t).tracing = true := by simpa using htr
      have h0 : s.opens = 0 := (hi.refs.left href).opens hi.refs.counted
      have hno := hall [.unreg .advance, .unreg .advance, .unreg .advance, .unreg .advance,
        .unreg .advance] { s.afterWait with removing := true } ?_ ?_ rfl t
      · cases hpc : s.pc t <;> rw [hpc] at htr' <;> first | (cases htr'; done) | skip
        all_goals
          change (s.pc t).devAccess = none at hno
          rw [hpc] at hno
          cases hno
      · exact ⟨href, fun _ _ => ⟨trivial, fun _ _ => ⟨trivial, fun _ _ => ⟨trivial, fun _ _ =>
          ⟨trivial, fun _ _ => ⟨trivial, fun _ _ => trivial⟩⟩⟩⟩⟩⟩
      · rw [run_cons, hcall]
        simp only [Option.bind_some, run_cons, run_nil, step, unregStep, h0, if_true,
          State.afterWait]
    · intro htr acts' s' hg' hr' _
      rw [run_cons, hcall, Option.bind_some] at hr'
      have hsil : Silent { s with unreg := .setRemoving } := by
        refine ⟨step_exiting s (.unreg .call) _ hi href hcall, ?_, htr⟩
        intro h
        cases h
      have hs' : Silent s' :=
        run_along step_silent acts' _ s' hsil (hg'.2 _ hcall) hr'
      intro t
      cases hacc : (s'.pc t).devAccess with
      | none => rfl
      | some x =>
        have htail := (hs'.exiting.safeToFree ops hs'.called).tail t x hacc
        rw [hs'.tracing t] at htail
        cases htail
  · intro acts s hg hr hcalled
    obtain ⟨hi, hout⟩ := cdevExit_run hg hr
    refine ⟨hi.safeToFree ops hcalled, fun t => ?_⟩
    rw [(hout hcalled).1 t]
    rfl

/-- The last close gives its reference back, and the exit function runs before its tracepoint. -/
def exitBeforeTracepoint : List (Act Unit) :=
  [.thread () .callOpen, .thread () .advance, .thread () (.moduleGet true), .thread () .advance,
    .thread () .advance, .thread () (.opsOpen true), .thread () .advance, .thread () (.openReturn 3),
    .thread () (.callRelease 3), .thread () .advance, .thread () .advance, .thread () .advance,
    .thread () .advance, .thread () .advance, .unreg .call, .unreg .advance, .unreg .advance,
    .unreg .advance, .unreg .advance, .unreg .advance]

theorem module_exit_before_tracepoint :
    ∃ s, run (step none) (init Unit) exitBeforeTracepoint = some s ∧
      s.unreg = .returned .opensZero ∧ SafeToFree none s ∧ (s.pc ()).devAccess = some .devt := by
  obtain ⟨s, hs, hret, hacc⟩ : ∃ s, run (step none) (init Unit) exitBeforeTracepoint = some s ∧
      s.unreg = .returned .opensZero ∧ (s.pc ()).devAccess = some .devt := ⟨_, rfl, rfl, rfl⟩
  have hg : Along (step none) ModuleExit (init Unit) exitBeforeTracepoint := by decide
  have hcalled : s.unreg ≠ .notCalled := by
    rw [hret]
    exact fun h => by cases h
  exact ⟨s, hs, hret, (module_exit none).1 _ s hg hs hcalled, hacc⟩

end LinuxDriverFramework.NvChar.Interleaving
