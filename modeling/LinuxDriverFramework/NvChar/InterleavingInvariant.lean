import LinuxDriverFramework.NvChar.Interleaving

/-! # What one step can do, and the counting invariant

`ThreadEffect` and `UnregEffect` say once what a step of a thread and a step of the unregistration
change. From the two follows `Counted`: `opens` is the number of live descriptors plus the threads
between their increment and their decrement, `removing` is set once the unregistration is past its
first store, and an operation under way is on a live descriptor. -/

namespace LinuxDriverFramework.NvChar.Interleaving
open Foundations
set_option autoImplicit false

variable {ι : Type} [DecidableEq ι] {ops : Option Ops}

/-- Everything a step of thread `t` from `s` to `s'` can do. -/
structure ThreadEffect (s : State ι) (t : ι) (s' : State ι) : Prop where
  unreg_eq : s'.unreg = s.unreg
  removing_eq : s'.removing = s.removing
  pc_other : ∀ u, u ≠ t → s'.pc u = s.pc u
  /-- `opens` moves with the weight of the thread and the number of live descriptors -/
  balance : s'.opens - s'.live.card - (s'.pc t).counted = s.opens - s.live.card - (s.pc t).counted
  /-- the window before the increment is entered only while `removing` is clear -/
  window : s'.pc t = .incOpens → s.removing = false
  /-- a callback is chosen only while `removing` is clear -/
  callback : (s'.pc t).inCallback = true → (s.pc t).inCallback = true ∨ s.removing = false
  /-- the tail of a release is entered by the decrement -/
  tail : (s'.pc t).pastDec = true → (s.pc t).pastDec = true ∨ (s.pc t).counted = 1
  /-- a thread becomes counted by its increment or by taking a live descriptor down -/
  enters : (s'.pc t).counted = 1 →
    (s.pc t).counted = 1 ∨ s.pc t = .incOpens ∨ s.live.Nonempty
  /-- a descriptor becomes live when a counted open returns -/
  added : ∀ f, f ∈ s'.live → f ∈ s.live ∨ (s.pc t).counted = 1
  onFile : ∀ f, (s'.pc t).onFile = some f → f ∈ s'.live
  /-- a descriptor goes down only when no operation is on it -/
  dropped : ∀ f, f ∈ s.live → f ∉ s'.live → ∀ u, (s.pc u).onFile ≠ some f

/-- A move that leaves `opens` and the live descriptors alone. -/
theorem ThreadEffect.of_goto {s : State ι} {t : ι} (p : Pc) (r : ℤ)
    (hc : p.counted = (s.pc t).counted)
    (hw : p = .incOpens → s.removing = false)
    (hcb : p.inCallback = true → (s.pc t).inCallback = true ∨ s.removing = false)
    (ht : p.pastDec = true → (s.pc t).pastDec = true ∨ (s.pc t).counted = 1)
    (hf : ∀ f, p.onFile = some f → f ∈ s.live) :
    ThreadEffect s t ({ s with moduleRefs := r }.goto t p) where
  unreg_eq := rfl
  removing_eq := rfl
  pc_other := fun u hu => goto_pc_other _ p hu
  balance := by rw [goto_pc_self, hc]; rfl
  window := by rw [goto_pc_self]; exact hw
  callback := by rw [goto_pc_self]; exact hcb
  tail := by rw [goto_pc_self]; exact ht
  enters := by rw [goto_pc_self, hc]; exact Or.inl
  added := fun _ h => Or.inl h
  onFile := by rw [goto_pc_self]; exact hf
  dropped := fun _ h hn => absurd h hn

theorem ThreadEffect.of_move {s : State ι} {t : ι} {q p : Pc} (r : ℤ) (hpc : s.pc t = q)
    (hc : p.counted = q.counted) (hw : p = .incOpens → s.removing = false)
    (hcb : p.inCallback = true → q.inCallback = true ∨ s.removing = false)
    (ht : p.pastDec = true → q.pastDec = true ∨ q.counted = 1)
    (hf : ∀ f, p.onFile = some f → f ∈ s.live) :
    ThreadEffect s t ({ s with moduleRefs := r }.goto t p) := by
  subst hpc
  exact .of_goto p r hc hw hcb ht hf

theorem callback_gate {f : ℕ} {op : FileOp} {removing : Bool}
    (h : (Pc.chosen f (op.outcome removing ops)).inCallback = true) : removing = false := by
  cases removing with
  | false => rfl
  | true =>
    cases ho : op.outcome true ops with
    | call cb => exact absurd ho (op.outcome_removing ops cb)
    | _ => rw [ho] at h; exact absurd h (by simp [Pc.inCallback])

/-- `atomic_inc(&dev->opens)`. -/
theorem effect_incOpens {s : State ι} {t : ι} (hpc : s.pc t = .incOpens) :
    ThreadEffect s t ({ s with opens := s.opens + 1 }.goto t .opsOpen) where
  unreg_eq := rfl
  removing_eq := rfl
  pc_other := fun u hu => goto_pc_other _ _ hu
  balance := by
    rw [goto_pc_self, hpc]
    simp only [State.goto, Pc.counted]
    omega
  window := by rw [goto_pc_self]; intro h; cases h
  callback := by rw [goto_pc_self]; intro h; cases h
  tail := by rw [goto_pc_self]; intro h; cases h
  enters := fun _ => .inr (.inl hpc)
  added := fun _ h => .inl h
  onFile := by rw [goto_pc_self]; intro f h; cases h
  dropped := fun _ h hn => absurd h hn

/-- `nv_char_open` returns 0: the open's weight passes to the descriptor. -/
theorem effect_openReturn {s : State ι} {t : ι} {f : ℕ} (hpc : s.pc t = .openReturn)
    (hf : f ∉ s.live) :
    ThreadEffect s t ({ s with live := insert f s.live }.goto t .idle) where
  unreg_eq := rfl
  removing_eq := rfl
  pc_other := fun u hu => goto_pc_other _ _ hu
  balance := by
    rw [goto_pc_self, hpc]
    simp only [State.goto, Pc.counted, Finset.card_insert_of_notMem hf]
    omega
  window := by rw [goto_pc_self]; intro h; cases h
  callback := by rw [goto_pc_self]; intro h; cases h
  tail := by rw [goto_pc_self]; intro h; cases h
  enters := by rw [goto_pc_self]; intro h; cases h
  added := fun _ _ => .inr (by rw [hpc]; rfl)
  onFile := by rw [goto_pc_self]; intro f h; cases h
  dropped := fun _ h hn => absurd (Finset.mem_insert_of_mem h) hn

/-- `nv_char_release` begins: the descriptor's weight passes to the thread. -/
theorem effect_callRelease {s : State ι} {t : ι} {f : ℕ} (hpc : s.pc t = .idle)
    (hf : f ∈ s.live) (hfree : ∀ u, (s.pc u).onFile ≠ some f) :
    ThreadEffect s t ({ s with live := s.live.erase f }.goto t .opsRelease) where
  unreg_eq := rfl
  removing_eq := rfl
  pc_other := fun u hu => goto_pc_other _ _ hu
  balance := by
    have hcard : 0 < s.live.card := Finset.card_pos.mpr ⟨f, hf⟩
    rw [goto_pc_self, hpc]
    simp only [State.goto, Pc.counted, Finset.card_erase_of_mem hf]
    omega
  window := by rw [goto_pc_self]; intro h; cases h
  callback := by rw [goto_pc_self]; intro h; cases h
  tail := by rw [goto_pc_self]; intro h; cases h
  enters := fun _ => .inr (.inr ⟨f, hf⟩)
  added := fun _ h => .inl (Finset.mem_of_mem_erase h)
  onFile := by rw [goto_pc_self]; intro f h; cases h
  dropped := by
    intro g hg hn u
    have hgf : g = f := by
      by_contra hne
      exact hn (Finset.mem_erase.mpr ⟨hne, hg⟩)
    rw [hgf]
    exact hfree u

/-- `atomic_dec_and_test(&dev->opens)`, whichever way the test goes. -/
theorem effect_decOpens {s : State ι} {t : ι} {c : Caller} {p : Pc} (hpc : s.pc t = .decOpens c)
    (hp : p = .wakeUp c ∨ p = .modulePut c) :
    ThreadEffect s t ({ s with opens := s.opens - 1 }.goto t p) where
  unreg_eq := rfl
  removing_eq := rfl
  pc_other := fun u hu => goto_pc_other _ _ hu
  balance := by
    have hw : p.counted = 0 := by rcases hp with rfl | rfl <;> rfl
    rw [goto_pc_self, hpc, hw]
    simp only [State.goto, Pc.counted]
    omega
  window := by rw [goto_pc_self]; rintro rfl; simp at hp
  callback := by rw [goto_pc_self]; rcases hp with rfl | rfl <;> intro h <;> cases h
  tail := fun _ => .inr (by rw [hpc]; rfl)
  enters := by rw [goto_pc_self]; rcases hp with rfl | rfl <;> intro h <;> cases h
  added := fun _ h => .inl h
  onFile := by rw [goto_pc_self]; rcases hp with rfl | rfl <;> intro f h <;> cases h
  dropped := fun _ h hn => absurd h hn

variable [Fintype ι]

theorem threadStep_effect {s s' : State ι} {t : ι} {m : Move}
    (hfile : ∀ u f, (s.pc u).onFile = some f → f ∈ s.live)
    (h : threadStep ops s t m = some s') : ThreadEffect s t s' := by
  have hself := hfile t
  unfold threadStep at h
  split at h <;> rename_i hpc
  -- the moves that touch `opens` or the live descriptors, and the gate
  case h_7 => exact Option.some.inj h ▸ effect_incOpens hpc
  case h_11 =>
    split at h
    · cases h
    · exact Option.some.inj h ▸ effect_openReturn hpc ‹_›
  case h_13 =>
    refine Option.some.inj h ▸ ThreadEffect.of_goto _ s.moduleRefs ?_ ?_ ?_ ?_ ?_
    · rw [hpc]; rfl
    · intro hw; cases hw
    · exact fun hcb => .inr (callback_gate hcb)
    · intro ht; cases ht
    · intro f hf
      exact hself f (by rw [hpc]; exact hf)
  case h_17 =>
    split at h
    · rename_i hf
      exact Option.some.inj h ▸ effect_callRelease hpc hf.1 hf.2
    · cases h
  case h_20 => exact Option.some.inj h ▸ effect_decOpens hpc (by split <;> simp)
  -- everything else only moves the thread, and at most counts a module reference
  all_goals try split at h
  all_goals simp only [Option.some.injEq, reduceCtorEq] at h
  all_goals subst h
  all_goals refine ThreadEffect.of_move _ hpc rfl ?_ ?_ ?_ ?_
  -- most places are no window, no callback, no tail and on no descriptor
  all_goals first
    | (intro h; cases h; done)
    | (intro f h; cases h; done)
    | simp_all [Pc.inCallback, Pc.pastDec, Pc.onFile]

/-- Everything a step of the unregistering thread can do. -/
structure UnregEffect (s s' : State ι) : Prop where
  opens_eq : s'.opens = s.opens
  live_eq : s'.live = s.live
  pc_eq : s'.pc = s.pc
  removing : s'.unreg.pastSet = true → s.unreg.pastSet = true ∧ s'.removing = s.removing ∨
    s'.removing = true
  leaves : s'.unreg.leftAtZero = true →
    s.unreg.leftAtZero = true ∨ s.unreg = .waitOpens ∧ s.opens = 0
  stays : s.unreg.leftAtZero = true → s'.unreg.leftAtZero = true

omit [DecidableEq ι] [Fintype ι] in
theorem unregStep_effect {s s' : State ι} {m : UnregMove} (h : unregStep s m = some s') :
    UnregEffect s s' := by
  unfold unregStep at h
  split at h <;> rename_i hpc
  all_goals try split at h
  all_goals simp only [Option.some.injEq, reduceCtorEq] at h
  all_goals subst h
  all_goals constructor <;> simp_all [UnregPc.pastSet, UnregPc.leftAtZero]
  all_goals rename_i e
  all_goals cases e <;> simp

/-! ## The counting invariant -/

structure Counted (s : State ι) : Prop where
  opens_eq : s.opens = ((tally Pc.counted s.pc + s.live.card : ℕ) : ℤ)
  removing : s.unreg.pastSet = true → s.removing = true
  onFile : ∀ t f, (s.pc t).onFile = some f → f ∈ s.live

omit [DecidableEq ι] in
theorem counted_init : Counted (init ι) where
  opens_eq := by simp [init, tally_const_zero Pc.counted Pc.idle rfl]
  removing := fun h => absurd h (by simp [init, UnregPc.pastSet])
  onFile := fun t f h => absurd h (by simp [init, Pc.onFile])

omit [Fintype ι] in
theorem ThreadEffect.pc_eq {s s' : State ι} {t : ι} (e : ThreadEffect s t s') :
    s'.pc = Function.update s.pc t (s'.pc t) := by
  funext u
  by_cases hu : u = t
  · rw [hu, Function.update_self]
  · rw [Function.update_of_ne hu, e.pc_other u hu]

theorem ThreadEffect.counted {s s' : State ι} {t : ι} (e : ThreadEffect s t s')
    (hc : Counted s) : Counted s' where
  opens_eq := by
    have htally := tally_update Pc.counted s.pc t (s'.pc t)
    rw [← e.pc_eq] at htally
    have hopens := hc.opens_eq
    have hbal := e.balance
    push_cast at hopens ⊢
    omega
  removing := by
    rw [e.unreg_eq, e.removing_eq]
    exact hc.removing
  onFile := by
    intro u f hf
    by_cases hu : u = t
    · subst hu
      exact e.onFile f hf
    · rw [e.pc_other u hu] at hf
      by_contra hn
      exact e.dropped f (hc.onFile u f hf) hn u hf

omit [DecidableEq ι] in
theorem UnregEffect.counted {s s' : State ι} (e : UnregEffect s s') (hc : Counted s) :
    Counted s' where
  opens_eq := by rw [e.opens_eq, e.live_eq, e.pc_eq]; exact hc.opens_eq
  removing := by
    intro h
    rcases e.removing h with ⟨hp, hr⟩ | hr
    · rw [hr]; exact hc.removing hp
    · exact hr
  onFile := by rw [e.live_eq, e.pc_eq]; exact hc.onFile

theorem step_counted (s : State ι) (a : Act ι) (s' : State ι) (hc : Counted s)
    (h : step ops s a = some s') : Counted s' := by
  cases a with
  | thread t m => exact (threadStep_effect hc.onFile h).counted hc
  | unreg m => exact (unregStep_effect h).counted hc

theorem reachable_counted {s : State ι} (h : Reachable (step ops) (init ι) s) : Counted s :=
  run_invariant step_counted counted_init h

/-! ## What `opens = 0` says -/

omit [DecidableEq ι] in
theorem Counted.live_empty {s : State ι} (hc : Counted s) (h : s.opens = 0) : s.live = ∅ := by
  have hopens := hc.opens_eq
  exact Finset.card_eq_zero.mp (by omega)

omit [DecidableEq ι] in
theorem Counted.counted_zero {s : State ι} (hc : Counted s) (h : s.opens = 0) (t : ι) :
    (s.pc t).counted = 0 := by
  have hopens := hc.opens_eq
  have hle := le_tally Pc.counted s.pc t
  omega

omit [DecidableEq ι] in
theorem Counted.onFile_none {s : State ι} (hc : Counted s) (h : s.opens = 0) (t : ι) :
    (s.pc t).onFile = none := by
  cases hf : (s.pc t).onFile with
  | none => rfl
  | some f =>
    have hmem := hc.onFile t f hf
    rw [hc.live_empty h] at hmem
    exact absurd hmem (Finset.notMem_empty f)

end LinuxDriverFramework.NvChar.Interleaving
