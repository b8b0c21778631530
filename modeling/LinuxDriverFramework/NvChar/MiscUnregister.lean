import LinuxDriverFramework.Foundations.Simulations
import LinuxDriverFramework.NvChar.UnregisterRace

/-! # Opens and closes against `nv_char_misc_unregister`

The opens of a misc device run the same code as those of a cdev, but under `misc_mtx`: `misc_open`
takes it before it looks the minor up and keeps it until `nv_char_misc_open` has returned, and
`misc_deregister` takes it to drop the minor from the list. Closes and file operations do not need
it.

* `MiscState`, `miscStep`: the threads of `Interleaving` with the mutex, and the unregistration.
* `MiscInvariant`: who holds the mutex, and that no open is under way once the minor is gone.
* `asDev`: the same threads around an `nv_char_device_unregister`; `misc_simulates` matches the
  steps, and finds the window before the increment empty at the end of every wait.
* `misc_closed`: no open succeeds any more once `misc_deregister` has returned. -/

namespace LinuxDriverFramework.NvChar.Interleaving
open Foundations
set_option autoImplicit false

variable {ι : Type} [DecidableEq ι]

inductive Holder (ι : Type)
  | thread (t : ι)
  | unreg
  deriving DecidableEq, Repr

inductive MiscUnregPc
  | notCalled
  | setRemoving
  -- misc_deregister
  | lockMtx | unlist | unlockMtx
  | removeDir
  | waitOpens
  | debugfsExit (e : Exit) | clearRegistered (e : Exit)
  | returned (e : Exit)
  deriving DecidableEq, Repr

structure MiscState (ι : Type) where
  removing : Bool
  opens : ℤ
  registered : Bool
  moduleRefs : ℤ
  live : Finset ℕ
  pc : ι → Pc
  unreg : MiscUnregPc
  miscMtx : Option (Holder ι)
  /-- the minor is in `misc_list` -/
  listed : Bool

/-- The device right after `nv_char_misc_register`. -/
def miscInit (ι : Type) : MiscState ι where
  removing := false
  opens := 0
  registered := true
  moduleRefs := 0
  live := ∅
  pc := fun _ => .idle
  unreg := .notCalled
  miscMtx := none
  listed := true

/-- Where `nv_char_device_unregister` would stand. -/
def MiscUnregPc.asDev : MiscUnregPc → UnregPc
  | .notCalled => .notCalled
  | .setRemoving => .setRemoving
  | .lockMtx | .unlist | .unlockMtx | .removeDir => .detach
  | .waitOpens => .waitOpens
  | .debugfsExit e => .cdevDel e
  | .clearRegistered e => .clearRegistered e
  | .returned e => .returned e

def MiscUnregPc.pastDebugfsExit : MiscUnregPc → Bool
  | .clearRegistered _ | .returned _ => true
  | _ => false

def MiscState.asDev (s : MiscState ι) : State ι where
  removing := s.removing
  opens := s.opens
  registered := s.registered
  cdevAdded := !s.unreg.pastDebugfsExit
  moduleRefs := s.moduleRefs
  live := s.live
  pc := s.pc
  unreg := s.unreg.asDev

/-- What a thread can change of `s.asDev`. -/
def MiscState.setDev (s : MiscState ι) (d : State ι) : MiscState ι :=
  { s with opens := d.opens, moduleRefs := d.moduleRefs, live := d.live, pc := d.pc }

/-- The thread is inside `misc_open`. -/
def Pc.inOpen : Pc → Bool
  | .firstCheck | .tryModuleGet | .secondCheck | .modulePutBack | .incOpens => true
  | .opsOpen | .traceOpen | .openReturn => true
  | .readOwner .openFailed | .decOpens .openFailed | .wakeUp .openFailed
  | .modulePut .openFailed => true
  | _ => false

variable [Fintype ι]

def miscThreadStep (ops : Option Ops) (s : MiscState ι) (t : ι) : Move → Option (MiscState ι)
  | .callOpen =>
    -- without the minor in the list `misc_open` fails and nothing has changed
    if s.miscMtx = none ∧ s.listed then
      (threadStep ops s.asDev t .callOpen).map fun d =>
        { s.setDev d with miscMtx := some (.thread t) }
    else none
  | m =>
    (threadStep ops s.asDev t m).map fun d =>
      if (s.pc t).inOpen && !(d.pc t).inOpen then { s.setDev d with miscMtx := none }
      else s.setDev d

def miscUnregStep (s : MiscState ι) (m : UnregMove) : Option (MiscState ι) :=
  match s.unreg, m with
  | .notCalled, .call => some (if s.registered then { s with unreg := .setRemoving } else s)
  | .setRemoving, .advance => some { s with removing := true, unreg := .lockMtx }
  | .lockMtx, .advance =>
      if s.miscMtx = none then some { s with miscMtx := some .unreg, unreg := .unlist } else none
  | .unlist, .advance => some { s with listed := false, unreg := .unlockMtx }
  | .unlockMtx, .advance => some { s with miscMtx := none, unreg := .removeDir }
  | .removeDir, .advance => some { s with unreg := .waitOpens }
  | .waitOpens, .advance =>
      if s.opens = 0 then some { s with unreg := .debugfsExit .opensZero } else none
  | .waitOpens, .timeout =>
      if s.opens = 0 then none else some { s with unreg := .debugfsExit .timeout }
  | .debugfsExit e, .advance => some { s with unreg := .clearRegistered e }
  | .clearRegistered e, .advance => some { s with registered := false, unreg := .returned e }
  | _, _ => none

def miscStep (ops : Option Ops) (s : MiscState ι) : Act ι → Option (MiscState ι)
  | .thread t m => miscThreadStep ops s t m
  | .unreg m => miscUnregStep s m

/-! ## What one step can do -/

variable {ops : Option Ops}

/-- What a step of `t` other than the call of an open leaves alone. -/
structure ThreadFrame (s : State ι) (t : ι) (s' : State ι) : Prop where
  registered_eq : s'.registered = s.registered
  cdevAdded_eq : s'.cdevAdded = s.cdevAdded
  unreg_eq : s'.unreg = s.unreg
  removing_eq : s'.removing = s.removing
  pc_other : ∀ u, u ≠ t → s'.pc u = s.pc u
  inOpen : (s'.pc t).inOpen = true → (s.pc t).inOpen = true

theorem threadStep_frame {s s' : State ι} {t : ι} {m : Move} (hm : m ≠ .callOpen)
    (h : threadStep ops s t m = some s') : ThreadFrame s t s' := by
  unfold threadStep at h
  split at h <;> rename_i hpc
  case h_1 => exact absurd rfl hm
  all_goals try split at h
  all_goals simp only [Option.some.injEq, reduceCtorEq] at h
  all_goals subst h
  all_goals
    refine ⟨rfl, rfl, rfl, rfl, fun u hu => goto_pc_other _ _ hu, ?_⟩
    rw [goto_pc_self, hpc]
    try split
  all_goals first
    | exact id
    | (intro hin; cases hin)
    | exact fun _ => rfl
    | (rename_i c; cases c <;> exact id)
    | (rename_i c _; cases c <;> exact id)

omit [Fintype ι] [DecidableEq ι] in
theorem setDev_asDev {s : MiscState ι} {d : State ι} (hr : d.registered = s.registered)
    (hc : d.cdevAdded = s.asDev.cdevAdded) (hu : d.unreg = s.asDev.unreg)
    (hm : d.removing = s.removing) : (s.setDev d).asDev = d := by
  cases d
  subst hr hc hu hm
  rfl

/-- Everything a step of thread `t` can do: a step of the thread around the device, and what it
does to the mutex. -/
structure MiscThreadEffect (ops : Option Ops) (s : MiscState ι) (t : ι) (m : Move)
    (s' : MiscState ι) : Prop where
  device : threadStep ops s.asDev t m = some s'.asDev
  unreg_eq : s'.unreg = s.unreg
  listed_eq : s'.listed = s.listed
  pc_other : ∀ u, u ≠ t → s'.pc u = s.pc u
  mutex : s'.miscMtx = s.miscMtx ∧ (s'.pc t).inOpen = (s.pc t).inOpen ∨
    s.miscMtx = none ∧ s.listed = true ∧ s'.miscMtx = some (.thread t) ∧
      (s'.pc t).inOpen = true ∨
    (s.pc t).inOpen = true ∧ s'.miscMtx = none ∧ (s'.pc t).inOpen = false

theorem miscThreadStep_effect {s s' : MiscState ι} {t : ι} {m : Move}
    (h : miscThreadStep ops s t m = some s') : MiscThreadEffect ops s t m s' := by
  by_cases hm : m = .callOpen
  · subst hm
    simp only [miscThreadStep] at h
    by_cases hfree : s.miscMtx = none ∧ s.listed
    · rw [if_pos hfree] at h
      obtain ⟨d, hd, rfl⟩ := Option.map_eq_some_iff.mp h
      cases hpc : s.asDev.pc t <;> simp only [threadStep, hpc, reduceCtorEq] at hd
      obtain rfl := Option.some.inj hd
      refine ⟨?_, rfl, rfl, fun u hu => goto_pc_other _ _ hu, ?_⟩
      · simp only [threadStep, hpc]
        rfl
      · refine .inr (.inl ⟨hfree.1, hfree.2, rfl, ?_⟩)
        simp [MiscState.setDev, Pc.inOpen]
    · rw [if_neg hfree] at h
      cases h
  · have hmap : ∃ d, threadStep ops s.asDev t m = some d ∧
        (if (s.pc t).inOpen && !(d.pc t).inOpen then { s.setDev d with miscMtx := none }
          else s.setDev d) = s' := by
      cases m <;> first | exact absurd rfl hm | exact Option.map_eq_some_iff.mp h
    obtain ⟨d, hd, rfl⟩ := hmap
    have e := threadStep_frame hm hd
    have hdev := setDev_asDev (s := s) e.registered_eq e.cdevAdded_eq e.unreg_eq e.removing_eq
    have hin := e.inOpen
    by_cases hleave : (s.pc t).inOpen && !(d.pc t).inOpen
    · rw [if_pos hleave]
      simp only [Bool.and_eq_true, Bool.not_eq_true'] at hleave
      exact ⟨hd.trans (congrArg some hdev.symm), rfl, rfl, e.pc_other,
        .inr (.inr ⟨hleave.1, rfl, hleave.2⟩)⟩
    · rw [if_neg hleave]
      refine ⟨hd.trans (congrArg some hdev.symm), rfl, rfl, e.pc_other, .inl ⟨rfl, ?_⟩⟩
      change (d.pc t).inOpen = (s.pc t).inOpen
      change (d.pc t).inOpen = true → (s.pc t).inOpen = true at hin
      cases hb : (s.pc t).inOpen <;> cases hb' : (d.pc t).inOpen <;> simp_all

/-! ## The mutex -/

def MiscUnregPc.holdsMtx : MiscUnregPc → Bool
  | .unlist | .unlockMtx => true
  | _ => false

/-- The minor is out of the list. -/
def MiscUnregPc.pastUnlist : MiscUnregPc → Bool
  | .notCalled | .setRemoving | .lockMtx | .unlist => false
  | _ => true

structure MiscInvariant (s : MiscState ι) : Prop where
  opener : ∀ t, (s.pc t).inOpen = true → s.miscMtx = some (.thread t)
  unlister : s.unreg.holdsMtx = true → s.miscMtx = some .unreg
  unlisted : s.unreg.pastUnlist = true → s.listed = false
  noOpener : s.unreg.pastUnlist = true → ∀ t, (s.pc t).inOpen = false

omit [Fintype ι] [DecidableEq ι] in
theorem miscInvariant_init : MiscInvariant (miscInit ι) where
  opener := fun _ h => by cases h
  unlister := fun h => by cases h
  unlisted := fun h => by cases h
  noOpener := fun h => by cases h

theorem MiscThreadEffect.invariant {s s' : MiscState ι} {t : ι} {m : Move}
    (e : MiscThreadEffect ops s t m s') (hi : MiscInvariant s) : MiscInvariant s' := by
  have hother : ∀ u, u ≠ t → (s'.pc u).inOpen = true → s.miscMtx = some (.thread u) := by
    intro u hu hin
    rw [e.pc_other u hu] at hin
    exact hi.opener u hin
  rcases e.mutex with ⟨hm, hin⟩ | ⟨hfree, hl, hm, hin⟩ | ⟨hin, hm, hout⟩
  · refine ⟨fun u hu => ?_, ?_, ?_, fun hp u => ?_⟩
    · by_cases hut : u = t
      · subst hut
        rw [hm]
        exact hi.opener u (hin ▸ hu)
      · rw [hm]
        exact hother u hut hu
    · rw [e.unreg_eq, hm]
      exact hi.unlister
    · rw [e.unreg_eq, e.listed_eq]
      exact hi.unlisted
    · rw [e.unreg_eq] at hp
      by_cases hut : u = t
      · subst hut
        rw [hin]
        exact hi.noOpener hp u
      · rw [e.pc_other u hut]
        exact hi.noOpener hp u
  · -- the open begins: the mutex was free and the minor listed
    have hbefore : s.unreg.pastUnlist = true → False := fun hp =>
      absurd (hi.unlisted hp) (by rw [hl]; decide)
    refine ⟨fun u hu => ?_, fun hp => ?_, fun hp => ?_, fun hp => ?_⟩
    · by_cases hut : u = t
      · rw [hm, hut]
      · have hmtx := hother u hut hu
        rw [hfree] at hmtx
        cases hmtx
    · rw [e.unreg_eq] at hp
      have hmtx := hi.unlister hp
      rw [hfree] at hmtx
      cases hmtx
    · rw [e.unreg_eq] at hp
      exact (hbefore hp).elim
    · rw [e.unreg_eq] at hp
      exact (hbefore hp).elim
  · -- the open returns and lets go of the mutex, which nobody else can have held
    have hmtx := hi.opener t hin
    refine ⟨fun u hu => ?_, fun hp => ?_, ?_, fun hp => ?_⟩
    · by_cases hut : u = t
      · subst hut
        rw [hout] at hu
        cases hu
      · have hu' := hother u hut hu
        rw [hmtx] at hu'
        exact absurd (Holder.thread.inj (Option.some.inj hu')) (Ne.symm hut)
    · rw [e.unreg_eq] at hp
      have hu := hi.unlister hp
      rw [hmtx] at hu
      cases hu
    · rw [e.unreg_eq, e.listed_eq]
      exact hi.unlisted
    · rw [e.unreg_eq] at hp
      have hno := hi.noOpener hp t
      rw [hin] at hno
      cases hno

omit [Fintype ι] [DecidableEq ι] in
theorem MiscInvariant.of_unreg {s s' : MiscState ι} (hi : MiscInvariant s)
    (hm : s'.miscMtx = s.miscMtx) (hl : s'.listed = s.listed) (hpc : s'.pc = s.pc)
    (hh : s'.unreg.holdsMtx = false)
    (hp : s'.unreg.pastUnlist = true → s.unreg.pastUnlist = true) : MiscInvariant s' where
  opener := by rw [hm, hpc]; exact hi.opener
  unlister := fun h => by rw [hh] at h; cases h
  unlisted := fun h => by rw [hl]; exact hi.unlisted (hp h)
  noOpener := fun h => by rw [hpc]; exact hi.noOpener (hp h)

omit [Fintype ι] [DecidableEq ι] in
theorem miscUnregStep_invariant {s s' : MiscState ι} {m : UnregMove} (hi : MiscInvariant s)
    (h : miscUnregStep s m = some s') : MiscInvariant s' := by
  have hnoOpener : s.miscMtx = some .unreg → ∀ t, (s.pc t).inOpen = false := by
    intro hm t
    by_contra hin
    have hmtx := hi.opener t (by simpa using hin)
    rw [hm] at hmtx
    cases hmtx
  have hun := hi.unlisted
  have hno := hi.noOpener
  have hlk := hi.unlister
  have hop := hi.opener
  unfold miscUnregStep at h
  split at h <;> rename_i hpc
  case h_4 =>
    -- the list is changed under the mutex
    obtain rfl := Option.some.inj h
    have hm := hlk (by rw [hpc]; rfl)
    exact ⟨hop, fun _ => hm, fun _ => rfl, fun _ => hnoOpener hm⟩
  case h_5 =>
    obtain rfl := Option.some.inj h
    have hout := hno (by rw [hpc]; rfl)
    refine ⟨fun t ht => ?_, (fun hp => by cases hp), fun _ => hun (by rw [hpc]; rfl),
      fun _ => hout⟩
    rw [hout t] at ht
    cases ht
  case h_3 =>
    by_cases hfree : s.miscMtx = none
    · rw [if_pos hfree] at h
      obtain rfl := Option.some.inj h
      refine ⟨fun t ht => ?_, fun _ => rfl, (fun hp => by cases hp), (fun hp => by cases hp)⟩
      have hmtx := hop t ht
      rw [hfree] at hmtx
      cases hmtx
    · rw [if_neg hfree] at h
      cases h
  -- the rest leaves the mutex and the list alone
  all_goals try split at h
  all_goals simp only [Option.some.injEq, reduceCtorEq] at h
  all_goals subst h
  all_goals
    refine hi.of_unreg rfl rfl rfl ?_ ?_ <;>
      simp [hpc, MiscUnregPc.holdsMtx, MiscUnregPc.pastUnlist]

theorem miscStep_invariant (s : MiscState ι) (a : Act ι) (s' : MiscState ι)
    (hi : MiscInvariant s) (h : miscStep ops s a = some s') : MiscInvariant s' := by
  cases a with
  | thread t m => exact (miscThreadStep_effect h).invariant hi
  | unreg m => exact miscUnregStep_invariant hi h

/-! ## The device under the mutex -/

omit [Fintype ι] [DecidableEq ι] in
theorem MiscInvariant.window_empty {s : MiscState ι} (hi : MiscInvariant s)
    (hp : s.unreg.pastUnlist = true) (t : ι) : s.pc t ≠ .incOpens := by
  intro hpc
  have hin := hi.noOpener hp t
  rw [hpc] at hin
  cases hin

omit [Fintype ι] [DecidableEq ι] in
theorem miscUnregStep_matched {s s' : MiscState ι} {m : UnregMove}
    (h : miscUnregStep s m = some s') :
    s'.asDev = s.asDev ∨ unregStep s.asDev m = some s'.asDev := by
  unfold miscUnregStep at h
  split at h <;> rename_i hpc
  all_goals try split at h
  all_goals simp only [Option.some.injEq, reduceCtorEq] at h
  all_goals subst h
  all_goals first
    | (left; simp [MiscState.asDev, hpc, MiscUnregPc.asDev, MiscUnregPc.pastDebugfsExit]; done)
    | (right; simp_all [unregStep, MiscState.asDev, MiscUnregPc.asDev,
        MiscUnregPc.pastDebugfsExit])

/-- Taking the mutex, dropping the minor and letting go are no steps of the device; at the end of
the wait nobody is inside an open. -/
theorem misc_simulates (ops : Option Ops) :
    Simulates (miscStep ops) (step ops) (MiscState.asDev (ι := ι)) MiscInvariant WindowEmpty where
  keeps := miscStep_invariant
  matched := by
    intro s a s' hi h
    cases a with
    | thread t m =>
      refine ⟨[.thread t m], ?_, ?_, fun _ _ => trivial⟩
      · simp only [run_cons, step, (miscThreadStep_effect h).device]
        rfl
      · rintro ⟨ha, -, -⟩
        cases ha
    | unreg m =>
      rcases miscUnregStep_matched h with heq | hstep
      · exact ⟨[], by rw [heq]; rfl, trivial⟩
      · refine ⟨[.unreg m], by simp only [run_cons, step, hstep]; rfl, ?_, fun _ _ => trivial⟩
        rintro ⟨-, hwait, -⟩
        have hp : s.unreg.pastUnlist = true := by
          cases hu : s.unreg <;>
            simp_all [MiscState.asDev, MiscUnregPc.asDev, MiscUnregPc.pastUnlist]
        exact hi.window_empty hp

theorem misc_asDev {acts : List (Act ι)} {s : MiscState ι}
    (hr : run (miscStep ops) (miscInit ι) acts = some s) :
    MiscInvariant s ∧ Counted s.asDev ∧ Closed s.asDev := by
  obtain ⟨hi, bs, hb, hg⟩ := (misc_simulates ops).run miscInvariant_init hr
  exact ⟨hi, reachable_counted ⟨bs, hb⟩, closed_run bs _ hg hb⟩

/-! ## Once the minor is out of the list -/

/-- Outside an open a thread can only give descriptors and counts back. -/
theorem threadStep_shrinks {s s' : State ι} {t : ι} {m : Move} (hin : (s.pc t).inOpen = false)
    (h : threadStep ops s t m = some s') : s'.live ⊆ s.live ∧ s'.opens ≤ s.opens := by
  unfold threadStep at h
  split at h <;> rename_i hpc
  all_goals try rw [hpc] at hin
  all_goals try split at h
  all_goals simp only [Option.some.injEq, reduceCtorEq] at h
  all_goals subst h
  all_goals first
    | exact ⟨fun _ hf => hf, le_rfl⟩
    | exact ⟨Finset.erase_subset _ _, le_rfl⟩
    | exact ⟨fun _ hf => hf, sub_le_self _ zero_le_one⟩
    | cases hin

structure Unlisted (s₀ s : MiscState ι) : Prop where
  invariant : MiscInvariant s
  past : s.unreg.pastUnlist = true
  live_subset : s.live ⊆ s₀.live
  opens_le : s.opens ≤ s₀.opens

omit [Fintype ι] [DecidableEq ι] in
theorem miscUnregStep_frame {s s' : MiscState ι} {m : UnregMove}
    (h : miscUnregStep s m = some s') :
    s'.live = s.live ∧ s'.opens = s.opens ∧
      (s.unreg.pastUnlist = true → s'.unreg.pastUnlist = true) := by
  unfold miscUnregStep at h
  split at h <;> rename_i hpc
  all_goals try split at h
  all_goals simp only [Option.some.injEq, reduceCtorEq] at h
  all_goals subst h
  all_goals exact ⟨rfl, rfl, by simp [hpc, MiscUnregPc.pastUnlist]⟩

theorem miscStep_unlisted (s₀ s : MiscState ι) (a : Act ι) (s' : MiscState ι)
    (hu : Unlisted s₀ s) (h : miscStep ops s a = some s') : Unlisted s₀ s' := by
  have hi' := miscStep_invariant s a s' hu.invariant h
  cases a with
  | thread t m =>
    have e := miscThreadStep_effect h
    obtain ⟨hlive, hopens⟩ :=
      threadStep_shrinks (hu.invariant.noOpener hu.past t) e.device
    exact ⟨hi', by rw [e.unreg_eq]; exact hu.past, fun _ hf => hu.live_subset (hlive hf),
      hopens.trans hu.opens_le⟩
  | unreg m =>
    obtain ⟨hlive, hopens, hp⟩ := miscUnregStep_frame h
    refine ⟨hi', hp hu.past, ?_, ?_⟩
    · rw [hlive]
      exact hu.live_subset
    · rw [hopens]
      exact hu.opens_le

/-- Once `misc_deregister` has dropped the minor, no thread is inside an open in any continuation,
and the descriptors and `opens` only go down; what the unregistration finds at 0 stays 0. -/
theorem misc_closed (ops : Option Ops) (s s' : MiscState ι)
    (hs : Reachable (miscStep ops) (miscInit ι) s) (hp : s.unreg.pastUnlist = true)
    (hs' : Reachable (miscStep ops) s s') :
    (∀ t, (s'.pc t).inOpen = false) ∧ s'.live ⊆ s.live ∧ s'.opens ≤ s.opens ∧
      (s.unreg = .returned .opensZero → s'.opens = 0 ∧ s'.live = ∅) := by
  obtain ⟨acts, hr⟩ := hs
  obtain ⟨hi, hc, hcl⟩ := misc_asDev hr
  have hu : Unlisted s s' :=
    run_invariant (miscStep_unlisted s) ⟨hi, hp, fun _ hf => hf, le_rfl⟩ hs'
  refine ⟨hu.invariant.noOpener hu.past, hu.live_subset, hu.opens_le, fun hret => ?_⟩
  have hret' : s.asDev.unreg = .returned .opensZero := congrArg MiscUnregPc.asDev hret
  have h0 : s.opens = 0 := (hcl (by rw [hret']; rfl)).1
  have hlive : s.live = ∅ := hc.live_empty h0
  have hc' : Counted s'.asDev := by
    obtain ⟨bs, hb⟩ := hs'
    have hall : run (miscStep ops) (miscInit ι) (acts ++ bs) = some s' := by
      rw [run_append, hr]
      exact hb
    exact (misc_asDev hall).2.1
  have hnonneg : (0 : ℤ) ≤ s'.opens := by
    have hopens : s'.opens = _ := hc'.opens_eq
    omega
  have hle := hu.opens_le
  refine ⟨by omega, ?_⟩
  rw [Finset.eq_empty_iff_forall_notMem]
  intro f hf
  have hmem := hu.live_subset hf
  rw [hlive] at hmem
  exact Finset.notMem_empty f hmem

/-- One thread opens and closes while the unregistration waits. -/
def miscCloseDuringWait : List (Act Unit) :=
  [.thread () .callOpen, .thread () .advance, .thread () (.moduleGet true), .thread () .advance,
    .thread () .advance, .thread () (.opsOpen true), .thread () .advance, .thread () (.openReturn 3),
    .unreg .call, .unreg .advance, .unreg .advance, .unreg .advance, .unreg .advance,
    .unreg .advance, .thread () (.callRelease 3), .thread () .advance, .thread () .advance,
    .thread () .advance, .thread () .advance, .thread () .advance, .thread () .advance,
    .thread () .advance, .unreg .advance, .unreg .advance, .unreg .advance]

theorem misc_closed_after_close_during_wait :
    ∃ s, run (miscStep none) (miscInit Unit) miscCloseDuringWait = some s ∧
      s.unreg = .returned .opensZero ∧ s.opens = 0 ∧ s.live = ∅ := by
  obtain ⟨s, hs, hret⟩ : ∃ s, run (miscStep none) (miscInit Unit) miscCloseDuringWait = some s ∧
      s.unreg = .returned .opensZero := ⟨_, rfl, rfl⟩
  have hp : s.unreg.pastUnlist = true := by
    rw [hret]
    rfl
  exact ⟨s, hs, hret, (misc_closed none s s ⟨_, hs⟩ hp (.refl s)).2.2.2 hret⟩

/-! ## The tail of the last release -/

theorem reachable_released {s₁ s : State ι} (hi : Released s₁)
    (hz : s₁.unreg.leftAtZero = true) (h : Reachable (step ops) s₁ s) :
    Released s ∧ s.unreg.leftAtZero = true := by
  refine run_invariant (I := fun s => Released s ∧ s.unreg.leftAtZero = true) ?_ ⟨hi, hz⟩ h
  rintro s a s' ⟨hi, hz⟩ hs
  have hg : TailEmpty s a := by
    rintro ⟨-, hwait, -⟩
    rw [hwait] at hz
    cases hz
  exact ⟨step_released s a s' hi hg hs, (step_leftAtZero hi.counted hz hs).1⟩

/-- The state after `nv_char_debugfs_exit` and the clearing of `registered`. -/
def MiscState.afterWait (s : MiscState ι) : MiscState ι :=
  { s with registered := false, unreg := .returned .opensZero }

omit [Fintype ι] [DecidableEq ι] in
theorem miscUnregStep_endsWait {s s₁ : MiscState ι} (hwait : s.unreg = .waitOpens)
    (h0 : s.opens = 0) (h : miscUnregStep s .advance = some s₁) :
    s₁ = { s with unreg := .debugfsExit .opensZero } := by
  simp only [miscUnregStep, hwait] at h
  rw [if_pos h0] at h
  exact (Option.some.inj h).symm

/-- A thread past its decrement still has an access to the device ahead of it. -/
theorem misc_devAccess_of_pastDec (ops : Option Ops) {s : MiscState ι} {t : ι}
    (hin : (s.pc t).inOpen = false) (hp : (s.pc t).pastDec = true) :
    ∃ s', Reachable (miscStep ops) s s' ∧ s'.unreg = s.unreg ∧ (s'.pc t).devAccess ≠ none := by
  by_cases hacc : (s.pc t).devAccess = none
  · -- only `module_put` stands between the decrement and the tracepoint
    have hpc : s.pc t = .modulePut .release := by
      cases hpc : s.pc t with
      | modulePut c =>
        cases c with
        | openFailed => rw [hpc] at hp; cases hp
        | release => rfl
      | _ => rw [hpc] at hp hacc; first | (cases hp; done) | cases hacc
    have hpc' : s.asDev.pc t = .modulePut .release := hpc
    let d := { s.asDev with moduleRefs := s.asDev.moduleRefs - 1 }.goto t .traceDevt
    refine ⟨s.setDev d, ⟨[.thread t .advance], ?_⟩, rfl, ?_⟩
    · simp only [run_cons, run_nil, miscStep, miscThreadStep, threadStep, hpc', hin,
        Option.map_some, Bool.false_and, Bool.false_eq_true, if_false, Option.bind_some]
      rfl
    · change (d.pc t).devAccess ≠ none
      rw [goto_pc_self]
      simp [Pc.devAccess]
  · exact ⟨s, .refl s, rfl, hacc⟩

/-- At the end of the wait of a misc device, its memory is free of accesses by releases from the
return on exactly when no release is between its decrement and its tracepoint. -/
theorem misc_no_dev_access_iff (ops : Option Ops) (s s₁ : MiscState ι)
    (hs : Reachable (miscStep ops) (miscInit ι) s) (hwait : s.unreg = .waitOpens)
    (h0 : s.opens = 0) (h : miscStep ops s (.unreg .advance) = some s₁) :
    (∀ s', Reachable (miscStep ops) s₁ s' → s'.unreg = .returned .opensZero →
      ∀ t, (s'.pc t).devAccess = none) ↔ ∀ t, (s.pc t).pastDec = false := by
  obtain ⟨acts, hr⟩ := hs
  obtain ⟨hi, hc, hcl⟩ := misc_asDev hr
  have hp : s.unreg.pastUnlist = true := by
    rw [hwait]
    rfl
  have hs₁ := miscUnregStep_endsWait hwait h0 h
  constructor
  · intro hall t
    by_contra htail
    have htail' : (s.pc t).pastDec = true := by simpa using htail
    obtain ⟨s', hr', hu', hacc⟩ :=
      misc_devAccess_of_pastDec (s := s.afterWait) ops (hi.noOpener hp t) htail'
    have hret : Reachable (miscStep ops) s₁ s.afterWait := by
      rw [hs₁]
      exact ⟨[.unreg .advance, .unreg .advance], rfl⟩
    obtain ⟨bs, hb⟩ := hr'
    exact hacc (hall s' (hret.run bs hb) hu' t)
  · intro htail s' hs' _
    have hreleased : Released s₁.asDev := by
      have hstep : step ops s.asDev (.unreg .advance) = some s₁.asDev := by
        rcases miscUnregStep_matched h with heq | hstep
        · rw [hs₁] at heq
          have hu := congrArg State.unreg heq
          simp [MiscState.asDev, MiscUnregPc.asDev, hwait] at hu
        · exact hstep
      have htl : Tailless s.asDev := by
        intro hz
        have hw : s.asDev.unreg = .waitOpens := congrArg MiscUnregPc.asDev hwait
        rw [hw] at hz
        cases hz
      exact step_released s.asDev _ _ ⟨hc, hcl, htl⟩
        (fun _ t => ⟨hi.window_empty hp t, htail t⟩) hstep
    have hz : s₁.asDev.unreg.leftAtZero = true := by
      rw [hs₁]
      rfl
    have hi₁ := miscStep_invariant s _ s₁ hi h
    obtain ⟨-, hreach⟩ := (misc_simulates ops).reachable hi₁ hs'
    obtain ⟨hrel, hz'⟩ := reachable_released hreleased hz hreach
    exact noDevAccess_of_tailless hrel.counted hrel.closed hrel.tailless hz'

/-- The close has decremented `opens` and not yet woken the waiter when the wait looks at it. -/
def miscCloseOvertaken : List (Act Unit) :=
  [.thread () .callOpen, .thread () .advance, .thread () (.moduleGet true), .thread () .advance,
    .thread () .advance, .thread () (.opsOpen true), .thread () .advance, .thread () (.openReturn 3),
    .unreg .call, .unreg .advance, .unreg .advance, .unreg .advance, .unreg .advance,
    .unreg .advance, .thread () (.callRelease 3), .thread () .advance, .thread () .advance,
    .thread () .advance]

theorem misc_dev_access_after_overtaken_close :
    ∃ s s₁, run (miscStep none) (miscInit Unit) miscCloseOvertaken = some s ∧
      miscStep none s (.unreg .advance) = some s₁ ∧
      ¬ ∀ s', Reachable (miscStep none) s₁ s' → s'.unreg = .returned .opensZero →
        ∀ t, (s'.pc t).devAccess = none := by
  obtain ⟨s, s₁, hs, hwait, h0, h₁, hpc⟩ :
      ∃ s s₁, run (miscStep none) (miscInit Unit) miscCloseOvertaken = some s ∧
        s.unreg = .waitOpens ∧ s.opens = 0 ∧ miscStep none s (.unreg .advance) = some s₁ ∧
        s.pc () = .wakeUp .release := ⟨_, _, rfl, rfl, rfl, rfl, rfl⟩
  refine ⟨s, s₁, hs, h₁, fun hall => ?_⟩
  have htail := (misc_no_dev_access_iff none s s₁ ⟨_, hs⟩ hwait h0 h₁).mp hall ()
  rw [hpc] at htail
  cases htail

end LinuxDriverFramework.NvChar.Interleaving
