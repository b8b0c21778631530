import LinuxDriverFramework.Foundations.Runs
import Mathlib.Logic.Function.Basic
import Mathlib.Data.List.Induction
import Mathlib.Logic.Relation

/-! # Calls that work under one lock

Threads call code that begins on its own, takes a lock, works on the shared state in small steps,
lets the lock go, and goes on by itself until it returns. Nobody but the holder works on the shared
state.

* `Code`, `step`: the three parts of a call, and the threads one step at a time.
* `serial`: the calls of a list one after the other, each as one step of a sequential program.
* `Code.Meets`: what a call does as a whole is one step of that program.
* `Linearized`: the results are those of the sequential program, in an order in which each call has
  a place between its begin and its return.
* `linearized_throughout`. -/

namespace Foundations
set_option autoImplicit false

namespace Locked

structure Code (S C L R : Type) where
  /-- up to the lock: a call that returns without it, or what the call takes along -/
  before : C → Except R L
  /-- one step under the lock, or `none` when it is let go -/
  work : L → S → Option (L × S)
  /-- one step after that: what the call returns, or what it goes on with -/
  after : L → Except R L

variable {ι S C L R : Type}

/-- Where a thread is; `since` and `point` are lengths of the log. A call that leaves has a value to
return or goes on without the lock. -/
inductive Pc (C L R : Type)
  | idle
  | wants (c : C) (since : ℕ) (l : L)
  | holds (c : C) (since : ℕ) (l : L)
  | leaves (c : C) (since point : ℕ) (e : Except R L)

/-- A call that has returned. -/
structure Done (C R : Type) where
  call : C
  result : R
  /-- how many calls had their place when it began -/
  since : ℕ
  point : ℕ
  /-- how many had theirs when it returned -/
  until_ : ℕ

structure State (ι S C L R : Type) where
  shared : S
  holder : Option ι
  pc : ι → Pc C L R
  /-- the calls in the order of their places -/
  log : List C
  done : List (Done C R)

def State.init (ι C L R : Type) (s₀ : S) : State ι S C L R where
  shared := s₀
  holder := none
  pc := fun _ => .idle
  log := []
  done := []

inductive Act (ι C : Type)
  | call (t : ι) (c : C)
  | advance (t : ι)

variable [DecidableEq ι]

def State.goto (s : State ι S C L R) (t : ι) (p : Pc C L R) : State ι S C L R :=
  { s with pc := Function.update s.pc t p }

def step (code : Code S C L R) (s : State ι S C L R) : Act ι C → Option (State ι S C L R)
  | .call t c =>
    match s.pc t with
    | .idle =>
      match code.before c with
      | .error r =>
        some { s.goto t (.leaves c s.log.length s.log.length (.error r)) with log := s.log ++ [c] }
      | .ok l => some (s.goto t (.wants c s.log.length l))
    | _ => none
  | .advance t =>
    match s.pc t with
    | .idle => none
    | .wants c k l =>
      match s.holder with
      | none => some { s.goto t (.holds c k l) with holder := some t }
      | some _ => none
    | .holds c k l =>
      match code.work l s.shared with
      | some (l', s') => some { s.goto t (.holds c k l') with shared := s' }
      | none =>
        some { s.goto t (.leaves c k s.log.length (.ok l)) with
          holder := none
          log := s.log ++ [c] }
    | .leaves c k i (.ok l) => some (s.goto t (.leaves c k i (code.after l)))
    | .leaves c k i (.error r) =>
      some { s.goto t .idle with done := ⟨c, r, k, i, s.log.length⟩ :: s.done }

/-! ## The sequential program -/

/-- The calls one after the other: the state they leave and their results. -/
def serial (atomic : C → S → S × R) : S → List C → S × List R
  | s, [] => (s, [])
  | s, c :: log =>
    let rest := serial atomic (atomic c s).1 log
    (rest.1, (atomic c s).2 :: rest.2)

/-- Some work under the lock. -/
def Code.Works (code : Code S C L R) : L × S → L × S → Prop :=
  Relation.ReflTransGen fun a b => code.work a.1 a.2 = some b

/-- What a call that leaves may return in the end. -/
inductive Code.Returns (code : Code S C L R) : Except R L → R → Prop
  | now (r : R) : code.Returns (.error r) r
  | later {l : L} {r : R} (h : code.Returns (code.after l) r) : code.Returns (.ok l) r

/-- A call that nobody disturbs does what the sequential program does. -/
structure Code.Meets (code : Code S C L R) (atomic : C → S → S × R) : Prop where
  refused : ∀ c r, code.before c = .error r → ∀ s, atomic c s = (s, r)
  worked : ∀ c l, code.before c = .ok l → ∀ s l' s', code.Works (l, s) (l', s') →
    code.work l' s' = none →
      (atomic c s).1 = s' ∧ ∀ r, code.Returns (.ok l') r → (atomic c s).2 = r

structure Linearized (atomic : C → S → S × R) (s₀ : S) (s : State ι S C L R) : Prop where
  /-- with the lock free the shared state is that of the sequential program -/
  shared : s.holder = none → s.shared = (serial atomic s₀ s.log).1
  call : ∀ d ∈ s.done, s.log[d.point]? = some d.call
  result : ∀ d ∈ s.done, (serial atomic s₀ s.log).2[d.point]? = some d.result
  during : ∀ d ∈ s.done, d.since ≤ d.point ∧ d.point < d.until_
  distinct : s.done.Pairwise fun d d' => d.point ≠ d'.point
  /-- the log has no other calls than these and those about to return -/
  covered : ∀ i < s.log.length, (∃ d ∈ s.done, d.point = i) ∨
    ∃ t c k e, s.pc t = .leaves c k i e

omit [DecidableEq ι] in
theorem length_serial (atomic : C → S → S × R) (s : S) (log : List C) :
    (serial atomic s log).2.length = log.length := by
  induction log generalizing s with
  | nil => rfl
  | cons c log ih => exact congrArg Nat.succ (ih (atomic c s).1)

omit [DecidableEq ι] in
theorem serial_append (atomic : C → S → S × R) (s : S) (log : List C) (c : C) :
    serial atomic s (log ++ [c]) =
      ((atomic c (serial atomic s log).1).1,
        (serial atomic s log).2 ++ [(atomic c (serial atomic s log).1).2]) := by
  induction log generalizing s with
  | nil => rfl
  | cons c' log ih =>
    rw [List.cons_append, serial, ih]
    rfl

/-! ## The invariant -/

variable {code : Code S C L R} {atomic : C → S → S × R} {s₀ : S} {s s' : State ι S C L R}

/-- What is known of one thread. -/
def Good (code : Code S C L R) (atomic : C → S → S × R) (s₀ : S) (t : ι) (s : State ι S C L R) :
    Pc C L R → Prop
  | .idle => True
  | .wants c k l => code.before c = .ok l ∧ k ≤ s.log.length
  | .holds c k l => s.holder = some t ∧ k ≤ s.log.length ∧
      ∃ l₀, code.before c = .ok l₀ ∧ code.Works (l₀, (serial atomic s₀ s.log).1) (l, s.shared)
  | .leaves c k i e => s.log[i]? = some c ∧ k ≤ i ∧ (∀ d ∈ s.done, d.point ≠ i) ∧
      ∀ r, code.Returns e r → (serial atomic s₀ s.log).2[i]? = some r

def Pc.point : Pc C L R → Option ℕ
  | .leaves _ _ i _ => some i
  | _ => none

structure Invariant (code : Code S C L R) (atomic : C → S → S × R) (s₀ : S)
    (s : State ι S C L R) : Prop where
  shared : s.holder = none → s.shared = (serial atomic s₀ s.log).1
  good : ∀ t, Good code atomic s₀ t s (s.pc t)
  call : ∀ d ∈ s.done, s.log[d.point]? = some d.call
  result : ∀ d ∈ s.done, (serial atomic s₀ s.log).2[d.point]? = some d.result
  during : ∀ d ∈ s.done, d.since ≤ d.point ∧ d.point < d.until_
  distinct : s.done.Pairwise fun d d' => d.point ≠ d'.point
  apart : ∀ t u i, (s.pc t).point = some i → (s.pc u).point = some i → t = u
  covered : ∀ i < s.log.length, (∃ d ∈ s.done, d.point = i) ∨ ∃ t, (s.pc t).point = some i

omit [DecidableEq ι] in
theorem Invariant.linearized (h : Invariant code atomic s₀ s) : Linearized atomic s₀ s where
  shared := h.shared
  call := h.call
  result := h.result
  during := h.during
  distinct := h.distinct
  covered i hi := by
    refine (h.covered i hi).imp_right ?_
    rintro ⟨t, ht⟩
    cases hpc : s.pc t <;> rw [hpc] at ht <;> cases ht
    exact ⟨t, _, _, _, hpc⟩

omit [DecidableEq ι] in
theorem invariant_init (code : Code S C L R) (atomic : C → S → S × R) (s₀ : S) :
    Invariant code atomic s₀ (State.init ι C L R s₀) where
  shared _ := rfl
  good _ := trivial
  call d hd := absurd hd List.not_mem_nil
  result d hd := absurd hd List.not_mem_nil
  during d hd := absurd hd List.not_mem_nil
  distinct := List.Pairwise.nil
  apart t u i ht := by cases ht
  covered i hi := absurd hi (Nat.not_lt_zero i)

theorem goto_self (s : State ι S C L R) (t : ι) (p : Pc C L R) : (s.goto t p).pc t = p := by
  simp only [State.goto, Function.update_self]

theorem goto_other (s : State ι S C L R) {t u : ι} (p : Pc C L R) (h : u ≠ t) :
    (s.goto t p).pc u = s.pc u := by
  simp only [State.goto, Function.update_of_ne h]

omit [DecidableEq ι] in
theorem point_lt {t : ι} {p : Pc C L R} {i : ℕ} (h : Good code atomic s₀ t s p)
    (hp : p.point = some i) : i < s.log.length := by
  cases p <;> cases hp
  exact (List.getElem?_eq_some_iff.mp h.1).1

/-- The thread goes where it has the same place in the log. -/
theorem apart_goto {t : ι} {p : Pc C L R} (h : Invariant code atomic s₀ s)
    (hp : p.point = (s.pc t).point) :
    ∀ u v i, ((s.goto t p).pc u).point = some i → ((s.goto t p).pc v).point = some i → u = v := by
  have hne : ∀ u i, ((s.goto t p).pc u).point = some i → (s.pc u).point = some i := by
    intro u i hu
    by_cases hut : u = t
    · subst hut
      rw [goto_self, hp] at hu
      exact hu
    · rw [goto_other s p hut] at hu
      exact hu
  exact fun u v i hu hv => h.apart u v i (hne u i hu) (hne v i hv)

theorem covered_goto {t : ι} {p : Pc C L R} (h : Invariant code atomic s₀ s)
    (hp : p.point = (s.pc t).point) :
    ∀ i < s.log.length, (∃ d ∈ s.done, d.point = i) ∨ ∃ u, ((s.goto t p).pc u).point = some i := by
  intro i hi
  refine (h.covered i hi).imp_right ?_
  rintro ⟨u, hu⟩
  refine ⟨u, ?_⟩
  by_cases hut : u = t
  · subst hut
    rw [goto_self, hp]
    exact hu
  · rw [goto_other s p hut]
    exact hu

/-! ## The steps -/

omit [DecidableEq ι] in
/-- More calls in the log do not change the results of those before. -/
theorem serial_result {log log' : List C} (hlog : ∃ l, log' = log ++ l) {i : ℕ} {r : R}
    (h : (serial atomic s₀ log).2[i]? = some r) : (serial atomic s₀ log').2[i]? = some r := by
  obtain ⟨l, rfl⟩ := hlog
  induction l using List.reverseRecOn with
  | nil =>
    rw [List.append_nil]
    exact h
  | append_singleton l c ih =>
    rw [← List.append_assoc, serial_append,
      List.getElem?_append_left (List.getElem?_eq_some_iff.mp ih).1]
    exact ih

omit [DecidableEq ι] in
theorem Good.transfer {u : ι} {p : Pc C L R} (h : Good code atomic s₀ u s p)
    (hlog : ∃ l, s'.log = s.log ++ l)
    (hhold : ∀ c k l, p = .holds c k l →
      s'.holder = s.holder ∧ s'.shared = s.shared ∧
        (serial atomic s₀ s'.log).1 = (serial atomic s₀ s.log).1)
    (hdone : ∀ c k i e, p = .leaves c k i e → ∀ d ∈ s'.done, d.point ≠ i) :
    Good code atomic s₀ u s' p := by
  have hlen : s.log.length ≤ s'.log.length := by
    obtain ⟨l, hlog⟩ := hlog
    rw [hlog, List.length_append]
    exact Nat.le_add_right _ _
  cases p with
  | idle => trivial
  | wants c k l => exact ⟨h.1, Nat.le_trans h.2 hlen⟩
  | holds c k l =>
    obtain ⟨hholder, hk, hworks⟩ := h
    obtain ⟨hh, hs, hl⟩ := hhold c k l rfl
    refine ⟨hh.trans hholder, Nat.le_trans hk hlen, ?_⟩
    rw [hs, hl]
    exact hworks
  | leaves c k i e =>
    obtain ⟨hlook, hk, -, hret⟩ := h
    have hi := (List.getElem?_eq_some_iff.mp hlook).1
    refine ⟨?_, hk, hdone c k i e rfl, fun r hr => serial_result hlog (hret r hr)⟩
    obtain ⟨l, hlog⟩ := hlog
    rw [hlog, List.getElem?_append_left hi]
    exact hlook

omit [DecidableEq ι] in
/-- Nobody else is at work. -/
theorem not_holds (h : ∀ u, Good code atomic s₀ u s (s.pc u)) {t : ι}
    (hfree : ∀ u, s.holder = some u → u = t) {u : ι} (hu : u ≠ t) {c : C} {k : ℕ} {l : L} :
    s.pc u ≠ .holds c k l := by
  intro hpc
  have hg := h u
  rw [hpc] at hg
  exact hu (hfree u hg.1)

omit [DecidableEq ι] in
theorem Invariant.done_ne (h : Invariant code atomic s₀ s) {u : ι} {c : C} {k i : ℕ}
    {e : Except R L} (hpc : s.pc u = .leaves c k i e) : ∀ d ∈ s.done, d.point ≠ i := by
  have hg := h.good u
  rw [hpc] at hg
  exact hg.2.2.1

/-- A step of thread `t` that gives no call a place, and no call returns. -/
theorem Invariant.move {t : ι} {p : Pc C L R} (h : Invariant code atomic s₀ s)
    (hlog : s'.log = s.log) (hdone : s'.done = s.done) (hpc : s'.pc = (s.goto t p).pc)
    (hpoint : p.point = (s.pc t).point)
    (hshared : s'.holder = none → s'.shared = (serial atomic s₀ s.log).1)
    (hself : Good code atomic s₀ t s' p)
    (hother : ∀ u, u ≠ t → ∀ c k l, s.pc u = .holds c k l →
      s'.holder = s.holder ∧ s'.shared = s.shared) : Invariant code atomic s₀ s' where
  shared := by
    rw [hlog]
    exact hshared
  good u := by
    rw [hpc]
    by_cases hut : u = t
    · subst hut
      rw [goto_self]
      exact hself
    · rw [goto_other s p hut]
      refine (h.good u).transfer ⟨[], hlog.trans (List.append_nil _).symm⟩
        (fun c k l hholds => ?_) fun c k i e hleaves => ?_
      · obtain ⟨hholder, hsame⟩ := hother u hut c k l hholds
        exact ⟨hholder, hsame, by rw [hlog]⟩
      · rw [hdone]
        exact h.done_ne hleaves
  call := by
    rw [hlog, hdone]
    exact h.call
  result := by
    rw [hlog, hdone]
    exact h.result
  during := by
    rw [hdone]
    exact h.during
  distinct := by
    rw [hdone]
    exact h.distinct
  apart := by
    rw [hpc]
    exact apart_goto h hpoint
  covered := by
    rw [hlog, hdone, hpc]
    exact covered_goto h hpoint

/-- A step of thread `t` that gives its call the next place. -/
theorem Invariant.commit {t : ι} {c : C} {k : ℕ} {e : Except R L} (h : Invariant code atomic s₀ s)
    (hlog : s'.log = s.log ++ [c]) (hdone : s'.done = s.done)
    (hpc : s'.pc = (s.goto t (.leaves c k s.log.length e)).pc) (hold : (s.pc t).point = none)
    (hk : k ≤ s.log.length)
    (hshared : s'.holder = none → s'.shared = (atomic c (serial atomic s₀ s.log).1).1)
    (hreturns : ∀ r, code.Returns e r → (atomic c (serial atomic s₀ s.log).1).2 = r)
    (hother : ∀ u, u ≠ t → ∀ c' k l, s.pc u = .holds c' k l → s'.holder = s.holder ∧
      s'.shared = s.shared ∧
        (atomic c (serial atomic s₀ s.log).1).1 = (serial atomic s₀ s.log).1) :
    Invariant code atomic s₀ s' := by
  have hcases : ∀ u i, (s'.pc u).point = some i →
      (u = t ∧ i = s.log.length) ∨ ((s.pc u).point = some i ∧ i < s.log.length) := by
    intro u i hu
    rw [hpc] at hu
    by_cases hut : u = t
    · subst hut
      rw [goto_self] at hu
      exact .inl ⟨rfl, (Option.some.inj hu).symm⟩
    · rw [goto_other s _ hut] at hu
      exact .inr ⟨hu, point_lt (h.good u) hu⟩
  have hmore : ∃ l, s'.log = s.log ++ l := ⟨[c], hlog⟩
  refine
    { shared := fun hfree => ?_
      good := fun u => ?_
      call := fun d hd => ?_
      result := fun d hd => serial_result hmore (h.result d (hdone ▸ hd))
      during := by rw [hdone]; exact h.during
      distinct := by rw [hdone]; exact h.distinct
      apart := fun u v i hu hv => ?_
      covered := fun i hi => ?_ }
  · rw [hlog, serial_append]
    exact hshared hfree
  · rw [hpc]
    by_cases hut : u = t
    · subst hut
      rw [goto_self]
      refine ⟨by rw [hlog]; exact List.getElem?_concat_length, hk, fun d hd => ?_, fun r hr => ?_⟩
      · exact Nat.ne_of_lt (List.getElem?_eq_some_iff.mp (h.call d (hdone ▸ hd))).1
      · rw [hlog, serial_append, hreturns r hr, ← length_serial atomic s₀ s.log]
        exact List.getElem?_concat_length
    · rw [goto_other s _ hut]
      refine (h.good u).transfer hmore (fun c' k l hholds => ?_) fun c k i e hleaves => ?_
      · obtain ⟨hholder, hsame, hserial⟩ := hother u hut c' k l hholds
        refine ⟨hholder, hsame, ?_⟩
        rw [hlog, serial_append]
        exact hserial
      · rw [hdone]
        exact h.done_ne hleaves
  · have hlook := h.call d (hdone ▸ hd)
    rw [hlog, List.getElem?_append_left (List.getElem?_eq_some_iff.mp hlook).1]
    exact hlook
  · rcases hcases u i hu with ⟨rfl, hi⟩ | ⟨hu', hi⟩
    · rcases hcases v i hv with ⟨rfl, -⟩ | ⟨-, hi'⟩
      · rfl
      · omega
    · rcases hcases v i hv with ⟨-, hi'⟩ | ⟨hv', -⟩
      · omega
      · exact h.apart u v i hu' hv'
  · rw [hlog, List.length_append, List.length_singleton] at hi
    rw [hdone, hpc]
    by_cases hlast : i = s.log.length
    · exact .inr ⟨t, by rw [goto_self, hlast]; rfl⟩
    · refine (h.covered i (by omega)).imp_right ?_
      rintro ⟨u, hu⟩
      refine ⟨u, ?_⟩
      rw [goto_other s _]
      · exact hu
      · rintro rfl
        rw [hold] at hu
        cases hu

theorem step_call {t : ι} {c : C} (hm : code.Meets atomic) (h : Invariant code atomic s₀ s)
    (hs : step code s (.call t c) = some s') : Invariant code atomic s₀ s' := by
  simp only [step] at hs
  cases hpc : s.pc t <;> rw [hpc] at hs <;> try cases hs
  have hnone : (s.pc t).point = none := by
    rw [hpc]
    rfl
  cases hb : code.before c with
  | error r =>
    simp only [hb, Option.some.injEq] at hs
    subst hs
    have hatomic := hm.refused c r hb (serial atomic s₀ s.log).1
    refine h.commit (t := t) (k := s.log.length) (e := .error r) rfl rfl rfl hnone (Nat.le_refl _)
      (fun hfree => ?_) (fun r' hr' => ?_) fun u _ c' k l _ => ⟨rfl, rfl, by rw [hatomic]⟩
    · rw [hatomic]
      exact h.shared hfree
    · cases hr'
      rw [hatomic]
  | ok l =>
    simp only [hb, Option.some.injEq] at hs
    subst hs
    exact h.move (t := t) (p := .wants c s.log.length l) rfl rfl rfl hnone.symm h.shared
      ⟨hb, Nat.le_refl _⟩ fun u _ c k l _ => ⟨rfl, rfl⟩

theorem step_lock {t : ι} {c : C} {k : ℕ} {l : L} (h : Invariant code atomic s₀ s)
    (hpc : s.pc t = .wants c k l) (hs : step code s (.advance t) = some s') :
    Invariant code atomic s₀ s' := by
  have hg := h.good t
  rw [hpc] at hg
  simp only [step, hpc] at hs
  cases hh : s.holder with
  | some _ => simp [hh] at hs
  | none =>
    simp only [hh, Option.some.injEq] at hs
    subst hs
    refine h.move (t := t) (p := .holds c k l) rfl rfl rfl (by rw [hpc]; rfl)
      (fun hn => by cases hn) ⟨rfl, hg.2, l, hg.1, ?_⟩ fun u hut c k l hholds => ?_
    · change code.Works (l, _) (l, s.shared)
      rw [h.shared hh]
      exact .refl
    · refine absurd hholds (not_holds h.good (fun v hv => ?_) hut)
      rw [hh] at hv
      cases hv

theorem step_work {t : ι} {c : C} {k : ℕ} {l : L} (hm : code.Meets atomic)
    (h : Invariant code atomic s₀ s) (hpc : s.pc t = .holds c k l)
    (hs : step code s (.advance t) = some s') : Invariant code atomic s₀ s' := by
  have hg := h.good t
  rw [hpc] at hg
  obtain ⟨hholder, hk, l₀, hb, hworks⟩ := hg
  have hother : ∀ u, u ≠ t → ∀ c k l, s.pc u ≠ .holds c k l := fun u hut c k l =>
    not_holds h.good (fun v hv => Option.some.inj (hv.symm.trans hholder)) hut
  have hnone : (s.pc t).point = none := by
    rw [hpc]
    rfl
  simp only [step, hpc] at hs
  cases hw : code.work l s.shared with
  | some a =>
    obtain ⟨l', sh'⟩ := a
    simp only [hw, Option.some.injEq] at hs
    subst hs
    exact h.move (t := t) (p := .holds c k l') rfl rfl rfl hnone.symm
      (fun hn => by cases hholder.symm.trans hn) ⟨hholder, hk, l₀, hb, hworks.tail hw⟩
      fun u hut c k l hholds => absurd hholds (hother u hut c k l)
  | none =>
    -- the whole work is done: the call has its place
    simp only [hw, Option.some.injEq] at hs
    subst hs
    obtain ⟨hstate, hreturns⟩ := hm.worked c l₀ hb _ l s.shared hworks hw
    exact h.commit (t := t) (k := k) (e := .ok l) rfl rfl rfl hnone hk (fun _ => hstate.symm)
      hreturns fun u hut c k l hholds => absurd hholds (hother u hut c k l)

theorem step_after {t : ι} {c : C} {k i : ℕ} {l : L} (h : Invariant code atomic s₀ s)
    (hpc : s.pc t = .leaves c k i (.ok l)) (hs : step code s (.advance t) = some s') :
    Invariant code atomic s₀ s' := by
  have hg := h.good t
  rw [hpc] at hg
  obtain ⟨hlook, hk, hnew, hreturns⟩ := hg
  simp only [step, hpc, Option.some.injEq] at hs
  subst hs
  exact h.move (t := t) (p := .leaves c k i (code.after l)) rfl rfl rfl (by rw [hpc]; rfl) h.shared
    ⟨hlook, hk, hnew, fun r hr => hreturns r (.later hr)⟩ fun u _ c k l _ => ⟨rfl, rfl⟩

theorem step_return {t : ι} {c : C} {k i : ℕ} {r : R} (h : Invariant code atomic s₀ s)
    (hpc : s.pc t = .leaves c k i (.error r)) (hs : step code s (.advance t) = some s') :
    Invariant code atomic s₀ s' := by
  have hg := h.good t
  rw [hpc] at hg
  obtain ⟨hlook, hk, hnew, hreturns⟩ := hg
  have hpoint : (s.pc t).point = some i := by
    rw [hpc]
    rfl
  have hback : ∀ u j, ((s.goto t .idle).pc u).point = some j → u ≠ t ∧ (s.pc u).point = some j := by
    intro u j hu
    by_cases hut : u = t
    · subst hut
      rw [goto_self] at hu
      cases hu
    · rw [goto_other s _ hut] at hu
      exact ⟨hut, hu⟩
  simp only [step, hpc, Option.some.injEq] at hs
  subst hs
  refine
    { shared := h.shared
      good := fun u => ?_
      call := List.forall_mem_cons.mpr ⟨hlook, h.call⟩
      result := List.forall_mem_cons.mpr ⟨hreturns r (.now r), h.result⟩
      during := List.forall_mem_cons.mpr
        ⟨⟨hk, (List.getElem?_eq_some_iff.mp hlook).1⟩, h.during⟩
      distinct := List.pairwise_cons.mpr ⟨fun d hd he => hnew d hd he.symm, h.distinct⟩
      apart := fun u v j hu hv => h.apart u v j (hback u j hu).2 (hback v j hv).2
      covered := fun j hj => ?_ }
  · by_cases hut : u = t
    · subst hut
      change Good code atomic s₀ u _ ((s.goto u _).pc u)
      rw [goto_self]
      trivial
    · change Good code atomic s₀ u _ ((s.goto t _).pc u)
      rw [goto_other s _ hut]
      refine (h.good u).transfer ⟨[], (List.append_nil _).symm⟩ (fun _ _ _ _ => ⟨rfl, rfl, rfl⟩)
        fun c' k' j e hleaves => List.forall_mem_cons.mpr ⟨fun he => hut ?_, h.done_ne hleaves⟩
      refine h.apart u t j ?_ (he ▸ hpoint)
      rw [hleaves]
      rfl
  · by_cases hji : j = i
    · exact .inl ⟨_, List.mem_cons_self, hji.symm⟩
    · rcases h.covered j hj with ⟨d, hd, he⟩ | ⟨u, hu⟩
      · exact .inl ⟨d, List.mem_cons_of_mem _ hd, he⟩
      · refine .inr ⟨u, ?_⟩
        change ((s.goto t _).pc u).point = some j
        rw [goto_other s _]
        · exact hu
        · rintro rfl
          exact hji (Option.some.inj (hu.symm.trans hpoint))

theorem step_invariant (hm : code.Meets atomic) (s : State ι S C L R) (a : Act ι C)
    (s' : State ι S C L R) (h : Invariant code atomic s₀ s) (hs : step code s a = some s') :
    Invariant code atomic s₀ s' := by
  cases a with
  | call t c => exact step_call hm h hs
  | advance t =>
    cases hpc : s.pc t with
    | idle => simp [step, hpc] at hs
    | wants c k l => exact step_lock h hpc hs
    | holds c k l => exact step_work hm h hpc hs
    | leaves c k i e =>
      cases e with
      | error r => exact step_return h hpc hs
      | ok l => exact step_after h hpc hs

theorem linearized_throughout (hm : code.Meets atomic) (s₀ : S) (acts : List (Act ι C)) :
    Throughout (step code) (Linearized atomic s₀) (State.init ι C L R s₀) acts :=
  throughout_of_along (fun _ h => h.linearized) (fun s a s' h _ hs => step_invariant hm s a s' h hs)
    acts _ (invariant_init code atomic s₀) (along_true acts _)

end Locked
end Foundations
