import Mathlib.Logic.Function.Basic

/-! # Wait queues

A party enters the queue, looks at a condition, and sleeps only if it has not been triggered in the
meantime. Whoever makes the condition true wakes the queue afterwards.

* `WaitQueue`: who is queued and who has been triggered.
* `Covered`: nobody waits for what is already there, unless somebody still owes the wake-up.
* `covered_wakeAll`, `covered_of_owed`, `Covered.move`: the rules for the steps of a system. -/

namespace Foundations
set_option autoImplicit false

structure WaitQueue (ι : Type) where
  queued : ι → Bool
  triggered : ι → Bool

namespace WaitQueue

variable {ι : Type} [DecidableEq ι]

omit [DecidableEq ι] in
def empty : WaitQueue ι := ⟨fun _ => false, fun _ => false⟩

def add (q : WaitQueue ι) (t : ι) : WaitQueue ι :=
  { q with queued := Function.update q.queued t true }

def remove (q : WaitQueue ι) (t : ι) : WaitQueue ι :=
  ⟨Function.update q.queued t false, Function.update q.triggered t false⟩

/-- A party takes notice of its trigger and goes on. -/
def consume (q : WaitQueue ι) (t : ι) : WaitQueue ι :=
  { q with triggered := Function.update q.triggered t false }

omit [DecidableEq ι] in
def wakeAll (q : WaitQueue ι) : WaitQueue ι :=
  { q with triggered := fun t => q.triggered t || q.queued t }

/-- Two queues that only `t` can tell apart. -/
def SameBut (t : ι) (q q' : WaitQueue ι) : Prop :=
  ∀ u, u ≠ t → q'.queued u = q.queued u ∧ q'.triggered u = q.triggered u

omit [DecidableEq ι] in
theorem SameBut.refl (t : ι) (q : WaitQueue ι) : SameBut t q q := fun _ _ => ⟨rfl, rfl⟩

theorem sameBut_add (q : WaitQueue ι) (t : ι) : SameBut t q (q.add t) := fun _ hu =>
  ⟨Function.update_of_ne hu _ _, rfl⟩

theorem sameBut_remove (q : WaitQueue ι) (t : ι) : SameBut t q (q.remove t) := fun _ hu =>
  ⟨Function.update_of_ne hu _ _, Function.update_of_ne hu _ _⟩

theorem sameBut_consume (q : WaitQueue ι) (t : ι) : SameBut t q (q.consume t) := fun _ hu =>
  ⟨rfl, Function.update_of_ne hu _ _⟩

/-- A waiter is queued, and it is triggered, or the condition is false, or a wake-up is owed. -/
def Covered (q : WaitQueue ι) (waits : ι → Prop) (cond owed : Prop) : Prop :=
  ∀ t, waits t → q.queued t = true ∧ (q.triggered t = true ∨ ¬ cond ∨ owed)

variable {q q' : WaitQueue ι} {waits waits' : ι → Prop} {cond cond' owed owed' : Prop}

omit [DecidableEq ι] in
theorem covered_wakeAll (hq : ∀ t, waits t → q.queued t = true) :
    q.wakeAll.Covered waits cond owed := fun t ht =>
  ⟨hq t ht, .inl (by simp [wakeAll, hq t ht])⟩

omit [DecidableEq ι] in
/-- Whoever makes the condition true owes the wake-up from then on. -/
theorem covered_of_owed (hq : ∀ t, waits t → q.queued t = true) (howed : owed) :
    q.Covered waits cond owed := fun t ht => ⟨hq t ht, .inr (.inr howed)⟩

omit [DecidableEq ι] in
/-- One party moves, the condition does not become true and no wake-up is forgotten. -/
theorem Covered.move (h : q.Covered waits cond owed) (t : ι) (hq : SameBut t q q')
    (hw : ∀ u, u ≠ t → waits' u → waits u) (hcond : cond' → cond) (howed : owed → owed')
    (ht : waits' t → q'.queued t = true ∧ (q'.triggered t = true ∨ ¬ cond' ∨ owed')) :
    q'.Covered waits' cond' owed' := by
  intro u hu
  by_cases hut : u = t
  · subst hut
    exact ht hu
  · obtain ⟨hqueued, hcov⟩ := h u (hw u hut hu)
    rw [(hq u hut).1, (hq u hut).2]
    refine ⟨hqueued, ?_⟩
    rcases hcov with htrig | hfalse | ho
    · exact .inl htrig
    · exact .inr (.inl (mt hcond hfalse))
    · exact .inr (.inr (howed ho))

end WaitQueue

end Foundations
