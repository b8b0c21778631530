import LinuxDriverFramework.Foundations.Programs
import LinuxDriverFramework.Foundations.Runs
import Mathlib.Logic.Function.Basic

/-! # Programs side by side

Any number of programs over one shared state, each call of a program being one step. The log keeps
who made which call, newest first.

* `Pool`, `Pool.step`: the system; a schedule is a list of programs that take a step.
* `Pool.Kept`: an invariant of the shared state and the log, together with the stage of each
  program, which other programs cannot change.
* `Pool.kept_of_run`: the rule for runs. -/

namespace Foundations
set_option autoImplicit false

structure Pool (σ ι C : Type) (R : C → Type) (α : Type) where
  shared : σ
  thread : ι → Program C R α
  log : List (ι × C)

namespace Pool

variable {σ ι C : Type} {R : C → Type} {α : Type} [DecidableEq ι]
variable (perform : σ → (c : C) → σ × R c)

def init (s : σ) (thread : ι → Program C R α) : Pool σ ι C R α := ⟨s, thread, []⟩

/-- The next call of program `i`, if it has not ended. -/
def step (p : Pool σ ι C R α) (i : ι) : Option (Pool σ ι C R α) :=
  match p.thread i with
  | .done _ => none
  | .call c next =>
    let r := perform p.shared c
    some ⟨r.1, Function.update p.thread i (next r.2), (i, c) :: p.log⟩

omit [DecidableEq ι] in
def Finished (p : Pool σ ι C R α) : Prop := ∀ i, ∃ a, p.thread i = .done a

/-- `Global` holds of the shared state and the log, and `Stage` of the log and each program. -/
structure Kept (Global : σ → List (ι × C) → Prop)
    (Stage : List (ι × C) → ι → Program C R α → Prop) (p : Pool σ ι C R α) : Prop where
  global : Global p.shared p.log
  stage : ∀ i, Stage p.log i (p.thread i)

variable {perform} {Global : σ → List (ι × C) → Prop}
  {Stage : List (ι × C) → ι → Program C R α → Prop}

theorem Kept.step {p p' : Pool σ ι C R α} {i : ι} (h : p.Kept Global Stage)
    (hown : ∀ s l i c next, Global s l → Stage l i (.call c next) →
      Global (perform s c).1 ((i, c) :: l) ∧ Stage ((i, c) :: l) i (next (perform s c).2))
    (hother : ∀ l i j c q, j ≠ i → Stage l j q → Stage ((i, c) :: l) j q)
    (hs : p.step perform i = some p') : p'.Kept Global Stage := by
  unfold Pool.step at hs
  cases hi : p.thread i with
  | done a => simp [hi] at hs
  | call c next =>
    simp only [hi, Option.some.injEq] at hs
    subst hs
    have hstage := h.stage i
    rw [hi] at hstage
    obtain ⟨hglobal, hnext⟩ := hown p.shared p.log i c next h.global hstage
    refine ⟨hglobal, fun j => ?_⟩
    by_cases hj : j = i
    · subst hj
      simpa using hnext
    · simpa [Function.update_of_ne hj] using hother p.log i j c (p.thread j) hj (h.stage j)

theorem kept_of_run {s : σ} {thread : ι → Program C R α} {schedule : List ι} {p : Pool σ ι C R α}
    (hown : ∀ s l i c next, Global s l → Stage l i (.call c next) →
      Global (perform s c).1 ((i, c) :: l) ∧ Stage ((i, c) :: l) i (next (perform s c).2))
    (hother : ∀ l i j c q, j ≠ i → Stage l j q → Stage ((i, c) :: l) j q)
    (hglobal : Global s []) (hstage : ∀ i, Stage [] i (thread i))
    (h : run (Pool.step perform) (Pool.init s thread) schedule = some p) : p.Kept Global Stage :=
  run_invariant (fun _ _ _ hk hs => hk.step hown hother hs) ⟨hglobal, hstage⟩ ⟨schedule, h⟩

end Pool

end Foundations
