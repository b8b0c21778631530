import LinuxDriverFramework.Foundations.Runs

/-! # Binding a driver to a device and unbinding it

A bus asks a driver to take a device, the driver accepts or refuses, and an accepted device is given
back later. In between the device refers to what the driver keeps for it.

* `Binding`: the two entry points of a driver, and whether a device refers to the driver's data.
* `State`, `Event`, `step`: any sequence of attempts to bind one device, each bind undone before the
  next attempt.
* `Cleared`: an unbound device refers to nothing; `Unbound`: a device that starts so.
* `cleared_throughout_iff`: attempts that are refused and leave the reference are all there is
  against it. -/

namespace Foundations
set_option autoImplicit false

universe u v w x

structure Binding (σ : Type u) (A : Type v) (B : Type w) (E : Type x) where
  probe : σ → A → σ × Except E Unit
  remove : σ → B → σ
  held : σ → Bool

namespace Binding

structure State (σ : Type u) where
  dev : σ
  bound : Bool

inductive Event (A : Type v) (B : Type w)
  | bind (a : A)
  | unbind (b : B)

variable {σ : Type u} {A : Type v} {B : Type w} {E : Type x} (d : Binding σ A B E)

/-- The state in which the entry point has just returned. -/
def step (s : State σ) : Event A B → Option (State σ)
  | .bind a =>
    if s.bound then none
    else
      let r := d.probe s.dev a
      some ⟨r.1, r.2.isOk⟩
  | .unbind b => if s.bound then some ⟨d.remove s.dev b, false⟩ else none

def Cleared (s : State σ) : Prop := s.bound = false → d.held s.dev = false

abbrev Unbound : Type u := {s : σ // d.held s = false}

def Unbound.start {d : Binding σ A B E} (s : d.Unbound) : State σ := ⟨s.1, false⟩

/-- The device is not one that the attempt would leave with a reference. -/
def Spares (leaks : σ → A → Bool) (s : State σ) : Event A B → Prop
  | .bind a => s.bound = false → leaks s.dev a = false
  | .unbind _ => True

/-- `leaks` says which attempts on a device without a reference are refused and leave one. -/
structure LeaksExactly (leaks : σ → A → Bool) : Prop where
  refused : ∀ s a, d.held s = false → (d.probe s a).2.isOk = false →
    d.held (d.probe s a).1 = leaks s a
  accepted : ∀ s a, d.held s = false → (d.probe s a).2.isOk = true → leaks s a = false
  removed : ∀ s b, d.held (d.remove s b) = false

variable {d} {leaks : σ → A → Bool}

theorem LeaksExactly.step_cleared (h : d.LeaksExactly leaks) {s s' : State σ} {e : Event A B}
    (hs : d.Cleared s) (he : Spares leaks s e) (hstep : d.step s e = some s') : d.Cleared s' := by
  cases e with
  | bind a =>
    cases hb : s.bound with
    | true => simp [step, hb] at hstep
    | false =>
      simp only [step, hb, Bool.false_eq_true, if_false, Option.some.injEq] at hstep
      subst hstep
      intro hrefused
      exact (h.refused s.dev a (hs hb) hrefused).trans (he hb)
  | unbind b =>
    cases hb : s.bound with
    | false => simp [step, hb] at hstep
    | true =>
      simp only [step, hb, if_true, Option.some.injEq] at hstep
      subst hstep
      exact fun _ => h.removed s.dev b

theorem LeaksExactly.step_not_cleared (h : d.LeaksExactly leaks) {s : State σ} {e : Event A B}
    (hs : d.Cleared s) (he : ¬ Spares leaks s e) : ∃ s', d.step s e = some s' ∧ ¬ d.Cleared s' := by
  cases e with
  | bind a =>
    simp only [Spares, Classical.not_imp, Bool.not_eq_false] at he
    obtain ⟨hb, hleak⟩ := he
    have hheld := hs hb
    refine ⟨⟨(d.probe s.dev a).1, (d.probe s.dev a).2.isOk⟩, by simp [step, hb], fun hc => ?_⟩
    cases hr : (d.probe s.dev a).2.isOk with
    | true =>
      have hnot := h.accepted s.dev a hheld hr
      rw [hleak] at hnot
      cases hnot
    | false =>
      have hkept := h.refused s.dev a hheld hr
      rw [hc hr, hleak] at hkept
      cases hkept
  | unbind b => exact absurd trivial he

theorem cleared_throughout_iff (h : d.LeaksExactly leaks) (s : d.Unbound)
    (events : List (Event A B)) :
    Throughout d.step d.Cleared s.start events ↔ Along d.step (Spares leaks) s.start events :=
  throughout_iff_along (I := d.Cleared) (D := fun _ _ => True) (fun _ hc => hc)
    (fun _ _ _ hc _ he hstep => h.step_cleared hc he hstep)
    (fun _ _ hc _ he => h.step_not_cleared hc he) events _ (fun _ => s.2) (along_true events _)

/-- Without such attempts the reference is gone after every run. -/
theorem cleared_throughout (h : d.LeaksExactly fun _ _ => false) (s : d.Unbound)
    (events : List (Event A B)) : Throughout d.step d.Cleared s.start events := by
  apply (cleared_throughout_iff h s events).mpr
  apply Along.imp (along_true events s.start)
  intro s e _
  cases e with
  | bind a => exact fun _ => rfl
  | unbind b => trivial

end Binding

end Foundations
