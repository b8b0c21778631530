import LinuxDriverFramework.Foundations.Runs

/-! # Simulations between transition systems

A step of the concrete system is matched by a run of the abstract one, which may be empty. The
abstract steps keep a guard, so that what guarded abstract runs guarantee holds of the concrete
ones.

* `Simulates`: the matching of one step, for concrete states that meet an invariant.
* `Simulates.run`, `Simulates.reachable`: the matching of runs. -/

namespace Foundations
set_option autoImplicit false

universe u v w x
variable {σ : Type u} {α : Type v} {τ : Type w} {β : Type x}

/-- Under `I`, every step is matched through `abs` by abstract steps that meet `G`. -/
structure Simulates (step : σ → α → Option σ) (step' : τ → β → Option τ) (abs : σ → τ)
    (I : σ → Prop) (G : τ → β → Prop) : Prop where
  keeps : ∀ s a s', I s → step s a = some s' → I s'
  matched : ∀ s a s', I s → step s a = some s' →
    ∃ bs, run step' (abs s) bs = some (abs s') ∧ Along step' G (abs s) bs

variable {step : σ → α → Option σ} {step' : τ → β → Option τ} {abs : σ → τ} {I : σ → Prop}
  {G : τ → β → Prop}

theorem Simulates.run (h : Simulates step step' abs I G) {as : List α} {s s' : σ} (hi : I s)
    (hr : Foundations.run step s as = some s') :
    I s' ∧ ∃ bs, Foundations.run step' (abs s) bs = some (abs s') ∧ Along step' G (abs s) bs := by
  induction as generalizing s with
  | nil =>
    obtain rfl : s = s' := Option.some.inj hr
    exact ⟨hi, [], rfl, trivial⟩
  | cons a as ih =>
    obtain ⟨s₁, h₁, hr₁⟩ := Option.bind_eq_some_iff.mp hr
    obtain ⟨bs, hb, hg⟩ := h.matched s a s₁ hi h₁
    obtain ⟨hi', cs, hc, hg'⟩ := ih (h.keeps s a s₁ hi h₁) hr₁
    refine ⟨hi', bs ++ cs, ?_, hg.append fun t ht => ?_⟩
    · rw [run_append, hb, Option.bind_some, hc]
    · rw [hb] at ht
      exact Option.some.inj ht ▸ hg'

theorem Simulates.reachable (h : Simulates step step' abs I G) {s s' : σ} (hi : I s)
    (hr : Reachable step s s') : I s' ∧ Reachable step' (abs s) (abs s') := by
  obtain ⟨as, ha⟩ := hr
  obtain ⟨hi', bs, hb, -⟩ := h.run hi ha
  exact ⟨hi', bs, hb⟩

end Foundations
