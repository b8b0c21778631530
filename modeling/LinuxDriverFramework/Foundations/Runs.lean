import Mathlib.Data.Option.Basic
import Mathlib.Data.List.Basic

/-! # Runs of a labelled transition system

A system is its executable step `step : σ → α → Option σ`: the label carries every choice the
environment makes, `none` means that the label is not enabled. Everything below is about
arbitrary states and labels.

* `run`: the state after a list of labels.
* `Along G`: every step of the run is taken in a state that meets the guard `G`.
* `Throughout P`: every state of the run satisfies `P`.
* `run_along`, `run_invariant`: the two induction rules, with and without a guard.
* `length_run_le`: runs end when every step lowers a measure.
* `throughout_iff_along`: when a guard is exactly the condition under which `P` survives.
-/

namespace Foundations
set_option autoImplicit false

universe u v
variable {σ : Type u} {α : Type v}

/-- The state reached by the labels in order, if all of them are enabled in turn. -/
def run (step : σ → α → Option σ) : σ → List α → Option σ
  | s, [] => some s
  | s, a :: as => (step s a).bind fun s' => run step s' as

/-- Every step of the run is taken from a state that meets the guard for its label. -/
def Along (step : σ → α → Option σ) (G : σ → α → Prop) : σ → List α → Prop
  | _, [] => True
  | s, a :: as => G s a ∧ ∀ s', step s a = some s' → Along step G s' as

/-- Every state of the run satisfies `P`, the first one included. -/
def Throughout (step : σ → α → Option σ) (P : σ → Prop) : σ → List α → Prop
  | s, [] => P s
  | s, a :: as => P s ∧ ∀ s', step s a = some s' → Throughout step P s' as

def Reachable (step : σ → α → Option σ) (s₀ s : σ) : Prop :=
  ∃ as, run step s₀ as = some s

variable {step : σ → α → Option σ} {G D : σ → α → Prop} {I P : σ → Prop}

/-- On a given list of labels a guard can be checked by executing the run. -/
instance decidableAlong [∀ s a, Decidable (G s a)] :
    ∀ (as : List α) (s : σ), Decidable (Along step G s as)
  | [], _ => isTrue trivial
  | a :: as, s =>
    match h : step s a with
    | none => decidable_of_iff (G s a) (by simp [Along, h])
    | some s' =>
      have : Decidable (Along step G s' as) := decidableAlong as s'
      decidable_of_iff (G s a ∧ Along step G s' as) (by simp [Along, h])

/-! ## Composing runs -/

@[simp] theorem run_nil (s : σ) : run step s [] = some s := rfl

@[simp] theorem run_cons (s : σ) (a : α) (as : List α) :
    run step s (a :: as) = (step s a).bind fun s' => run step s' as := rfl

theorem run_append (s : σ) (as bs : List α) :
    run step s (as ++ bs) = (run step s as).bind fun s' => run step s' bs := by
  induction as generalizing s with
  | nil => rfl
  | cons a as ih =>
    rw [List.cons_append, run_cons, run_cons, Option.bind_assoc]
    congr 1
    funext s'
    exact ih s'

theorem Reachable.refl (s : σ) : Reachable step s s := ⟨[], rfl⟩

theorem Reachable.tail {s₀ s s' : σ} (h : Reachable step s₀ s) (a : α) (hs : step s a = some s') :
    Reachable step s₀ s' := by
  obtain ⟨as, ha⟩ := h
  refine ⟨as ++ [a], ?_⟩
  rw [run_append, ha, Option.bind_some, run_cons, hs]
  rfl

theorem Reachable.run {s₀ s s' : σ} (h : Reachable step s₀ s) (as : List α)
    (hs : Foundations.run step s as = some s') : Reachable step s₀ s' := by
  obtain ⟨bs, hb⟩ := h
  refine ⟨bs ++ as, ?_⟩
  rw [run_append, hb, Option.bind_some, hs]

/-! ## Invariants -/

/-- What guarded steps preserve holds at the end of every guarded run. -/
theorem run_along
    (hstep : ∀ s a s', I s → G s a → step s a = some s' → I s') :
    ∀ (as : List α) (s s' : σ), I s → Along step G s as → run step s as = some s' → I s'
  | [], s, s', hi, _, hr => by
      obtain rfl : s = s' := Option.some.inj hr
      exact hi
  | a :: as, s, s', hi, hg, hr => by
      obtain ⟨s₁, h₁, hr₁⟩ := Option.bind_eq_some_iff.mp hr
      exact run_along hstep as s₁ s' (hstep s a s₁ hi hg.1 h₁) (hg.2 s₁ h₁) hr₁

theorem along_true (as : List α) (s : σ) : Along step (fun _ _ => True) s as := by
  induction as generalizing s with
  | nil => exact trivial
  | cons a as ih => exact ⟨trivial, fun s' _ => ih s'⟩

theorem Along.and {as : List α} {s : σ} (h : Along step G s as) (h' : Along step D s as) :
    Along step (fun s a => G s a ∧ D s a) s as := by
  induction as generalizing s with
  | nil => exact trivial
  | cons a as ih => exact ⟨⟨h.1, h'.1⟩, fun s' hs => ih (h.2 s' hs) (h'.2 s' hs)⟩

theorem Along.imp {as : List α} {s : σ} (h : Along step G s as)
    (himp : ∀ s a, G s a → D s a) : Along step D s as := by
  induction as generalizing s with
  | nil => exact trivial
  | cons a as ih => exact ⟨himp s a h.1, fun s' hs => ih (h.2 s' hs)⟩

/-- A guard that looks at the labels only. -/
theorem along_of_labels {P : α → Prop} {as : List α} (h : ∀ a ∈ as, P a) (s : σ) :
    Along step (fun _ a => P a) s as := by
  induction as generalizing s with
  | nil => exact trivial
  | cons a as ih =>
    refine ⟨h a List.mem_cons_self, fun s' _ => ih (fun b hb => ?_) s'⟩
    exact h b (List.mem_cons_of_mem a hb)

theorem Along.append {as bs : List α} {s : σ} (h : Along step G s as)
    (h' : ∀ s', run step s as = some s' → Along step G s' bs) : Along step G s (as ++ bs) := by
  induction as generalizing s with
  | nil => exact h' s rfl
  | cons a as ih =>
    refine ⟨h.1, fun s₁ hs => ih (h.2 s₁ hs) fun s' hr => h' s' ?_⟩
    rw [run_cons, hs, Option.bind_some]
    exact hr

/-- A guard that follows from another one in the states that the run can be in. -/
theorem Along.imp_of_invariant {as : List α} {s : σ}
    (hstep : ∀ s a s', I s → G s a → step s a = some s' → I s')
    (himp : ∀ s a, I s → G s a → D s a) (hi : I s) (h : Along step G s as) :
    Along step D s as := by
  induction as generalizing s with
  | nil => exact trivial
  | cons a as ih =>
    exact ⟨himp s a hi h.1, fun s' hs => ih (hstep s a s' hi h.1 hs) (h.2 s' hs)⟩

/-- Two guards that agree in the states that the run can be in. -/
theorem along_iff_of_invariant {as : List α} {s : σ}
    (hstep : ∀ s a s', I s → step s a = some s' → I s') (hiff : ∀ s a, I s → (G s a ↔ D s a))
    (hi : I s) : Along step G s as ↔ Along step D s as := by
  constructor
  · exact Along.imp_of_invariant (fun s a s' hi _ => hstep s a s' hi)
      (fun s a hi => (hiff s a hi).mp) hi
  · exact Along.imp_of_invariant (fun s a s' hi _ => hstep s a s' hi)
      (fun s a hi => (hiff s a hi).mpr) hi

/-- What every step preserves holds in every reachable state. -/
theorem run_invariant (hstep : ∀ s a s', I s → step s a = some s' → I s')
    {s₀ s : σ} (h₀ : I s₀) (h : Reachable step s₀ s) : I s := by
  obtain ⟨as, ha⟩ := h
  exact run_along (G := fun _ _ => True) (fun s a s' hi _ hs => hstep s a s' hi hs)
    as s₀ s h₀ (along_true as s₀) ha

/-- A measure that every step lowers bounds the length of the run. -/
theorem length_run_le (μ : σ → ℕ) (hstep : ∀ s a s', I s → step s a = some s' → I s' ∧ μ s' < μ s)
    {as : List α} {s s' : σ} (hi : I s) (hr : run step s as = some s') :
    as.length + μ s' ≤ μ s := by
  induction as generalizing s with
  | nil =>
    obtain rfl : s = s' := Option.some.inj hr
    exact Nat.le_of_eq (Nat.zero_add _)
  | cons a as ih =>
    obtain ⟨s₁, h₁, hr₁⟩ := Option.bind_eq_some_iff.mp hr
    obtain ⟨hi₁, hlt⟩ := hstep s a s₁ hi h₁
    have hrest := ih hi₁ hr₁
    rw [List.length_cons]
    omega

/-- A guarded run keeps `P` in all its states when guarded steps keep an invariant that gives `P`. -/
theorem throughout_of_along (hP : ∀ s, I s → P s)
    (hstep : ∀ s a s', I s → G s a → step s a = some s' → I s') (as : List α) (s : σ)
    (hi : I s) (hg : Along step G s as) : Throughout step P s as := by
  induction as generalizing s with
  | nil => exact hP s hi
  | cons a as ih =>
    exact ⟨hP s hi, fun s' hs => ih s' (hstep s a s' hi hg.1 hs) (hg.2 s' hs)⟩

theorem Throughout.head {s : σ} {as : List α} (h : Throughout step P s as) : P s := by
  cases as with
  | nil => exact h
  | cons a as => exact h.1

/-- `G` is the exact condition for `P`: guarded steps keep the invariant, and a step that
misses the guard leaves `P` at once. -/
theorem throughout_iff_along (hP : ∀ s, I s → P s)
    (hgood : ∀ s a s', I s → D s a → G s a → step s a = some s' → I s')
    (hbad : ∀ s a, I s → D s a → ¬ G s a → ∃ s', step s a = some s' ∧ ¬ P s')
    (as : List α) (s : σ) (hi : I s) (hd : Along step D s as) :
    Throughout step P s as ↔ Along step G s as := by
  induction as generalizing s with
  | nil => exact ⟨fun _ => trivial, fun _ => hP s hi⟩
  | cons a as ih =>
    have hguard : Throughout step P s (a :: as) → G s a := by
      intro ht
      by_contra hn
      obtain ⟨s', hs', hbad'⟩ := hbad s a hi hd.1 hn
      exact hbad' (ht.2 s' hs').head
    have hnext : G s a → ∀ s', step s a = some s' →
        (Throughout step P s' as ↔ Along step G s' as) := fun hg s' hs =>
      ih s' (hgood s a s' hi hd.1 hg hs) (hd.2 s' hs)
    constructor
    · intro ht
      have hg := hguard ht
      exact ⟨hg, fun s' hs => (hnext hg s' hs).mp (ht.2 s' hs)⟩
    · intro ha
      exact ⟨hP s hi, fun s' hs => (hnext ha.1 s' hs).mpr (ha.2 s' hs)⟩

end Foundations
