import Mathlib.Data.Set.Basic
import Mathlib.Logic.Function.Basic

/-! # What some parties hold of a stock

* `Split`: a stock consists of what was there before, and of what the parties hold.
* `Split.take`, `Split.give`: a party takes something new, or gives it back.
* `Split.nothing`: when nobody holds anything, the stock is what it was. -/

namespace Foundations
set_option autoImplicit false

universe u v

variable {ι : Type u} {α : Type v} {base stock stock' : Set α} {held : ι → Option α} {i : ι} {a : α}

structure Split (base : Set α) (held : ι → Option α) (stock : Set α) : Prop where
  mem_iff : ∀ a, a ∈ stock ↔ a ∈ base ∨ ∃ i, held i = some a
  fresh : ∀ i a, held i = some a → a ∉ base
  single : ∀ i j a, held i = some a → held j = some a → i = j

theorem split_none (base : Set α) : Split base (fun _ : ι => none) base where
  mem_iff a := by simp
  fresh i a h := by cases h
  single i j a h := by cases h

theorem Split.mem (h : Split base held stock) (hi : held i = some a) : a ∈ stock :=
  (h.mem_iff a).mpr (.inr ⟨i, hi⟩)

theorem Split.nothing (h : Split base held stock) (hn : ∀ i, held i = none) : stock = base := by
  ext a
  rw [h.mem_iff a]
  refine or_iff_left ?_
  rintro ⟨i, hi⟩
  rw [hn i] at hi
  cases hi

variable [DecidableEq ι]

theorem Split.take (h : Split base held stock) (i : ι) (hi : held i = none) (ha : a ∉ stock)
    (hs : ∀ b, b ∈ stock' ↔ b = a ∨ b ∈ stock) :
    Split base (Function.update held i (some a)) stock' := by
  have hother : ∀ j b, Function.update held i (some a) j = some b →
      (j = i ∧ b = a) ∨ (j ≠ i ∧ held j = some b) := by
    intro j b hj
    by_cases hji : j = i
    · subst hji
      rw [Function.update_self] at hj
      exact .inl ⟨rfl, (Option.some.inj hj).symm⟩
    · rw [Function.update_of_ne hji] at hj
      exact .inr ⟨hji, hj⟩
  refine ⟨fun b => ?_, fun j b hj hb => ?_, fun j k b hj hk => ?_⟩
  · rw [hs b, h.mem_iff b]
    constructor
    · rintro (rfl | hb | ⟨j, hj⟩)
      · exact .inr ⟨i, Function.update_self _ _ _⟩
      · exact .inl hb
      · refine .inr ⟨j, ?_⟩
        rw [Function.update_of_ne]
        · exact hj
        · rintro rfl
          rw [hi] at hj
          cases hj
    · rintro (hb | ⟨j, hj⟩)
      · exact .inr (.inl hb)
      · rcases hother j b hj with ⟨-, hb⟩ | ⟨-, hj⟩
        · exact .inl hb
        · exact .inr (.inr ⟨j, hj⟩)
  · rcases hother j b hj with ⟨-, rfl⟩ | ⟨-, hj⟩
    · exact ha ((h.mem_iff b).mpr (.inl hb))
    · exact h.fresh j b hj hb
  · rcases hother j b hj with ⟨hji, hb⟩ | ⟨-, hj'⟩
    · rcases hother k b hk with ⟨hki, -⟩ | ⟨-, hk'⟩
      · rw [hji, hki]
      · exact absurd (h.mem hk') (hb ▸ ha)
    · rcases hother k b hk with ⟨-, hb⟩ | ⟨-, hk'⟩
      · exact absurd (h.mem hj') (hb ▸ ha)
      · exact h.single j k b hj' hk'

theorem Split.give (h : Split base held stock) (hi : held i = some a)
    (hs : ∀ b, b ∈ stock' ↔ b ≠ a ∧ b ∈ stock) :
    Split base (Function.update held i none) stock' := by
  have hother : ∀ j b, Function.update held i none j = some b → j ≠ i ∧ held j = some b := by
    intro j b hj
    by_cases hji : j = i
    · rw [hji, Function.update_self] at hj
      cases hj
    · rw [Function.update_of_ne hji] at hj
      exact ⟨hji, hj⟩
  refine ⟨fun b => ?_, fun j b hj => h.fresh j b (hother j b hj).2, fun j k b hj hk =>
    h.single j k b (hother j b hj).2 (hother k b hk).2⟩
  rw [hs b, h.mem_iff b]
  constructor
  · rintro ⟨hne, hb | ⟨j, hj⟩⟩
    · exact .inl hb
    · refine .inr ⟨j, ?_⟩
      rw [Function.update_of_ne]
      · exact hj
      · rintro rfl
        rw [hi] at hj
        exact hne (Option.some.inj hj).symm
  · rintro (hb | ⟨j, hj⟩)
    · refine ⟨?_, .inl hb⟩
      rintro rfl
      exact h.fresh i b hi hb
    · obtain ⟨hji, hj⟩ := hother j b hj
      refine ⟨?_, .inr ⟨j, hj⟩⟩
      rintro rfl
      exact hji (h.single j i b hj hi)

end Foundations
