import Mathlib.Algebra.BigOperators.Group.List.Basic

/-! # Totals over the beginnings of a growing history

* `total`: the sum of the weights of the first entries.
* `CopiedBetween`: two totals that a reader copies one after the other while the history grows.
* `CopiedBetween.at_rest`: with nothing going on meanwhile, both are of the same moment. -/

namespace Foundations.History
set_option autoImplicit false

universe u v

variable {α : Type u} {M : Type v} [AddMonoid M] {f g : α → M}

def total (f : α → M) (l : List α) (n : ℕ) : M := ((l.take n).map f).sum

theorem total_length (l : List α) : total f l l.length = (l.map f).sum := by
  rw [total, List.take_length]

theorem total_const (c : M) {l : List α} {n : ℕ} (h : n ≤ l.length) :
    total (fun _ => c) l n = n • c := by
  rw [total, List.map_const', List.length_take_of_le h, List.sum_replicate]

theorem total_append {l m : List α} {n : ℕ} (h : n ≤ l.length) :
    total f (l ++ m) n = total f l n := by
  rw [total, List.take_append_of_le_length h]
  rfl

theorem total_next (l m : List α) (a : α) :
    total f (l ++ a :: m) (l.length + 1) = total f (l ++ a :: m) l.length + f a := by
  rw [total_append (Nat.le_refl l.length), total, total, List.take_length_add_append, List.take_length]
  simp

/-- The first total is of the entries before `i`, the second of those before `j`. -/
def CopiedBetween (f g : α → M) (l : List α) (since upTo : ℕ) (a b : M) : Prop :=
  ∃ i j, (since ≤ i ∧ i ≤ upTo) ∧ (since ≤ j ∧ j ≤ upTo) ∧ i ≤ j + 1 ∧
    a = total f l i ∧ b = total g l j

theorem CopiedBetween.append {l m : List α} {since upTo : ℕ} {a b : M}
    (h : CopiedBetween f g l since upTo a b) (hu : upTo ≤ l.length) :
    CopiedBetween f g (l ++ m) since upTo a b := by
  obtain ⟨i, j, hi, hj, hij, ha, hb⟩ := h
  refine ⟨i, j, hi, hj, hij, ?_, ?_⟩
  · rw [total_append (by omega)]
    exact ha
  · rw [total_append (by omega)]
    exact hb

theorem CopiedBetween.at_rest {l : List α} {n : ℕ} {a b : M} (h : CopiedBetween f g l n n a b) :
    a = total f l n ∧ b = total g l n := by
  obtain ⟨i, j, hi, hj, -, ha, hb⟩ := h
  obtain rfl : i = n := by omega
  obtain rfl : j = i := by omega
  exact ⟨ha, hb⟩

end Foundations.History
