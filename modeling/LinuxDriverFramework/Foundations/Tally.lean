import Mathlib.Algebra.BigOperators.Group.Finset.Basic
import Mathlib.Algebra.Order.BigOperators.Group.Finset
import Mathlib.Data.Fintype.BigOperators

/-! # Weighted head counts over a finite set of parties

`tally w f` is the total weight `w (f i)` of the positions `f i` of all parties `i`. One party
moving changes the tally by the difference of its two weights, which is all that a counting
invariant over interleaved threads needs. -/

namespace Foundations
open scoped BigOperators
set_option autoImplicit false

variable {ι α : Type*} [Fintype ι]

/-- The total weight of the parties' positions. -/
def tally (w : α → ℕ) (f : ι → α) : ℕ := ∑ i, w (f i)

theorem tally_update [DecidableEq ι] (w : α → ℕ) (f : ι → α) (i : ι) (a : α) :
    tally w (Function.update f i a) + w (f i) = tally w f + w a := by
  unfold tally
  have hrest : ∑ j ∈ Finset.univ.erase i, w (Function.update f i a j) =
      ∑ j ∈ Finset.univ.erase i, w (f j) :=
    Finset.sum_congr rfl fun j hj => by
      rw [Function.update_of_ne (Finset.ne_of_mem_erase hj)]
  have hnew := Finset.sum_erase_add Finset.univ (fun j => w (Function.update f i a j))
    (Finset.mem_univ i)
  have hold := Finset.sum_erase_add Finset.univ (fun j => w (f j)) (Finset.mem_univ i)
  rw [hrest, Function.update_self] at hnew
  omega

theorem le_tally (w : α → ℕ) (f : ι → α) (i : ι) : w (f i) ≤ tally w f :=
  Finset.single_le_sum (f := fun j => w (f j)) (fun _ _ => Nat.zero_le _) (Finset.mem_univ i)

theorem tally_const_zero (w : α → ℕ) (a : α) (h : w a = 0) : tally w (fun _ : ι => a) = 0 := by
  simp [tally, h]

end Foundations
