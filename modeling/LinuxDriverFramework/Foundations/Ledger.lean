import Mathlib.Data.List.Basic

/-! # Ledgers of disposals

Resources are issued one after another, and the ledger keeps for each of them what has been done
with it, in order. A ledger is settled when every resource in it has been disposed of once.

* `issue`: a new resource, named by its position.
* `dispose`: one more disposal of a resource.
* `settled_append`: a part of the ledger can be settled on its own. -/

namespace Foundations
set_option autoImplicit false

universe u

abbrev Ledger (φ : Type u) := List (List φ)

namespace Ledger

variable {φ : Type u}

def issue (l : Ledger φ) : Ledger φ := l ++ [[]]

def dispose (l : Ledger φ) (i : ℕ) (f : φ) : Ledger φ := l.modify i (· ++ [f])

/-- Every resource has been disposed of exactly once. -/
def Settled (l : Ledger φ) : Prop := ∀ fates ∈ l, fates.length = 1

instance (l : Ledger φ) : Decidable l.Settled := inferInstanceAs (Decidable (∀ _ ∈ l, _))

/-- The disposal of a resource by its position. -/
theorem dispose_at (l rest : Ledger φ) (fates : List φ) (f : φ) :
    dispose (l ++ fates :: rest) l.length f = l ++ (fates ++ [f]) :: rest := by
  induction l with
  | nil => rfl
  | cons head l ih =>
    rw [List.cons_append, List.length_cons, dispose, List.modify_succ_cons]
    exact congrArg (head :: ·) ih

theorem settled_nil : Settled ([] : Ledger φ) := fun _ h => absurd h List.not_mem_nil

theorem settled_append (l m : Ledger φ) : Settled (l ++ m) ↔ Settled l ∧ Settled m := by
  simp only [Settled, List.mem_append, or_imp, forall_and]

end Ledger
end Foundations
