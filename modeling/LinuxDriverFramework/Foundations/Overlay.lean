import Mathlib.Data.List.Basic

/-! # Overwriting the front of a buffer

* `overlay front l`: `l` with its first elements replaced by `front`.
* `take_overlay_eq_iff`: when that makes no difference to the first `m` elements.
* `fill front segs`: the same for a buffer that is scattered over segments.
* `flatten_fill`: the segments make no difference.
-/

namespace Foundations
set_option autoImplicit false

universe u
variable {α : Type u}

def overlay (front l : List α) : List α := front ++ l.drop front.length

theorem length_overlay {front l : List α} (h : front.length ≤ l.length) :
    (overlay front l).length = l.length := by
  simp only [overlay, List.length_append, List.length_drop]
  omega

/-- One more element is replaced. -/
theorem set_overlay (front l : List α) (h : front.length < l.length) (a : α) :
    (overlay front l).set front.length a = overlay (front ++ [a]) l := by
  have hdrop := List.drop_eq_getElem_cons h
  rw [overlay, overlay, hdrop, List.set_append_right _ _ (Nat.le_refl _), Nat.sub_self,
    List.set_cons_zero, List.length_append, List.length_singleton, List.append_assoc]
  rfl

/-- The first `m` elements stay as they are if those that are replaced were the same. -/
theorem take_overlay_eq_iff {front l : List α} (h : front.length ≤ l.length) (m : ℕ) :
    (overlay front l).take m = l.take m ↔ front.take m = (l.take m).take front.length := by
  have hlen : (l.take front.length).length = front.length := by
    rw [List.length_take, Nat.min_eq_left h]
  have hleft : (overlay front l).take m =
      front.take m ++ (l.drop front.length).take (m - front.length) := List.take_append
  have hright : l.take m =
      (l.take m).take front.length ++ (l.drop front.length).take (m - front.length) := by
    calc l.take m = (l.take front.length ++ l.drop front.length).take m := by
          rw [List.take_append_drop]
      _ = (l.take front.length).take m ++ (l.drop front.length).take (m - front.length) := by
          rw [List.take_append, hlen]
      _ = _ := by rw [List.take_take, List.take_take, Nat.min_comm]
  constructor
  · intro heq
    rw [hleft, hright] at heq
    exact List.append_cancel_right heq
  · intro heq
    rw [hleft, heq]
    exact hright.symm

def fill : List α → List (List α) → List (List α)
  | _, [] => []
  | front, s :: ss => overlay (front.take s.length) s :: fill (front.drop s.length) ss

theorem flatten_fill {front : List α} {segs : List (List α)}
    (h : front.length ≤ segs.flatten.length) :
    (fill front segs).flatten = overlay front segs.flatten := by
  induction segs generalizing front with
  | nil =>
    obtain rfl : front = [] := List.length_eq_zero_iff.mp (Nat.le_zero.mp h)
    rfl
  | cons s ss ih =>
    have hrest : (front.drop s.length).length ≤ ss.flatten.length := by
      simp only [List.flatten_cons, List.length_append] at h
      rw [List.length_drop]
      omega
    simp only [fill, List.flatten_cons, ih hrest, overlay, List.length_take, List.length_drop]
    rw [List.drop_append, List.append_assoc, ← List.append_assoc (s.drop _)]
    by_cases hs : front.length ≤ s.length
    · -- the front ends inside this segment
      rw [Nat.min_eq_right hs, List.take_of_length_le hs, List.drop_eq_nil_of_le hs,
        Nat.sub_eq_zero_of_le hs]
      simp
    · -- it covers the segment and goes on
      rw [Nat.min_eq_left (by omega), List.drop_length,
        List.drop_eq_nil_of_le (show s.length ≤ front.length by omega)]
      simp only [List.nil_append]
      rw [← List.append_assoc, List.take_append_drop]

end Foundations
