import Mathlib.Algebra.Order.Ring.Int
import Mathlib.Logic.Function.Basic

/-! # One stored message with a position for each reader

A write replaces the message, a read delivers what stands at the reader's position.

* `MessageStore`: the message and the positions of readers of any type.
* `write`, `read`, `moveTo`: a message is cut to the capacity, and nothing stands at a negative
  position.
* `readAll`: reads of one reader, one after another.
* `readAll_eq`: they deliver the message in order, however it is cut into pieces. -/

namespace Foundations
set_option autoImplicit false

universe u v

structure MessageStore (ι : Type u) (α : Type v) where
  message : List α
  pos : ι → ℤ

namespace MessageStore

/-! ## Pieces of the message -/

variable {ι : Type u} {α : Type v}

/-- What stands at a position, up to a number of elements. -/
def slice (s : MessageStore ι α) (p n : ℕ) : List α := (s.message.drop p).take n

theorem slice_length (s : MessageStore ι α) (p n : ℕ) :
    (s.slice p n).length = min n (s.message.length - p) := by
  rw [slice, List.length_take, List.length_drop]

/-- What comes after a piece, also where the message ends before the piece would. -/
theorem slice_after (s : MessageStore ι α) (p m n : ℕ) :
    s.slice (p + (s.slice p m).length) n = s.slice (p + m) n := by
  rw [slice_length]
  simp only [slice]
  congr 1
  by_cases h : m ≤ s.message.length - p
  · rw [Nat.min_eq_left h]
  · rw [List.drop_eq_nil_of_le (by omega), List.drop_eq_nil_of_le (by omega)]

theorem slice_append (s : MessageStore ι α) (p m n : ℕ) :
    s.slice p m ++ s.slice (p + (s.slice p m).length) n = s.slice p (m + n) := by
  rw [slice_after]
  simp only [slice]
  rw [List.take_add, List.drop_drop]

theorem slice_zero (s : MessageStore ι α) (n : ℕ) : s.slice 0 n = s.message.take n := by
  rw [slice, List.drop_zero]

/-! ## Reading and writing -/

variable [DecidableEq ι]

def moveTo (s : MessageStore ι α) (i : ι) (p : ℤ) : MessageStore ι α :=
  { s with pos := Function.update s.pos i p }

def write (s : MessageStore ι α) (cap : ℕ) (i : ι) (data : List α) : MessageStore ι α × ℕ :=
  let kept := data.take cap
  (moveTo { s with message := kept } i kept.length, kept.length)

def read (s : MessageStore ι α) (i : ι) (n : ℕ) : MessageStore ι α × Option (List α) :=
  if s.pos i < 0 then (s, none)
  else
    let got := s.slice (s.pos i).toNat n
    (s.moveTo i (s.pos i + got.length), some got)

def readAll (s : MessageStore ι α) (i : ι) : List ℕ → MessageStore ι α × List α
  | [] => (s, [])
  | n :: ns =>
    let first := s.read i n
    let rest := first.1.readAll i ns
    (rest.1, first.2.getD [] ++ rest.2)

@[simp] theorem moveTo_pos_self (s : MessageStore ι α) (i : ι) (p : ℤ) :
    (s.moveTo i p).pos i = p := by
  simp only [moveTo, Function.update_self]

@[simp] theorem moveTo_self (s : MessageStore ι α) (i : ι) : s.moveTo i (s.pos i) = s := by
  rw [moveTo, Function.update_eq_self]

theorem moveTo_moveTo (s : MessageStore ι α) (i : ι) (p q : ℤ) :
    (s.moveTo i p).moveTo i q = s.moveTo i q := by
  rw [moveTo, moveTo, moveTo, Function.update_idem]

@[simp] theorem slice_moveTo (s : MessageStore ι α) (i : ι) (p : ℤ) (q n : ℕ) :
    (s.moveTo i p).slice q n = s.slice q n := rfl

theorem read_of_nonneg {s : MessageStore ι α} {i : ι} {p : ℕ} (h : s.pos i = p) (n : ℕ) :
    s.read i n = (s.moveTo i (p + (s.slice p n).length : ℕ), some (s.slice p n)) := by
  rw [read, h, if_neg (by omega), Int.toNat_natCast, Nat.cast_add]

theorem readAll_eq {s : MessageStore ι α} {i : ι} {p : ℕ} (h : s.pos i = p) (ns : List ℕ) :
    s.readAll i ns =
      (s.moveTo i (p + (s.slice p ns.sum).length : ℕ), s.slice p ns.sum) := by
  induction ns generalizing s p with
  | nil =>
    simp only [readAll, List.sum_nil, slice, List.take_zero, List.length_nil, Nat.add_zero, ← h,
      moveTo_self]
  | cons n ns ih =>
    have happ := s.slice_append p n ns.sum
    have hrest := ih (s := s.moveTo i (p + (s.slice p n).length : ℕ)) (moveTo_pos_self _ _ _)
    simp only [readAll, read_of_nonneg h n, hrest, moveTo_moveTo, slice_moveTo, Option.getD_some,
      List.sum_cons]
    rw [← happ, List.length_append, Nat.add_assoc]

end MessageStore

end Foundations
