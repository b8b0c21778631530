import LinuxDriverFramework.Foundations.Overlay

/-! # Copying to and from user memory

* `Mem`: what is behind a pointer that a driver is handed, in user space or in the kernel, with
  the number of bytes that can be accessed before a page faults.
* `copyToUser`, `copyFromUser`: refuse a pointer that is not a user pointer, and stop at a fault.
  What `copyFromUser` does not get is zero in the destination.
* `Iter`, `copyToIter`, `copyFromIter`: the same for an `iov_iter` of user segments.
-/

namespace LinuxDriverFramework
open Foundations
set_option autoImplicit false

inductive Space
  | user
  | kernel
  deriving DecidableEq, Repr

structure Mem where
  space : Space
  bytes : List UInt8
  good : ℕ

/-- A flat user buffer without a bad page. -/
def Mem.user (bytes : List UInt8) : Mem := ⟨.user, bytes, bytes.length⟩

/-- What `kvmalloc(n)` returns: kernel memory with arbitrary content. -/
def Mem.bounce (junk : ℕ → UInt8) (n : ℕ) : Mem := ⟨.kernel, (List.range n).map junk, n⟩

/-- `copy_to_user(to, src, n)` for the `n` bytes `src`: the memory afterwards, and how many bytes
were not copied. -/
def copyToUser (to_ : Mem) (src : List UInt8) : Mem × ℕ :=
  match to_.space with
  | .kernel => (to_, src.length)
  | .user => ({ to_ with bytes := overlay (src.take to_.good) to_.bytes }, src.length - to_.good)

/-- `copy_from_user(.., from, n)`: the `n` bytes of the destination afterwards, and how many bytes
were not copied. These are zeros in the destination. -/
def copyFromUser (src : Mem) (n : ℕ) : List UInt8 × ℕ :=
  match src.space with
  | .kernel => (List.replicate n 0, n)
  | .user => (((src.bytes.take n).take src.good).rightpad n 0, n - src.good)

/-- An `iov_iter` over user segments. -/
structure Iter where
  segs : List (List UInt8)
  good : ℕ

def Iter.data (it : Iter) : List UInt8 := it.segs.flatten

/-- `iov_iter_count(iter)`. -/
def Iter.count (it : Iter) : ℕ := it.data.length

/-- Segments without a bad page. -/
def Iter.user (segs : List (List UInt8)) : Iter := ⟨segs, segs.flatten.length⟩

/-- `copy_to_iter(src, n, iter)` for the `n` bytes `src`: the segments afterwards, and how many
bytes were copied. -/
def copyToIter (src : List UInt8) (it : Iter) : Iter × ℕ :=
  let moved := (src.take it.good).take it.count
  ({ it with segs := fill moved it.segs }, moved.length)

/-- `copy_from_iter(.., n, iter)`: the bytes that were copied. -/
def copyFromIter (n : ℕ) (it : Iter) : List UInt8 := (it.data.take n).take it.good

theorem copyFromUser_length (src : Mem) (n : ℕ) : (copyFromUser src n).1.length = n := by
  unfold copyFromUser
  split
  · exact List.length_replicate
  · have hle : ((src.bytes.take n).take src.good).length ≤ n :=
      Nat.le_trans (List.length_take_le' _ _) (List.length_take_le _ _)
    rw [List.length_rightpad, Nat.max_eq_left hle]

/-- A copy of `n` bytes from or to this memory does not get to its end. -/
def Mem.faults (m : Mem) (n : ℕ) : Bool :=
  match m.space with
  | .kernel => n != 0
  | .user => decide (m.good < n)

theorem copyToUser_faults (m : Mem) (src : List UInt8) :
    (copyToUser m src).2 ≠ 0 ↔ m.faults src.length = true := by
  unfold copyToUser Mem.faults
  cases m.space with
  | kernel => rw [bne_iff_ne]
  | user =>
    rw [decide_eq_true_eq]
    exact Nat.sub_ne_zero_iff_lt

theorem copyFromUser_faults (m : Mem) (n : ℕ) :
    (copyFromUser m n).2 ≠ 0 ↔ m.faults n = true := by
  unfold copyFromUser Mem.faults
  cases m.space with
  | kernel => rw [bne_iff_ne]
  | user =>
    rw [decide_eq_true_eq]
    exact Nat.sub_ne_zero_iff_lt

theorem copyToUser_kernel {m : Mem} (h : m.space = .kernel) (src : List UInt8) :
    copyToUser m src = (m, src.length) := by
  simp only [copyToUser, h]

theorem copyFromUser_kernel {m : Mem} (h : m.space = .kernel) (n : ℕ) :
    copyFromUser m n = (List.replicate n 0, n) := by
  simp only [copyFromUser, h]

theorem copyToUser_user (bytes : List UInt8) {src : List UInt8} (h : src.length ≤ bytes.length) :
    copyToUser (.user bytes) src = (⟨.user, overlay src bytes, bytes.length⟩, 0) := by
  simp [copyToUser, Mem.user, List.take_of_length_le h, Nat.sub_eq_zero_of_le h]

theorem copyFromUser_user (bytes : List UInt8) {n : ℕ} (h : n ≤ bytes.length) :
    copyFromUser (.user bytes) n = (bytes.take n, 0) := by
  have hlen : (bytes.take n).length ≤ bytes.length := List.length_take_le' _ _
  have hall : (bytes.take n).length = n := by rw [List.length_take, Nat.min_eq_left h]
  simp [copyFromUser, Mem.user, List.take_of_length_le hlen, Nat.sub_eq_zero_of_le h,
    List.rightpad, hall]

end LinuxDriverFramework
