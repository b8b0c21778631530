import Mathlib.Data.List.Basic
import Mathlib.Data.List.GetD
import Mathlib.Algebra.Order.Group.Nat

/-! # A flat memory

Memory is a function from addresses to cells; a list is stored in it from an address on.

* `store`, `fetch`: write a list and read one.
* `fetch_store_inside`, `fetch_store_apart`: what is read after a write.
* `store_append`, `store_cons`, `fetch_add`: a range can be written and read in parts.
* `block`: a list or a memory in blocks of equal size; `blockAt_store` says that a store of whole
  blocks replaces whole blocks. -/

namespace Foundations
set_option autoImplicit false

universe u
variable {α : Type u}

def store (m : ℕ → α) (off : ℕ) (l : List α) : ℕ → α := fun i =>
  if off ≤ i then l.getD (i - off) (m i) else m i

def fetch (m : ℕ → α) (off n : ℕ) : List α := (List.range n).map fun j => m (off + j)

variable (m : ℕ → α) (off : ℕ) (l : List α)

@[simp] theorem length_fetch (n : ℕ) : (fetch m off n).length = n := by
  simp only [fetch, List.length_map, List.length_range]

@[simp] theorem store_nil : store m off [] = m := by
  funext i
  simp only [store, List.getD_nil, ite_self]

theorem getElem_fetch {n j : ℕ} (h : j < (fetch m off n).length) :
    (fetch m off n)[j] = m (off + j) := by
  simp only [fetch, List.getElem_map, List.getElem_range]

theorem store_inside {j : ℕ} (h : j < l.length) : store m off l (off + j) = l[j] := by
  have hle : off ≤ off + j := by omega
  have hsub : off + j - off = j := by omega
  simp only [store, if_pos hle, hsub, List.getD_eq_getElem _ _ h]

theorem store_outside {i : ℕ} (h : i < off ∨ off + l.length ≤ i) : store m off l i = m i := by
  by_cases hle : off ≤ i
  · have hlen : l.length ≤ i - off := by omega
    simp only [store, if_pos hle, List.getD_eq_default _ _ hlen]
  · simp only [store, if_neg hle]

theorem store_append (l' : List α) :
    store m off (l ++ l') = store (store m off l) (off + l.length) l' := by
  funext i
  by_cases hl : i < off + l.length
  · rw [store_outside (store m off l) (off + l.length) l' (.inl hl)]
    by_cases hle : off ≤ i
    · obtain ⟨j, rfl⟩ : ∃ j, i = off + j := ⟨i - off, by omega⟩
      have hj : j < l.length := by omega
      have hj' : j < (l ++ l').length := by
        rw [List.length_append]
        omega
      rw [store_inside m off l hj, store_inside m off (l ++ l') hj', List.getElem_append_left hj]
    · rw [store_outside m off l (.inl (by omega)), store_outside m off (l ++ l') (.inl (by omega))]
  · obtain ⟨j, rfl⟩ : ∃ j, i = off + l.length + j := ⟨i - (off + l.length), by omega⟩
    by_cases hj : j < l'.length
    · have hj' : l.length + j < (l ++ l').length := by
        rw [List.length_append]
        omega
      have hleft := store_inside m off (l ++ l') hj'
      rw [← Nat.add_assoc] at hleft
      rw [hleft, store_inside (store m off l) (off + l.length) l' hj,
        List.getElem_append_right (by omega)]
      simp only [Nat.add_sub_cancel_left]
    · rw [store_outside (store m off l) (off + l.length) l' (.inr (by omega)),
        store_outside m off l (.inr (by omega)), store_outside m off (l ++ l') (.inr ?_)]
      rw [List.length_append]
      omega

theorem store_cons (a : α) :
    store m off (a :: l) = store (Function.update m off a) (off + 1) l := by
  have hone : store m off [a] = Function.update m off a := by
    funext i
    rcases Nat.lt_trichotomy i off with hlt | rfl | hgt
    · rw [store_outside m off [a] (.inl hlt), Function.update_of_ne (by omega)]
    · exact (store_inside m i [a] Nat.one_pos).trans (Function.update_self i a m).symm
    · rw [store_outside m off [a] (.inr hgt), Function.update_of_ne (by omega)]
  rw [← hone]
  exact store_append m off [a] l

theorem fetch_add (n k : ℕ) : fetch m off (n + k) = fetch m off n ++ fetch m (off + n) k := by
  simp only [fetch, List.range_add, List.map_append, List.map_map]
  congr 2
  funext j
  simp only [Function.comp_apply, Nat.add_assoc]

theorem take_drop_fetch {n j k : ℕ} (h : j + k ≤ n) :
    ((fetch m off n).drop j).take k = fetch m (off + j) k := by
  obtain ⟨rest, rfl⟩ : ∃ rest, n = j + (k + rest) := ⟨n - (j + k), by omega⟩
  have hdrop : (fetch m off j).length = j := length_fetch m off j
  have htake : (fetch m (off + j) k).length = k := length_fetch m (off + j) k
  rw [fetch_add, fetch_add, List.drop_left' hdrop, List.take_left' htake]

theorem fetch_congr {m' : ℕ → α} {n : ℕ} (h : ∀ j < n, m (off + j) = m' (off + j)) :
    fetch m off n = fetch m' off n :=
  List.map_congr_left fun j hj => h j (List.mem_range.mp hj)

theorem fetch_store_inside {j k : ℕ} (h : j + k ≤ l.length) :
    fetch (store m off l) (off + j) k = (l.drop j).take k := by
  apply List.ext_getElem
  · rw [length_fetch, List.length_take, List.length_drop]
    omega
  · intro i hi hi'
    rw [length_fetch] at hi
    rw [getElem_fetch, Nat.add_assoc, store_inside m off l (by omega), List.getElem_take,
      List.getElem_drop]

theorem fetch_store_apart {off' n : ℕ} (h : off' + n ≤ off ∨ off + l.length ≤ off') :
    fetch (store m off l) off' n = fetch m off' n :=
  fetch_congr _ _ fun j hj => store_outside m off l (by omega)

/-! ## Blocks -/

section Block

variable (size : ℕ)

def block (l : List α) (k : ℕ) : List α := (l.drop (k * size)).take size

def blockAt (m : ℕ → α) (k : ℕ) : List α := fetch m (k * size) size

/-- Reading `n` blocks reads whole blocks. -/
theorem block_fetch {start n k : ℕ} (h : k < n) :
    block size (fetch m (start * size) (n * size)) k = blockAt size m (start + k) := by
  have hle : k * size + size ≤ n * size := by
    rw [← Nat.succ_mul]
    exact Nat.mul_le_mul_right size h
  rw [block, take_drop_fetch m _ hle, blockAt, Nat.add_mul]

/-- Writing `n` blocks replaces whole blocks and no others. -/
theorem blockAt_store {start n : ℕ} (hn : l.length = n * size) (k : ℕ) :
    blockAt size (store m (start * size) l) k =
      if start ≤ k ∧ k < start + n then block size l (k - start) else blockAt size m k := by
  by_cases hin : start ≤ k ∧ k < start + n
  · obtain ⟨j, rfl⟩ : ∃ j, k = start + j := ⟨k - start, by omega⟩
    have hj : j + 1 ≤ n := by omega
    have hle : j * size + size ≤ l.length := by
      rw [hn, ← Nat.succ_mul]
      exact Nat.mul_le_mul_right size hj
    rw [if_pos hin, Nat.add_sub_cancel_left, blockAt, Nat.add_mul, fetch_store_inside m _ l hle,
      block]
  · rw [if_neg hin, blockAt, blockAt]
    apply fetch_store_apart
    rcases Nat.lt_or_ge k start with hlt | hge
    · left
      rw [← Nat.succ_mul]
      exact Nat.mul_le_mul_right size hlt
    · right
      rw [hn, ← Nat.add_mul]
      apply Nat.mul_le_mul_right
      omega

theorem blockAt_update {addr k : ℕ} (h : addr < k * size ∨ k * size + size ≤ addr) (a : α) :
    blockAt size (Function.update m addr a) k = blockAt size m k :=
  fetch_congr _ _ fun j hj => Function.update_of_ne (by omega) a m

theorem block_append_right {l l' : List α} {n : ℕ} (hn : l.length = n * size) {k : ℕ} :
    block size (l ++ l') (n + k) = block size l' k := by
  rw [block, Nat.add_mul, ← hn, ← List.drop_drop, List.drop_left, block]

theorem block_append_left {l l' : List α} {n : ℕ} (hn : l.length = n * size) {k : ℕ} (h : k < n) :
    block size (l ++ l') k = block size l k := by
  have hle : k * size + size ≤ l.length := by
    rw [hn, ← Nat.succ_mul]
    exact Nat.mul_le_mul_right size h
  rw [block, block, List.drop_append_of_le_length (by omega),
    List.take_append_of_le_length]
  rw [List.length_drop]
  omega

end Block

end Foundations
