import Mathlib.Algebra.Ring.Nat
import Mathlib.Logic.Function.Basic
import Mathlib.Order.Basic
import Mathlib.Tactic.Simps.Basic

/-! # Objects in the custody of their holders

A supplier hands out objects, numbered in order, and takes each of them back once. A holder keeps
a pointer to its object and a mark that says that it has one.

* `Pointer`: what a holder keeps. A `stray` pointer is not null and leads to no object.
* `Custody`: the objects, how often each was taken back, the pointers and the marks, and how often
  something was done through a pointer to no object.
* `Sound`: pointers and marks agree, and nothing is lost or taken back twice.
* `Sound.take`, `Sound.attempt`, `Sound.drop`: the three things that a holder may do.
* `Reading`: how the custody is read out of the records and the call log of a program. -/

namespace Foundations
set_option autoImplicit false

universe u

inductive Pointer
  | null
  | stray
  | object (n : ℕ)
  deriving DecidableEq, Repr

/-- A pointer that is either null or right. -/
def Pointer.ofOption : Option ℕ → Pointer
  | none => .null
  | some n => .object n

theorem Pointer.ofOption_eq_object {p : Option ℕ} {n : ℕ} :
    Pointer.ofOption p = .object n ↔ p = some n := by
  cases p with
  | none => simp [ofOption]
  | some m => simp [ofOption]

structure Custody (ι : Type u) where
  issued : ℕ
  live : ℕ → Bool
  releases : ℕ → ℕ
  held : ι → Pointer
  marked : ι → Bool
  misuses : ℕ

namespace Custody

variable {ι : Type u}

/-- A new object, which gets the next number. -/
@[simps] def issue (c : Custody ι) : Custody ι :=
  { c with issued := c.issued + 1, live := Function.update c.live c.issued true }

@[simps] def use (c : Custody ι) (n : ℕ) : Custody ι :=
  { c with misuses := c.misuses + if c.live n then 0 else 1 }

@[simps] def release (c : Custody ι) (n : ℕ) : Custody ι :=
  { c with
    live := Function.update c.live n false
    releases := Function.update c.releases n (c.releases n + 1)
    misuses := c.misuses + if c.live n then 0 else 1 }

@[simps] def place [DecidableEq ι] (c : Custody ι) (x : ι) (p : Pointer) (marked : Bool) : Custody ι :=
  { c with held := Function.update c.held x p, marked := Function.update c.marked x marked }

structure Sound (c : Custody ι) : Prop where
  marked_iff : ∀ x, c.held x ≠ .null ↔ c.marked x = true
  live : ∀ x, c.held x ≠ .null → ∃ n, c.held x = .object n ∧ c.live n = true
  owner : ∀ n, c.live n = true → ∃ x, c.held x = .object n
  alone : ∀ x y n, c.held x = .object n → c.held y = .object n → x = y
  released : ∀ n, n < c.issued → c.releases n = if c.live n then 0 else 1
  unissued : ∀ n, c.issued ≤ n → c.live n = false ∧ c.releases n = 0
  clean : c.misuses = 0

/-! ## What a sound custody says -/

namespace Sound

variable {c : Custody ι} {x : ι} {n : ℕ}

theorem held_of_marked (h : Sound c) (hx : c.marked x = true) :
    ∃ n, c.held x = .object n ∧ c.live n = true :=
  h.live x ((h.marked_iff x).mpr hx)

theorem null_of_not_marked (h : Sound c) (hx : c.marked x = false) : c.held x = .null := by
  by_contra hne
  have hm := (h.marked_iff x).mp hne
  rw [hx] at hm
  cases hm

theorem live_of_held (h : Sound c) (hx : c.held x = .object n) : c.live n = true := by
  obtain ⟨m, hm, hlive⟩ := h.live x (by rw [hx]; exact Pointer.noConfusion)
  rw [hx, Pointer.object.injEq] at hm
  rwa [hm]

theorem lt_of_live (h : Sound c) (hn : c.live n = true) : n < c.issued := by
  by_contra hge
  have hdead := (h.unissued n (by omega)).1
  rw [hn] at hdead
  cases hdead

/-- A live object is not held by a holder without a mark. -/
theorem ne_of_held (h : Sound c) (hx : c.marked x = false) {y : ι} (hy : c.held y = .object n) :
    y ≠ x := by
  rintro rfl
  rw [h.null_of_not_marked hx] at hy
  cases hy

end Sound

/-- Nothing has been handed out, and no holder has a pointer. -/
theorem sound_initial {c : Custody ι} (hissued : c.issued = 0) (hlive : ∀ n, c.live n = false)
    (hreleases : ∀ n, c.releases n = 0) (hheld : ∀ x, c.held x = .null)
    (hmarked : ∀ x, c.marked x = false) (hmisuses : c.misuses = 0) : Sound c where
  marked_iff x := by simp [hheld, hmarked]
  live x hne := absurd (hheld x) hne
  owner n hn := by simp [hlive] at hn
  alone x y n hx _ := by simp [hheld] at hx
  released n hn := by omega
  unissued n _ := ⟨hlive n, hreleases n⟩
  clean := hmisuses

/-- A holder that is left with a stray pointer. -/
theorem not_sound_of_stray {c : Custody ι} {x : ι} (hx : c.held x = .stray) : ¬ Sound c := by
  intro h
  obtain ⟨n, hn, -⟩ := h.live x (by rw [hx]; exact Pointer.noConfusion)
  rw [hx] at hn
  cases hn

/-! ## Rewriting -/

theorem use_of_live {c : Custody ι} {n : ℕ} (h : c.live n = true) : c.use n = c := by
  simp only [use, h, if_true, Nat.add_zero]

variable [DecidableEq ι]

theorem place_self (c : Custody ι) (x : ι) : c.place x (c.held x) (c.marked x) = c := by
  simp only [place, Function.update_eq_self]

@[simp] theorem place_place (c : Custody ι) (x : ι) (p q : Pointer) (a b : Bool) :
    (c.place x p a).place x q b = c.place x q b := by
  simp only [place, Function.update_idem]

@[simp] theorem release_place (c : Custody ι) (x : ι) (p : Pointer) (b : Bool) (n : ℕ) :
    (c.place x p b).release n = (c.release n).place x p b := rfl

@[simp] theorem use_place (c : Custody ι) (x : ι) (p : Pointer) (b : Bool) (n : ℕ) :
    (c.place x p b).use n = (c.use n).place x p b := rfl

/-! ## What a holder without an object may do -/

namespace Sound

variable {c : Custody ι} {x : ι} {n : ℕ}

/-- The next object is taken and kept. -/
theorem take (h : Sound c) (hx : c.marked x = false) :
    Sound (c.issue.place x (.object c.issued) true) where
  marked_iff y := by
    by_cases hy : y = x
    · subst hy; simp
    · simpa [Function.update_of_ne hy] using h.marked_iff y
  live y hne := by
    by_cases hy : y = x
    · subst hy
      exact ⟨c.issued, by simp, by simp⟩
    · simp only [place_held, issue_held, Function.update_of_ne hy] at hne ⊢
      obtain ⟨n, hn, hlive⟩ := h.live y hne
      have hlt := h.lt_of_live hlive
      exact ⟨n, hn, by simpa [Function.update_of_ne hlt.ne] using hlive⟩
  owner n hn := by
    by_cases hnew : n = c.issued
    · exact ⟨x, by simp [hnew]⟩
    · simp only [place_live, issue_live, Function.update_of_ne hnew] at hn
      obtain ⟨y, hy⟩ := h.owner n hn
      exact ⟨y, by simpa [Function.update_of_ne (h.ne_of_held hx hy)] using hy⟩
  alone y z n hy hz := by
    have hold : ∀ v, v ≠ x → (c.issue.place x (.object c.issued) true).held v = .object n →
        c.held v = .object n ∧ n ≠ c.issued := by
      intro v hv hh
      simp only [place_held, issue_held, Function.update_of_ne hv] at hh
      exact ⟨hh, (h.lt_of_live (h.live_of_held hh)).ne⟩
    have hnew : ∀ v, v = x → (c.issue.place x (.object c.issued) true).held v = .object n →
        n = c.issued := by
      rintro v rfl hh
      simpa using hh.symm
    by_cases hyx : y = x
    · by_cases hzx : z = x
      · rw [hyx, hzx]
      · exact absurd (hnew y hyx hy) (hold z hzx hz).2
    · by_cases hzx : z = x
      · exact absurd (hnew z hzx hz) (hold y hyx hy).2
      · exact h.alone y z n (hold y hyx hy).1 (hold z hzx hz).1
  released n hn := by
    by_cases hnew : n = c.issued
    · simp [hnew, (h.unissued c.issued le_rfl).2]
    · have hlt : n < c.issued := by
        simp only [place_issued, issue_issued] at hn
        omega
      simpa [Function.update_of_ne hnew] using h.released n hlt
  unissued n hn := by
    simp only [place_issued, issue_issued] at hn
    have hnew : n ≠ c.issued := by omega
    simpa [Function.update_of_ne hnew] using h.unissued n (by omega)
  clean := h.clean

/-- The next object is taken back at once, and the holder is left without one. -/
theorem attempt (h : Sound c) (hx : c.marked x = false) :
    Sound ((c.issue.release c.issued).place x .null false) := by
  have hplace : (c.issue.release c.issued).place x .null false = c.issue.release c.issued := by
    have hnull := h.null_of_not_marked hx
    calc (c.issue.release c.issued).place x .null false
        = (c.issue.release c.issued).place x (c.held x) (c.marked x) := by rw [hnull, hx]
      _ = c.issue.release c.issued := place_self (c.issue.release c.issued) x
  have hfresh := h.unissued c.issued le_rfl
  have hlive : (c.issue.release c.issued).live = c.live := by
    funext n
    by_cases hn : n = c.issued
    · simp [hn, hfresh.1]
    · simp [Function.update_of_ne hn]
  rw [hplace]
  refine ⟨h.marked_iff, ?_, ?_, h.alone, ?_, ?_, ?_⟩
  · rw [hlive]
    exact h.live
  · rw [hlive]
    exact h.owner
  · intro n hn
    rw [hlive]
    by_cases hnew : n = c.issued
    · simp [hnew, hfresh.1, hfresh.2]
    · have hlt : n < c.issued := by
        simp only [release_issued, issue_issued] at hn
        omega
      simpa [Function.update_of_ne hnew] using h.released n hlt
  · intro n hn
    simp only [release_issued, issue_issued] at hn
    have hnew : n ≠ c.issued := by omega
    rw [hlive]
    simpa [Function.update_of_ne hnew] using h.unissued n (by omega)
  · simp [h.clean]

/-! ## What a holder with an object may do -/

/-- The object is used once more and given back. -/
theorem drop (h : Sound c) (hx : c.held x = .object n) :
    Sound (((c.use n).release n).place x .null false) where
  marked_iff y := by
    by_cases hy : y = x
    · subst hy; simp
    · simpa [Function.update_of_ne hy] using h.marked_iff y
  live y hne := by
    by_cases hy : y = x
    · subst hy; simp at hne
    · simp only [place_held, release_held, use_held, Function.update_of_ne hy] at hne ⊢
      obtain ⟨m, hm, hlive⟩ := h.live y hne
      have hmn : m ≠ n := by
        rintro rfl
        exact hy (h.alone y x m hm hx)
      exact ⟨m, hm, by simpa [Function.update_of_ne hmn] using hlive⟩
  owner m hm := by
    have hmn : m ≠ n := by
      rintro rfl
      simp at hm
    simp only [place_live, release_live, use_live, Function.update_of_ne hmn] at hm
    obtain ⟨y, hy⟩ := h.owner m hm
    have hyx : y ≠ x := by
      rintro rfl
      rw [hx, Pointer.object.injEq] at hy
      exact hmn hy.symm
    exact ⟨y, by simpa [Function.update_of_ne hyx] using hy⟩
  alone y z m hy hz := by
    have hold : ∀ v, (((c.use n).release n).place x .null false).held v = .object m →
        c.held v = .object m := by
      intro v hv
      by_cases hvx : v = x
      · subst hvx; simp at hv
      · simpa [Function.update_of_ne hvx] using hv
    exact h.alone y z m (hold y hy) (hold z hz)
  released m hm := by
    by_cases hmn : m = n
    · have hone := h.released n (h.lt_of_live (h.live_of_held hx))
      simp [hmn, hone, h.live_of_held hx]
    · simpa [Function.update_of_ne hmn] using h.released m hm
  unissued m hm := by
    have hmn : m ≠ n := by
      have hlt := h.lt_of_live (h.live_of_held hx)
      simp only [place_issued, release_issued, use_issued] at hm
      omega
    simpa [Function.update_of_ne hmn] using h.unissued m hm
  clean := by simp [h.clean, h.live_of_held hx]

end Sound

end Custody

/-! ## Reading a custody out of a program's state -/

universe v w t

/-- Where the records of type `δ` keep pointer and mark, and which logged calls give an object
back or are made on an object that is not there. -/
structure Reading (δ : Type v) (κ : Type w) where
  pointer : δ → Pointer
  mark : δ → Bool
  gives : κ → ℕ → Bool
  misuse : κ → Bool

namespace Reading

variable {ι : Type u} {δ : Type v} {κ : Type w} {ο : Type t} (r : Reading δ κ)

def custody (records : ι → δ) (objects : ℕ → Option ο) (next : ℕ) (calls : List κ) :
    Custody ι where
  issued := next
  live n := (objects n).isSome
  releases n := calls.countP fun k => r.gives k n
  held x := r.pointer (records x)
  marked x := r.mark (records x)
  misuses := calls.countP r.misuse

variable (records : ι → δ) (objects : ℕ → Option ο) (next : ℕ) (calls : List κ)

theorem custody_update [DecidableEq ι] (x : ι) (d : δ) :
    r.custody (Function.update records x d) objects next calls =
      (r.custody records objects next calls).place x (r.pointer d) (r.mark d) := by
  simp only [custody, Custody.place, Custody.mk.injEq, true_and, and_true]
  constructor
  · funext y
    by_cases hy : y = x
    · subst hy; simp
    · simp [Function.update_of_ne hy]
  · funext y
    by_cases hy : y = x
    · subst hy; simp
    · simp [Function.update_of_ne hy]

theorem custody_update_same [DecidableEq ι] (x : ι) (d : δ)
    (hd : r.pointer d = r.pointer (records x) ∧ r.mark d = r.mark (records x)) :
    r.custody (Function.update records x d) objects next calls =
      r.custody records objects next calls := by
  rw [custody_update, hd.1, hd.2]
  exact Custody.place_self (r.custody records objects next calls) x

/-- What is written into an object does not matter. -/
theorem custody_modify (n : ℕ) (f : ο → ο) :
    r.custody records (Function.update objects n ((objects n).map f)) next calls =
      r.custody records objects next calls := by
  simp only [custody, Custody.mk.injEq, true_and, and_true]
  funext m
  by_cases hm : m = n
  · subst hm; simp
  · simp [Function.update_of_ne hm]

theorem custody_issue (o : ο) :
    r.custody records (Function.update objects next (some o)) (next + 1) calls =
      (r.custody records objects next calls).issue := by
  simp only [custody, Custody.issue, Custody.mk.injEq, true_and, and_true]
  funext n
  by_cases hn : n = next
  · subst hn; simp
  · simp [Function.update_of_ne hn]

variable {r} {k : κ}

/-- A call that is about no object. -/
theorem custody_skip (hgives : ∀ n, r.gives k n = false) (hmisuse : r.misuse k = false) :
    r.custody records objects next (k :: calls) = r.custody records objects next calls := by
  simp [custody, hgives, hmisuse]

theorem custody_use {n : ℕ} (hgives : ∀ n, r.gives k n = false)
    (hmisuse : r.misuse k = !(objects n).isSome) :
    r.custody records objects next (k :: calls) = (r.custody records objects next calls).use n := by
  by_cases hn : (objects n).isSome = true
  · simp [custody, Custody.use, hgives, hmisuse, hn]
  · simp [custody, Custody.use, hgives, hmisuse, hn]

theorem custody_release {n : ℕ} (hgives : ∀ m, r.gives k m = decide (m = n))
    (hmisuse : r.misuse k = !(objects n).isSome) :
    r.custody records (Function.update objects n none) next (k :: calls) =
      (r.custody records objects next calls).release n := by
  simp only [custody, Custody.release, Custody.mk.injEq, true_and]
  refine ⟨?_, ?_, ?_⟩
  · funext m
    by_cases hm : m = n
    · subst hm; simp
    · simp [Function.update_of_ne hm]
  · funext m
    by_cases hm : m = n
    · subst hm; simp [hgives]
    · simp [hgives, hm]
  · by_cases hn : (objects n).isSome = true
    · simp [hmisuse, hn]
    · simp [hmisuse, hn]

/-- A call on no object upsets the custody for good. -/
theorem not_sound_of_misuse {records : ι → δ} {objects : ℕ → Option ο} {next : ℕ} {calls : List κ}
    (hk : k ∈ calls) (hmisuse : r.misuse k = true) :
    ¬ (r.custody records objects next calls).Sound := by
  intro h
  have hpos : 0 < calls.countP r.misuse := List.countP_pos_iff.mpr ⟨k, hk, hmisuse⟩
  exact absurd h.clean hpos.ne'

end Reading
end Foundations
