import Mathlib.Data.List.Nodup
import Mathlib.Data.List.Pairwise
import Mathlib.Order.BooleanAlgebra.Set
import Mathlib.Logic.Function.Basic

/-! # Leased intervals and who owes their return

* `Span`, `Apart`, `Packed`: a list of resources that occupy disjoint intervals of at least one
  number. In such a list an interval names one resource, so that a release by start and length
  frees the one it means (`Packed.eraseP_eq`).
* `Exact held duty`: every held resource is owed by exactly one party, once. `take`, `pass`,
  `passAll` and `discharge` are what the parties can do.
-/

namespace Foundations
set_option autoImplicit false

universe u v

/-! ## Intervals -/

structure Span where
  first : ℕ
  count : ℕ
  deriving DecidableEq, Repr

def Span.Apart (s t : Span) : Prop := s.first + s.count ≤ t.first ∨ t.first + t.count ≤ s.first

theorem Span.Apart.symm {s t : Span} (h : s.Apart t) : t.Apart s := Or.symm h

theorem Span.not_apart_self {s : Span} (h : 0 < s.count) : ¬ s.Apart s := by
  rintro (h' | h') <;> omega

section Packed

variable {α : Type u} {span : α → Span}

structure Packed (span : α → Span) (l : List α) : Prop where
  positive : ∀ r ∈ l, 0 < (span r).count
  apart : l.Pairwise fun r s => (span r).Apart (span s)

theorem packed_nil : Packed span [] := ⟨fun _ h => absurd h List.not_mem_nil, .nil⟩

theorem Packed.cons {l : List α} (h : Packed span l) {a : α} (hpos : 0 < (span a).count)
    (ha : ∀ r ∈ l, (span a).Apart (span r)) : Packed span (a :: l) where
  positive := fun r hr => by
    rcases List.mem_cons.mp hr with rfl | hr
    · exact hpos
    · exact h.positive r hr
  apart := List.pairwise_cons.mpr ⟨ha, h.apart⟩

theorem Packed.nodup {l : List α} (h : Packed span l) : l.Nodup := by
  refine h.apart.imp_of_mem fun {a b} ha _ hab => ?_
  rintro rfl
  exact Span.not_apart_self (h.positive a ha) hab

/-- An interval names one resource. -/
theorem Packed.eq_of_span {l : List α} (h : Packed span l) {r s : α} (hr : r ∈ l) (hs : s ∈ l)
    (he : span r = span s) : r = s := by
  by_contra hne
  have : Std.Symm fun r s : α => (span r).Apart (span s) := ⟨fun _ _ hab => hab.symm⟩
  have hapart := h.apart.forall hr hs hne
  rw [he] at hapart
  exact Span.not_apart_self (h.positive s hs) hapart

variable [DecidableEq α]

theorem Packed.erase {l : List α} (h : Packed span l) (a : α) : Packed span (l.erase a) :=
  ⟨fun r hr => h.positive r (List.mem_of_mem_erase hr), h.apart.sublist List.erase_sublist⟩

/-- Freeing by interval frees the resource that has it. -/
theorem Packed.eraseP_eq {l : List α} (h : Packed span l) {a : α} (ha : a ∈ l) {p : α → Bool}
    (hp : ∀ r, p r = true ↔ span r = span a) : l.eraseP p = l.erase a := by
  have heq : ∀ r ∈ l, p r = true ↔ r = a := fun r hr =>
    (hp r).trans ⟨fun he => h.eq_of_span hr ha he, fun he => by rw [he]⟩
  clear h ha hp
  induction l with
  | nil => rfl
  | cons b l ih =>
    by_cases hb : b = a
    · rw [List.eraseP_cons_of_pos ((heq b (List.mem_cons_self ..)).mpr hb), hb, List.erase_cons_head]
    · have hpb : ¬ p b = true := fun hpb => hb ((heq b (List.mem_cons_self ..)).mp hpb)
      rw [List.eraseP_cons_of_neg hpb, List.erase_cons_tail (by simpa using hb),
        ih fun r hr => heq r (List.mem_cons_of_mem _ hr)]

end Packed

/-! ## Duties -/

section Exact

variable {κ : Type u} {ι : Type v} [DecidableEq κ]

structure Exact (held : Set ι) (duty : κ → List ι) : Prop where
  nodup : ∀ k, (duty k).Nodup
  apart : ∀ k k' i, i ∈ duty k → i ∈ duty k' → k = k'
  owed : ∀ i, i ∈ held ↔ ∃ k, i ∈ duty k

variable {held : Set ι} {duty : κ → List ι}

theorem Exact.take (h : Exact held duty) {i : ι} (hi : i ∉ held) (k : κ) :
    Exact (insert i held) (Function.update duty k (i :: duty k)) := by
  have hnot : ∀ k, i ∉ duty k := fun k hk => hi ((h.owed i).mpr ⟨k, hk⟩)
  have hmem : ∀ k' j, j ∈ Function.update duty k (i :: duty k) k' ↔
      (k' = k ∧ j = i) ∨ j ∈ duty k' := by
    intro k' j
    by_cases hk : k' = k
    · subst hk; simp
    · simp [hk]
  refine ⟨fun k' => ?_, fun k₁ k₂ j h₁ h₂ => ?_, fun j => ?_⟩
  · by_cases hk : k' = k
    · subst hk
      simpa using ⟨hnot k', h.nodup k'⟩
    · simpa [hk] using h.nodup k'
  · rw [hmem] at h₁ h₂
    rcases h₁ with ⟨rfl, rfl⟩ | h₁
    · rcases h₂ with ⟨rfl, -⟩ | h₂
      · rfl
      · exact absurd h₂ (hnot k₂)
    · rcases h₂ with ⟨rfl, rfl⟩ | h₂
      · exact absurd h₁ (hnot k₁)
      · exact h.apart k₁ k₂ j h₁ h₂
  · simp only [Set.mem_insert_iff, h.owed, hmem]
    constructor
    · rintro (rfl | ⟨k', hk'⟩)
      · exact ⟨k, .inl ⟨rfl, rfl⟩⟩
      · exact ⟨k', .inr hk'⟩
    · rintro ⟨k', ⟨-, rfl⟩ | hk'⟩
      · exact .inl rfl
      · exact .inr ⟨k', hk'⟩

/-- A party hands all it owes to one that owes nothing. -/
theorem Exact.passAll (h : Exact held duty) {k k' : κ} (hk : duty k' = []) (hne : k ≠ k') :
    Exact held (Function.update (Function.update duty k []) k' (duty k)) := by
  have hmem : ∀ m j, j ∈ Function.update (Function.update duty k []) k' (duty k) m ↔
      (m = k' ∧ j ∈ duty k) ∨ (m ≠ k ∧ m ≠ k' ∧ j ∈ duty m) := by
    intro m j
    by_cases hm' : m = k'
    · subst hm'; simp
    · by_cases hm : m = k
      · subst hm; simp [hm']
      · simp [hm, hm']
  refine ⟨fun m => ?_, fun m₁ m₂ j h₁ h₂ => ?_, fun j => ?_⟩
  · by_cases hm' : m = k'
    · subst hm'; simpa using h.nodup k
    · by_cases hm : m = k
      · subst hm; simp [hm']
      · simpa [hm, hm'] using h.nodup m
  · rw [hmem] at h₁ h₂
    rcases h₁ with ⟨rfl, h₁⟩ | ⟨hm₁, -, h₁⟩
    · rcases h₂ with ⟨rfl, -⟩ | ⟨hm₂, -, h₂⟩
      · rfl
      · exact absurd (h.apart k m₂ j h₁ h₂).symm hm₂
    · rcases h₂ with ⟨rfl, h₂⟩ | ⟨-, -, h₂⟩
      · exact absurd (h.apart m₁ k j h₁ h₂) hm₁
      · exact h.apart m₁ m₂ j h₁ h₂
  · rw [h.owed]
    simp only [hmem]
    constructor
    · rintro ⟨m, hm⟩
      by_cases hmk : m = k
      · exact ⟨k', .inl ⟨rfl, hmk ▸ hm⟩⟩
      · have hmk' : m ≠ k' := by
          rintro rfl
          rw [hk] at hm
          exact List.not_mem_nil hm
        exact ⟨m, .inr ⟨hmk, hmk', hm⟩⟩
    · rintro ⟨m, ⟨-, hm⟩ | ⟨-, -, hm⟩⟩
      · exact ⟨k, hm⟩
      · exact ⟨m, hm⟩

/-- A party gives back the first resource it owes. -/
theorem Exact.discharge (h : Exact held duty) {k : κ} {i : ι} {l : List ι} (hk : duty k = i :: l) :
    Exact (held \ {i}) (Function.update duty k l) := by
  have hnodup := h.nodup k
  rw [hk, List.nodup_cons] at hnodup
  have hmem : ∀ m j, j ∈ Function.update duty k l m ↔ j ≠ i ∧ j ∈ duty m := by
    intro m j
    by_cases hm : m = k
    · subst hm
      rw [Function.update_self, hk, List.mem_cons]
      constructor
      · exact fun hj => ⟨fun hji => hnodup.1 (hji ▸ hj), .inr hj⟩
      · rintro ⟨hji, rfl | hj⟩
        · exact absurd rfl hji
        · exact hj
    · rw [Function.update_of_ne hm]
      refine ⟨fun hj => ⟨?_, hj⟩, fun hj => hj.2⟩
      rintro rfl
      exact hm (h.apart m k j hj (by rw [hk]; exact List.mem_cons_self ..))
  refine ⟨fun m => ?_, fun m₁ m₂ j h₁ h₂ => ?_, fun j => ?_⟩
  · by_cases hm : m = k
    · subst hm
      simpa using hnodup.2
    · simpa [hm] using h.nodup m
  · rw [hmem] at h₁ h₂
    exact h.apart m₁ m₂ j h₁.2 h₂.2
  · simp only [Set.mem_sdiff, Set.mem_singleton_iff, h.owed, hmem]
    constructor
    · rintro ⟨⟨m, hm⟩, hji⟩
      exact ⟨m, hji, hm⟩
    · rintro ⟨m, hji, hm⟩
      exact ⟨⟨m, hm⟩, hji⟩

theorem Exact.pass (h : Exact held duty) {k k' : κ} {i : ι} {l : List ι} (hk : duty k = i :: l)
    (hne : k' ≠ k) : Exact held (Function.update (Function.update duty k l) k' (i :: duty k')) := by
  have hi : i ∈ held := (h.owed i).mpr ⟨k, by rw [hk]; exact List.mem_cons_self ..⟩
  have hback := (h.discharge hk).take (i := i) (by simp) k'
  rwa [Set.insert_sdiff_singleton, Set.insert_eq_of_mem hi, Function.update_of_ne hne] at hback

end Exact

end Foundations
