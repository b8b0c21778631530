import LinuxDriverFramework.Foundations.Runs
import Mathlib.Data.Finset.Range
import Mathlib.Logic.Function.Basic

/-! # Owners with slot tables, and items that remember their slot

Each owner may have a table of slots, each slot may hold an item, and each item may name a slot as
its home. The two sides are written by different steps; `Coherent` says that they agree.

* `Directory`: the two sides.
* `put`, `remove`, `setTable`: the steps that write them.
* `removeAt`, `removeBelow`: removing what a slot, or every slot below a bound, holds.
* `coherent_put_iff`: a put keeps the directory coherent exactly when the slot was free.
* `Op`: these steps as data; `Op.sound_apply` is their invariant step, and `put_taken` what a put
  into a taken slot loses.
* `Refines`: a transition system that takes these steps on the directory in its states.
-/

namespace Foundations
set_option autoImplicit false

universe u v
variable {K : Type u} {D : Type v} [DecidableEq K] [DecidableEq D]

structure Directory (K : Type u) (D : Type v) where
  table : K → Option (ℕ → Option D)
  home : D → Option (K × ℕ)

namespace Directory

omit [DecidableEq K] [DecidableEq D] in
@[ext] theorem ext {d d' : Directory K D} (ht : d.table = d'.table) (hh : d.home = d'.home) :
    d = d' := by
  cases d
  cases d'
  cases ht
  cases hh
  rfl

/-- The item in slot `i` of owner `k`. -/
def at_ (d : Directory K D) (k : K) (i : ℕ) : Option D := (d.table k).bind fun t => t i

def Coherent (d : Directory K D) : Prop := ∀ x k i, d.home x = some (k, i) ↔ d.at_ k i = some x

def Vacant (d : Directory K D) (k : K) : Prop := ∀ x i, d.home x ≠ some (k, i)

def setTable (d : Directory K D) (k : K) (t : Option (ℕ → Option D)) : Directory K D :=
  { d with table := Function.update d.table k t }

def write (d : Directory K D) (k : K) (i : ℕ) (v : Option D) : Directory K D :=
  d.setTable k ((d.table k).map fun t => Function.update t i v)

/-- `x` goes into slot `i` of `k` and takes it for its home. -/
def put (d : Directory K D) (k : K) (i : ℕ) (x : D) : Directory K D :=
  { d.write k i (some x) with home := Function.update d.home x (some (k, i)) }

def remove (d : Directory K D) (x : D) : Directory K D :=
  match d.home x with
  | some (k, i) => { d.write k i none with home := Function.update d.home x none }
  | none => d

def removeAt (k : K) (d : Directory K D) (i : ℕ) : Directory K D :=
  match d.at_ k i with
  | some x => d.remove x
  | none => d

/-- Slots `0`, .., `n - 1` of `k`, one after the other. -/
def removeBelow (d : Directory K D) (k : K) (n : ℕ) : Directory K D :=
  (List.range n).foldl (removeAt k) d

/-- The directory of items that carry a registered flag, an owner and an index. -/
def ofFlags (table : K → Option (ℕ → Option D)) (registered : D → Bool) (owner : D → Option K)
    (index : D → ℕ) : Directory K D where
  table := table
  home := fun x => if registered x then (owner x).map fun k => (k, index x) else none

/-! ## Flags -/

section Flags
variable {table table' : K → Option (ℕ → Option D)} {registered registered' : D → Bool}
  {owner owner' : D → Option K} {index index' : D → ℕ}

omit [DecidableEq K] [DecidableEq D] in
theorem ofFlags_home {x : D} {k : K} {i : ℕ} :
    (ofFlags table registered owner index).home x = some (k, i) ↔
      registered x = true ∧ owner x = some k ∧ index x = i := by
  cases hr : registered x <;> cases hd : owner x <;> simp [ofFlags, hr, hd]

omit [DecidableEq K] [DecidableEq D] in
theorem ofFlags_home_none {x : D} (h : registered x = false) :
    (ofFlags table registered owner index).home x = none := by
  simp [ofFlags, h]

omit [DecidableEq K] [DecidableEq D] in
/-- Owner and index matter on registered items only. -/
theorem ofFlags_congr (ht : table' = table) (hr : ∀ x, registered' x = registered x)
    (h : ∀ x, registered x = true → owner' x = owner x ∧ index' x = index x) :
    ofFlags table' registered' owner' index' = ofFlags table registered owner index := by
  refine Directory.ext ht (funext fun x => ?_)
  cases hx : registered x with
  | false => simp [ofFlags, hr x, hx]
  | true =>
    obtain ⟨ho, hi⟩ := h x hx
    simp [ofFlags, hr x, hx, ho, hi]

end Flags

/-! ## Records

Flag, owner and index may be fields of one record an item, and the table of one record an owner. -/

section Records
variable {R : Type*} (registered : R → Bool) (owner : R → Option K) (index : R → ℕ)
  {table : K → Option (ℕ → Option D)} (items : D → R) (x : D) {r : R}

omit [DecidableEq K] in
/-- A new record for `x` gives `x` the home that it names. -/
theorem ofFlags_item (r : R) :
    ofFlags table (fun y => registered (Function.update items x r y))
        (fun y => owner (Function.update items x r y))
        (fun y => index (Function.update items x r y)) =
      { ofFlags table (fun y => registered (items y)) (fun y => owner (items y))
          (fun y => index (items y)) with
        home := Function.update (ofFlags table (fun y => registered (items y))
          (fun y => owner (items y)) fun y => index (items y)).home x
            (if registered r then (owner r).map fun k => (k, index r) else none) } :=
  Directory.ext rfl <| funext <| Function.apply_update
    (fun _ r => if registered r then (owner r).map fun k => (k, index r) else none) items x r

omit [DecidableEq K] in
theorem ofFlags_item_same (h : registered r = registered (items x) ∧
      (registered (items x) = true → owner r = owner (items x) ∧ index r = index (items x))) :
    ofFlags table (fun y => registered (Function.update items x r y))
        (fun y => owner (Function.update items x r y))
        (fun y => index (Function.update items x r y)) =
      ofFlags table (fun y => registered (items y)) (fun y => owner (items y))
        fun y => index (items y) := by
  refine (ofFlags_item registered owner index items x r).trans (Directory.ext rfl ?_)
  refine Function.update_eq_self_iff.mpr ?_
  show _ = if registered (items x) then (owner (items x)).map fun k => (k, index (items x)) else none
  rw [h.1]
  split
  · rename_i hr
    rw [(h.2 hr).1, (h.2 hr).2]
  · rfl

omit [DecidableEq D] in
/-- A new record for an owner replaces its table. -/
theorem ofFlags_owner {O : Type*} (table : O → Option (ℕ → Option D)) (owners : K → O) (k : K)
    (o : O) {registered : D → Bool} {owner : D → Option K} {index : D → ℕ} :
    ofFlags (fun k' => table (Function.update owners k o k')) registered owner index =
      (ofFlags (fun k' => table (owners k')) registered owner index).setTable k (table o) :=
  Directory.ext (funext <| Function.apply_update (fun _ o => table o) owners k o) rfl

end Records

/-! ## Reading slots back -/

omit [DecidableEq D] in
theorem at_setTable_self (d : Directory K D) (k : K) (t : Option (ℕ → Option D)) (i : ℕ) :
    (d.setTable k t).at_ k i = t.bind fun t => t i := by
  simp [at_, setTable]

omit [DecidableEq D] in
theorem at_setTable_of_ne {k k' : K} (d : Directory K D) (t : Option (ℕ → Option D)) (i : ℕ)
    (h : k' ≠ k) : (d.setTable k t).at_ k' i = d.at_ k' i := by
  simp [at_, setTable, Function.update_of_ne h]

omit [DecidableEq D] in
/-- A write through a missing table is lost; else it changes one slot. -/
theorem at_write (d : Directory K D) (k k' : K) (i i' : ℕ) (v : Option D) :
    (d.write k i v).at_ k' i' =
      if k' = k ∧ i' = i ∧ (d.table k).isSome then v else d.at_ k' i' := by
  by_cases hk : k' = k
  · subst hk
    rw [write, at_setTable_self]
    cases ht : d.table k' with
    | none => simp [at_, ht]
    | some t =>
      by_cases hi : i' = i
      · subst hi; simp
      · simp [at_, ht, hi]
  · rw [write, at_setTable_of_ne _ _ _ hk]
    simp [hk]

theorem at_put (d : Directory K D) (k k' : K) (i i' : ℕ) (x : D) :
    (d.put k i x).at_ k' i' =
      if k' = k ∧ i' = i ∧ (d.table k).isSome then some x else d.at_ k' i' :=
  at_write d k k' i i' (some x)

omit [DecidableEq K] [DecidableEq D] in
theorem isSome_of_at {d : Directory K D} {k : K} {i : ℕ} {x : D} (h : d.at_ k i = some x) :
    (d.table k).isSome := by
  obtain ⟨t, ht, -⟩ := Option.bind_eq_some_iff.mp h
  rw [ht]
  rfl

omit [DecidableEq D] in
theorem setTable_same {d : Directory K D} {k : K} {t : Option (ℕ → Option D)} (h : d.table k = t) :
    d.setTable k t = d :=
  Directory.ext (Function.update_eq_self_iff.mpr h.symm) rfl

omit [DecidableEq D] in
theorem write_of_none {d : Directory K D} {k : K} (h : d.table k = none) (i : ℕ) (v : Option D) :
    d.write k i v = d := by
  rw [write, h]
  exact setTable_same h

/-! ## Coherence, step by step -/

omit [DecidableEq D] in
/-- A table may come, go or be zeroed while nothing has its home there. -/
theorem Coherent.setTable {d : Directory K D} (h : d.Coherent) {k : K} (hk : d.Vacant k)
    {t : Option (ℕ → Option D)} (ht : ∀ i, (t.bind fun t => t i) = none) :
    (d.setTable k t).Coherent := by
  intro x k' i
  by_cases hk' : k' = k
  · subst hk'
    rw [at_setTable_self, ht i]
    exact ⟨fun hx => absurd hx (hk x i), fun hx => by cases hx⟩
  · rw [at_setTable_of_ne _ _ _ hk']
    exact h x k' i

/-- A put into a taken slot leaves the former occupant with a home that holds another item. -/
theorem put_taken {d : Directory K D} (h : d.Coherent) {k : K} {i : ℕ} {x : D}
    (hx : d.home x = none) (hk : (d.table k).isSome) (ht : d.at_ k i ≠ none) :
    ∃ y, (d.put k i x).home y = some (k, i) ∧ (d.put k i x).at_ k i ≠ some y := by
  obtain ⟨y, hy⟩ := Option.ne_none_iff_exists'.mp ht
  have hhome : d.home y = some (k, i) := (h y k i).mpr hy
  have hyx : y ≠ x := by
    rintro rfl
    rw [hx] at hhome
    cases hhome
  refine ⟨y, by simpa [put, Function.update_of_ne hyx] using hhome, ?_⟩
  rw [at_put, if_pos ⟨rfl, rfl, hk⟩]
  intro heq
  exact hyx (Option.some.inj heq).symm

/-- Putting an item that has no home keeps a directory coherent exactly when the slot is free. -/
theorem coherent_put_iff {d : Directory K D} (h : d.Coherent) {k : K} {i : ℕ} {x : D}
    (hx : d.home x = none) (hk : (d.table k).isSome) :
    (d.put k i x).Coherent ↔ d.at_ k i = none := by
  constructor
  · intro hput
    by_contra hne
    obtain ⟨y, hhome, hat⟩ := put_taken h hx hk hne
    exact hat ((hput y k i).mp hhome)
  · intro hfree y k' i'
    rw [at_put]
    by_cases hyx : y = x
    · subst hyx
      have hnot : d.at_ k' i' ≠ some y := by
        intro heq
        rw [← h y k' i', hx] at heq
        cases heq
      by_cases hslot : k' = k ∧ i' = i
      · obtain ⟨rfl, rfl⟩ := hslot
        simp [put, hk]
      · rw [if_neg fun hc => hslot ⟨hc.1, hc.2.1⟩]
        constructor
        · intro heq
          simp only [put, Function.update_self, Option.some.injEq, Prod.mk.injEq] at heq
          exact absurd ⟨heq.1.symm, heq.2.symm⟩ hslot
        · intro heq
          exact absurd heq hnot
    · have hhome : (d.put k i x).home y = d.home y := by simp [put, Function.update_of_ne hyx]
      rw [hhome, h y k' i']
      by_cases hslot : k' = k ∧ i' = i
      · obtain ⟨rfl, rfl⟩ := hslot
        rw [hfree, if_pos ⟨rfl, rfl, hk⟩]
        constructor
        · intro heq; cases heq
        · intro heq; exact absurd (Option.some.inj heq).symm hyx
      · rw [if_neg fun hc => hslot ⟨hc.1, hc.2.1⟩]

/-! ## Removing -/

theorem remove_of_home_none {d : Directory K D} {x : D} (h : d.home x = none) : d.remove x = d := by
  simp [remove, h]

theorem remove_home_self (d : Directory K D) (x : D) : (d.remove x).home x = none := by
  unfold remove
  split
  · simp
  · assumption

theorem remove_home_of_ne {x y : D} (d : Directory K D) (h : y ≠ x) :
    (d.remove x).home y = d.home y := by
  unfold remove
  split
  · simp [Function.update_of_ne h]
  · rfl

theorem Coherent.remove {d : Directory K D} (h : d.Coherent) (x : D) : (d.remove x).Coherent := by
  cases hx : d.home x with
  | none =>
    rw [remove_of_home_none hx]
    exact h
  | some p =>
    obtain ⟨k, i⟩ := p
    have hat : d.at_ k i = some x := (h x k i).mp hx
    have hk := isSome_of_at hat
    have hslots : ∀ k' i', (d.remove x).at_ k' i' =
        if k' = k ∧ i' = i then none else d.at_ k' i' := by
      intro k' i'
      simp only [Directory.remove, hx]
      refine (at_write d k k' i i' none).trans ?_
      simp [hk]
    intro y k' i'
    rw [hslots]
    by_cases hyx : y = x
    · subst hyx
      rw [remove_home_self]
      split
      · simp
      · rename_i hslot
        rw [← h y k' i', hx]
        constructor
        · intro heq; cases heq
        · intro heq
          simp only [Option.some.injEq, Prod.mk.injEq] at heq
          exact absurd ⟨heq.1.symm, heq.2.symm⟩ hslot
    · rw [remove_home_of_ne d hyx, h y k' i']
      split
      · rename_i hslot
        obtain ⟨rfl, rfl⟩ := hslot
        rw [hat]
        constructor
        · intro heq; exact absurd (Option.some.inj heq).symm hyx
        · intro heq; cases heq
      · rfl

/-! ## Slots that say where they are

Whatever is overwritten or lost, what stands in a slot has its home there. -/

def Filed (d : Directory K D) : Prop := ∀ k i x, d.at_ k i = some x → d.home x = some (k, i)

omit [DecidableEq K] [DecidableEq D] in
/-- Tables may be emptied, and homes added. -/
theorem Filed.of_tables {d d' : Directory K D} (h : d.Filed)
    (ht : ∀ k, d'.table k = d.table k ∨ ∀ i, d'.at_ k i = none)
    (hh : ∀ x p, d.home x = some p → d'.home x = some p) : d'.Filed := by
  intro k i x hx
  rcases ht k with hsame | hempty
  · refine hh x (k, i) (h k i x ?_)
    rwa [at_, hsame] at hx
  · rw [hempty i] at hx
    cases hx

theorem Filed.put {d : Directory K D} (h : d.Filed) {k : K} {i : ℕ} {x : D}
    (hx : d.home x = none) : (d.put k i x).Filed := by
  intro k' i' y hy
  rw [at_put] at hy
  split at hy
  · rename_i hslot
    obtain ⟨rfl, rfl, -⟩ := hslot
    obtain rfl := Option.some.inj hy
    exact Function.update_self x _ d.home
  · have hhome := h k' i' y hy
    have hyx : y ≠ x := by
      rintro rfl
      rw [hx] at hhome
      cases hhome
    exact (Function.update_of_ne hyx _ d.home).trans hhome

/-- The slots and homes after a removal: only the slot of the item itself is cleared. -/
theorem Filed.at_remove {d : Directory K D} (h : d.Filed) {x y : D} {k : K} {i : ℕ}
    (hy : (d.remove x).at_ k i = some y) : y ≠ x ∧ d.at_ k i = some y := by
  cases hx : d.home x with
  | none =>
    rw [remove_of_home_none hx] at hy
    refine ⟨?_, hy⟩
    rintro rfl
    rw [h k i y hy] at hx
    cases hx
  | some p =>
    obtain ⟨k', i'⟩ := p
    simp only [Directory.remove, hx] at hy
    have hold : (if k = k' ∧ i = i' ∧ (d.table k').isSome then none else d.at_ k i) = some y :=
      (at_write d k' k i' i none).symm.trans hy
    split at hold
    · cases hold
    · rename_i hslot
      refine ⟨?_, hold⟩
      rintro rfl
      obtain ⟨rfl, rfl⟩ := Prod.mk.inj (Option.some.inj (hx.symm.trans (h k i y hold)))
      exact hslot ⟨rfl, rfl, isSome_of_at hold⟩

theorem Filed.remove {d : Directory K D} (h : d.Filed) (x : D) : (d.remove x).Filed := by
  intro k i y hy
  obtain ⟨hne, hold⟩ := h.at_remove hy
  rw [remove_home_of_ne d hne]
  exact h k i y hold

/-- An item is removed from the table of its home and no other. -/
theorem remove_table_of_ne {d : Directory K D} {x : D} {k k' : K} {i : ℕ}
    (hx : d.home x = some (k, i)) (hk : k' ≠ k) : (d.remove x).table k' = d.table k' := by
  simp only [remove, hx]
  exact Function.update_of_ne hk _ d.table

theorem remove_home_eq_some {d : Directory K D} {x y : D} {p : K × ℕ}
    (h : (d.remove x).home y = some p) : d.home y = some p := by
  by_cases hyx : y = x
  · subst hyx
    rw [remove_home_self] at h
    cases h
  · rwa [remove_home_of_ne d hyx] at h

theorem removeBelow_spec {d : Directory K D} (h : d.Coherent) (k : K) (n : ℕ) :
    (d.removeBelow k n).Coherent ∧
    (∀ x p, (d.removeBelow k n).home x = some p → d.home x = some p) ∧
    ∀ x i, (d.removeBelow k n).home x = some (k, i) → n ≤ i := by
  induction n with
  | zero => exact ⟨h, fun _ _ hx => hx, fun _ i _ => Nat.zero_le i⟩
  | succ n ih =>
    obtain ⟨hc, hsub, hge⟩ := ih
    have hlast : d.removeBelow k (n + 1) = removeAt k (d.removeBelow k n) n := by
      simp [removeBelow, List.range_succ]
    rw [hlast]
    unfold removeAt
    cases hat : (d.removeBelow k n).at_ k n with
    | none =>
      refine ⟨hc, hsub, fun x i hx => ?_⟩
      have hle := hge x i hx
      rcases Nat.lt_or_ge n i with hlt | hgt
      · exact hlt
      · obtain rfl : i = n := Nat.le_antisymm hgt hle
        rw [hc x k i, hat] at hx
        cases hx
    | some y =>
      refine ⟨hc.remove y, fun x p hx => hsub x p (remove_home_eq_some hx), fun x i hx => ?_⟩
      have hle := hge x i (remove_home_eq_some hx)
      rcases Nat.lt_or_ge n i with hlt | hgt
      · exact hlt
      · obtain rfl : i = n := Nat.le_antisymm hgt hle
        have hxy : x = y := by
          have hx' := (hc x k i).mp (remove_home_eq_some hx)
          rw [hat] at hx'
          exact (Option.some.inj hx').symm
        subst hxy
        rw [remove_home_self] at hx
        cases hx

/-- A loop whose rounds each remove what one slot holds. -/
theorem foldl_removes {S : Type*} (view : S → Directory K D) (round : S → ℕ → S) {I : S → Prop}
    {k : K} (h : ∀ s i, I s → I (round s i) ∧ view (round s i) = removeAt k (view s) i) {s : S}
    (hs : I s) (n : ℕ) :
    I ((List.range n).foldl round s) ∧
      view ((List.range n).foldl round s) = (view s).removeBelow k n := by
  unfold removeBelow
  generalize List.range n = l
  induction l generalizing s with
  | nil => exact ⟨hs, rfl⟩
  | cons i l ih =>
    obtain ⟨hi, hview⟩ := h s i hs
    rw [List.foldl_cons, List.foldl_cons, ← hview]
    exact ih hi

/-- Removing every slot of a table of `n` slots leaves no item with a home there. -/
theorem removeBelow_vacant {d : Directory K D} (h : d.Coherent) {k : K} {n : ℕ}
    (hn : ∀ x i, d.home x = some (k, i) → i < n) : (d.removeBelow k n).Vacant k := by
  obtain ⟨-, hsub, hge⟩ := removeBelow_spec h k n
  intro x i hx
  have hlt := hn x i (hsub x _ hx)
  have hle := hge x i hx
  omega

theorem closeTable_of_none {d : Directory K D} {k : K} (h : d.table k = none) (n : ℕ) :
    (d.removeBelow k n).setTable k none = d := by
  have hnone : ∀ l : List ℕ, l.foldl (removeAt k) d = d := by
    intro l
    induction l with
    | nil => rfl
    | cons i l ih =>
      have hi : removeAt k d i = d := by simp [removeAt, at_, h]
      rw [List.foldl_cons, hi, ih]
  rw [removeBelow, hnone]
  exact setTable_same h

/-! ## Steps as data -/

inductive Op (K : Type u) (D : Type v)
  | skip
  | put (k : K) (i : ℕ) (x : D)
  | remove (x : D)
  | openTable (k : K)
  | closeTable (k : K) (n : ℕ)

def Op.apply (d : Directory K D) : Op K D → Directory K D
  | .skip => d
  | .put k i x => d.put k i x
  | .remove x => d.remove x
  | .openTable k => d.setTable k (some fun _ => none)
  | .closeTable k n => (d.removeBelow k n).setTable k none

/-- The tables have `size k` slots, and every home is one of them. -/
structure Sound (size : K → ℕ) (d : Directory K D) : Prop where
  coherent : d.Coherent
  bounded : ∀ x k i, d.home x = some (k, i) → i < size k

/-- A put is made for an item without a home, into a slot of a table that is there; a table is
opened where there is none, and closed over all its slots. -/
def Op.Enabled (size : K → ℕ) (d : Directory K D) : Op K D → Prop
  | .put k i x => d.home x = none ∧ (d.table k).isSome ∧ i < size k
  | .openTable k => d.table k = none
  | .closeTable k n => n = size k
  | _ => True

/-- The slot a step fills is free. -/
def Op.SlotFree (d : Directory K D) : Op K D → Prop
  | .put k i _ => d.at_ k i = none
  | _ => True

instance (d : Directory K D) (op : Op K D) : Decidable (op.SlotFree d) :=
  match op with
  | .put k i _ => inferInstanceAs (Decidable (d.at_ k i = none))
  | .skip | .remove _ | .openTable _ | .closeTable _ _ => isTrue trivial

omit [DecidableEq K] [DecidableEq D] in
theorem Coherent.vacant_of_none {d : Directory K D} (h : d.Coherent) {k : K}
    (hk : d.table k = none) : d.Vacant k := by
  intro x i hx
  have hat := (h x k i).mp hx
  simp [at_, hk] at hat

theorem put_home {d : Directory K D} {k : K} {i : ℕ} {x y : D} {p : K × ℕ}
    (h : (d.put k i x).home y = some p) : (y = x ∧ p = (k, i)) ∨ d.home y = some p := by
  by_cases hyx : y = x
  · subst hyx
    exact .inl ⟨rfl, by simpa [put] using h.symm⟩
  · exact .inr (by simpa [put, Function.update_of_ne hyx] using h)

theorem Op.sound_apply {size : K → ℕ} {d : Directory K D} (h : d.Sound size) {op : Op K D}
    (he : op.Enabled size d) (hf : op.SlotFree d) : (op.apply d).Sound size := by
  cases op with
  | skip => exact h
  | put k i x =>
    obtain ⟨hx, hk, hi⟩ := he
    refine ⟨(coherent_put_iff h.coherent hx hk).mpr hf, fun y k' i' hy => ?_⟩
    rcases put_home hy with ⟨-, hp⟩ | hy
    · obtain ⟨rfl, rfl⟩ := Prod.mk.inj hp
      exact hi
    · exact h.bounded y k' i' hy
  | remove x =>
    exact ⟨h.coherent.remove x, fun y k i hy => h.bounded y k i (remove_home_eq_some hy)⟩
  | openTable k =>
    exact ⟨h.coherent.setTable (h.coherent.vacant_of_none he) fun _ => rfl, h.bounded⟩
  | closeTable k n =>
    obtain rfl : n = size k := he
    obtain ⟨hc, hsub, -⟩ := removeBelow_spec h.coherent k (size k)
    have hv := removeBelow_vacant h.coherent fun x i hx => h.bounded x k i hx
    exact ⟨hc.setTable hv fun _ => rfl, fun x k' i hx => h.bounded x k' i (hsub x _ hx)⟩

theorem Coherent.at_remove_of_ne {d : Directory K D} (h : d.Coherent) {x y : D} {k : K} {i : ℕ}
    (hy : d.at_ k i = some y) (hyx : y ≠ x) : (d.remove x).at_ k i = some y := by
  have hhome : (d.remove x).home y = some (k, i) := by
    rw [remove_home_of_ne d hyx]
    exact (h y k i).mpr hy
  exact (h.remove x y k i).mp hhome

/-! ## Systems that refine a directory -/

/-- In its domain, the system takes the steps `op` on the directory it holds. -/
structure Refines {σ α : Type*} (step : σ → α → Option σ) (dir : σ → Directory K D)
    (size : σ → K → ℕ) (op : σ → α → Op K D) (dom : σ → α → Prop) : Prop where
  total : ∀ s a, dom s a → ∃ s', step s a = some s'
  step : ∀ s a s', dom s a → step s a = some s' →
    dir s' = (op s a).apply (dir s) ∧ size s' = size s
  enabled : ∀ s a, dom s a → (op s a).Enabled (size s) (dir s)

/-- A property that a sound directory gives, and that makes every item sit in its home, holds
throughout a run exactly when no step fills a taken slot. -/
theorem Refines.throughout_iff {σ α : Type*} {step : σ → α → Option σ} {dir : σ → Directory K D}
    {size : σ → K → ℕ} {op : σ → α → Op K D} {dom : σ → α → Prop} {P : σ → Prop}
    (h : Refines step dir size op dom) (hP : ∀ s, (dir s).Sound (size s) → P s)
    (hlost : ∀ s, P s → ∀ y k i, (dir s).home y = some (k, i) → (dir s).at_ k i = some y)
    (as : List α) (s : σ) (hs : (dir s).Sound (size s)) (hd : Along step dom s as) :
    Throughout step P s as ↔ Along step (fun s a => (op s a).SlotFree (dir s)) s as := by
  refine throughout_iff_along (I := fun s => (dir s).Sound (size s)) hP ?_ ?_ as s hs hd
  · intro s a s' hs hd hf hstep
    obtain ⟨hdir, hsize⟩ := h.step s a s' hd hstep
    rw [hdir, hsize]
    exact Op.sound_apply hs (h.enabled s a hd) hf
  · intro s a hs hd hf
    obtain ⟨s', hstep⟩ := h.total s a hd
    refine ⟨s', hstep, fun hp => ?_⟩
    have hdir := (h.step s a s' hd hstep).1
    have he := h.enabled s a hd
    cases hop : op s a with
    | put k i x =>
      rw [hop] at hdir he hf
      obtain ⟨hx, hk, -⟩ := he
      obtain ⟨y, hhome, hat⟩ := put_taken hs.coherent hx hk hf
      have hdir' : dir s' = (dir s).put k i x := hdir
      rw [← hdir'] at hhome hat
      exact hat (hlost s' hp y k i hhome)
    | _ =>
      rw [hop] at hf
      exact hf trivial

end Directory

end Foundations
