import LinuxDriverFramework.Foundations.SlotDirectory

/-! # Programs that keep a slot directory

Owners with a table of slots each, and items with a record that holds a registered flag, an owner
and an index. A program says where its states keep them and how they are written; from there on all
such programs are alike.

* `SlotProgram`: the tables, the records, and the three writes.
* `store`, `clearSlot`, `openTable`, `closeTable`: what is done to a table, written once.
* `directory_store` .. `takes_closeTable`: the step of the directory that each of them is.
* `store_keeps` .. `closeTable_keeps`: what the writes keep, they keep.
* `promise_iff`: what may be said of a registration that ends with a store. -/

namespace Foundations
set_option autoImplicit false

universe u v w t

/-- `note` records a store, with whether the table is there and the slot below its end. -/
structure SlotProgram (W : Type u) (K : Type v) (D : Type w) (R : Type t) [DecidableEq K]
    [DecidableEq D] where
  table : W → K → Option (ℕ → Option D)
  size : W → K → ℕ
  item : W → D → R
  registered : R → Bool
  owner : R → Option K
  index : R → ℕ
  setTable : W → K → Option (ℕ → Option D) → W
  note : W → K → Bool → Bool → W
  setItem : W → D → (R → R) → W
  table_setTable : ∀ s k t, table (setTable s k t) = Function.update (table s) k t
  size_setTable : ∀ s k t, size (setTable s k t) = size s
  item_setTable : ∀ s k t, item (setTable s k t) = item s
  table_note : ∀ s k there inRange, table (note s k there inRange) = table s
  size_note : ∀ s k there inRange, size (note s k there inRange) = size s
  item_note : ∀ s k there inRange, item (note s k there inRange) = item s
  table_setItem : ∀ s x f, table (setItem s x f) = table s
  size_setItem : ∀ s x f, size (setItem s x f) = size s
  item_setItem : ∀ s x f, item (setItem s x f) = Function.update (item s) x (f (item s x))

namespace SlotProgram

variable {W : Type u} {K : Type v} {D : Type w} {R : Type t} [DecidableEq K] [DecidableEq D]
  (P : SlotProgram W K D R)

def directory (s : W) : Directory K D :=
  .ofFlags (P.table s) (fun x => P.registered (P.item s x)) (fun x => P.owner (P.item s x))
    fun x => P.index (P.item s x)

/-! ## What is done to a table -/

/-- A store through a missing table is noted and lost. -/
def store (s : W) (k : K) (i : ℕ) (v : Option D) : W :=
  let inRange := decide (i < P.size s k)
  match P.table s k with
  | some t => P.setTable (P.note s k true inRange) k (some (Function.update t i v))
  | none => P.note s k false inRange

/-- The slot that `x` names is emptied, if its owner has a table. -/
def clearSlot (s : W) (x : D) : W :=
  match P.owner (P.item s x) with
  | some k => if (P.table s k).isSome then P.store s k (P.index (P.item s x)) none else s
  | none => s

/-- A table of empty slots, if there is memory for one. -/
def openTable (s : W) (k : K) (memory : Bool) : W :=
  if !memory then P.setTable s k none else P.setTable s k (some fun _ => none)

def removeSlot (unregister : W → D → W) (k : K) (s : W) (i : ℕ) : W :=
  match P.table s k with
  | some t =>
    match t i with
    | some x => unregister s x
    | none => s
  | none => s

/-- Whatever stands in a slot is unregistered, then the table goes. -/
def closeTable (unregister : W → D → W) (s : W) (k : K) : W :=
  if (P.table s k).isSome then
    P.setTable ((List.range (P.size s k)).foldl (P.removeSlot unregister k) s) k none
  else s

/-! ## What the directory sees of it -/

/-- From `s` to `s'` the directory takes the step `op`, and no table changes its size. -/
structure Takes (op : Directory.Op K D) (s s' : W) : Prop where
  directory : P.directory s' = op.apply (P.directory s)
  size : P.size s' = P.size s

variable {P}

theorem home_eq_some {s : W} {x : D} {k : K} {i : ℕ} : (P.directory s).home x = some (k, i) ↔
    P.registered (P.item s x) = true ∧ P.owner (P.item s x) = some k ∧
      P.index (P.item s x) = i :=
  Directory.ofFlags_home

theorem home_of_not_registered {s : W} {x : D} (h : P.registered (P.item s x) = false) :
    (P.directory s).home x = none :=
  Directory.ofFlags_home_none h

theorem directory_congr {s s' : W} (ht : P.table s' = P.table s) (hi : P.item s' = P.item s) :
    P.directory s' = P.directory s := by
  simp only [directory, ht, hi]

theorem directory_setTable (s : W) (k : K) (t : Option (ℕ → Option D)) :
    P.directory (P.setTable s k t) = (P.directory s).setTable k t := by
  simp only [directory, P.table_setTable, P.item_setTable]
  rfl

theorem directory_note (s : W) (k : K) (there inRange : Bool) :
    P.directory (P.note s k there inRange) = P.directory s :=
  directory_congr (P.table_note s k there inRange) (P.item_note s k there inRange)

/-- A new record for `x` gives `x` the home that it names. -/
theorem directory_setItem (s : W) (x : D) (f : R → R) :
    P.directory (P.setItem s x f) =
      { P.directory s with
        home := Function.update (P.directory s).home x
          (if P.registered (f (P.item s x)) then
            (P.owner (f (P.item s x))).map fun k => (k, P.index (f (P.item s x))) else none) } := by
  simp only [directory, P.table_setItem, P.item_setItem]
  exact Directory.ofFlags_item P.registered P.owner P.index (P.item s) x (f (P.item s x))

theorem directory_setItem_same {s : W} {x : D} {f : R → R}
    (hf : P.registered (f (P.item s x)) = P.registered (P.item s x))
    (h : P.registered (P.item s x) = true → P.owner (f (P.item s x)) = P.owner (P.item s x) ∧
      P.index (f (P.item s x)) = P.index (P.item s x)) :
    P.directory (P.setItem s x f) = P.directory s := by
  simp only [directory, P.table_setItem, P.item_setItem]
  exact Directory.ofFlags_item_same P.registered P.owner P.index (P.item s) x ⟨hf, h⟩

theorem directory_store (s : W) (k : K) (i : ℕ) (v : Option D) :
    P.directory (P.store s k i v) = (P.directory s).write k i v := by
  unfold store
  cases ht : P.table s k with
  | none =>
    exact (directory_note s k false _).trans
      (Directory.write_of_none (d := P.directory s) ht i v).symm
  | some t =>
    simp only [directory_setTable, directory_note, Directory.write]
    congr 1
    simp [directory, Directory.ofFlags, ht]

theorem item_store (s : W) (k : K) (i : ℕ) (v : Option D) :
    P.item (P.store s k i v) = P.item s := by
  unfold store
  split
  · rw [P.item_setTable, P.item_note]
  · exact P.item_note s k _ _

theorem size_store (s : W) (k : K) (i : ℕ) (v : Option D) :
    P.size (P.store s k i v) = P.size s := by
  unfold store
  split
  · rw [P.size_setTable, P.size_note]
  · exact P.size_note s k _ _

theorem clearSlot_of_none {s : W} {x : D} (h : P.owner (P.item s x) = none) :
    P.clearSlot s x = s := by
  simp only [clearSlot, h]

theorem directory_clearSlot {s : W} {x : D} {k : K} (h : P.owner (P.item s x) = some k) :
    P.directory (P.clearSlot s x) = (P.directory s).write k (P.index (P.item s x)) none := by
  simp only [clearSlot, h]
  split
  · exact directory_store s k _ none
  · rename_i ht
    have hnone : P.table s k = none := by simpa using ht
    exact (Directory.write_of_none (d := P.directory s) hnone _ none).symm

theorem size_clearSlot (s : W) (x : D) : P.size (P.clearSlot s x) = P.size s := by
  unfold clearSlot
  split
  · split
    · exact size_store s _ _ none
    · rfl
  · rfl

/-! ## Steps -/

theorem takes_skip (s : W) : P.Takes .skip s s := ⟨rfl, rfl⟩

/-- What is done first the directory does not see. -/
theorem Takes.after {op : Directory.Op K D} {s s₁ s' : W} (h : P.Takes op s₁ s')
    (hdir : P.directory s₁ = P.directory s) (hsize : P.size s₁ = P.size s) : P.Takes op s s' :=
  ⟨h.directory.trans (congrArg op.apply hdir), h.size.trans hsize⟩

/-- The slot of `x` is cleared, its flag goes last, and what is done in between the directory does
not see. -/
theorem takes_remove {s s₁ : W} {x : D} {f : R → R} (hx : P.registered (P.item s x) = true)
    (h₁ : P.directory s₁ = P.directory (P.clearSlot s x)) (hsize₁ : P.size s₁ = P.size s)
    (hf : P.registered (f (P.item s₁ x)) = false) : P.Takes (.remove x) s (P.setItem s₁ x f) := by
  refine ⟨?_, (P.size_setItem s₁ x f).trans hsize₁⟩
  change _ = (P.directory s).remove x
  rw [directory_setItem, hf, if_neg Bool.false_ne_true, h₁]
  unfold Directory.remove
  cases ho : P.owner (P.item s x) with
  | none =>
    have hhome : (P.directory s).home x = none := by simp [directory, Directory.ofFlags, ho]
    rw [hhome, clearSlot_of_none ho]
    exact Directory.ext rfl (Function.update_eq_self_iff.mpr hhome.symm)
  | some k =>
    rw [home_eq_some.mpr ⟨hx, ho, rfl⟩, directory_clearSlot ho]
    rfl

theorem takes_remove_of_not {s : W} {x : D} (hx : P.registered (P.item s x) = false) :
    P.Takes (.remove x) s s :=
  ⟨(Directory.remove_of_home_none (home_of_not_registered hx)).symm, rfl⟩

/-- `x` names the slot, is stored there, and its flag comes last. -/
theorem takes_put {s m : W} {k : K} {i : ℕ} {x : D} {f : R → R}
    (h₁ : P.directory m = P.directory s) (hsize₁ : P.size m = P.size s)
    (hf : P.registered (f (P.item m x)) = true ∧ P.owner (f (P.item m x)) = some k ∧
      P.index (f (P.item m x)) = i) :
    P.Takes (.put k i x) s (P.setItem (P.store m k i (some x)) x f) := by
  obtain ⟨hr, ho, hi⟩ := hf
  refine ⟨?_, (P.size_setItem _ x f).trans ((size_store m k i (some x)).trans hsize₁)⟩
  rw [directory_setItem, directory_store, item_store, hr, ho, hi, h₁]
  rfl

theorem takes_openTable {s : W} {k : K} (h : P.table s k = none) (memory : Bool) :
    P.Takes (if memory then .openTable k else .skip) s (P.openTable s k memory) := by
  cases memory with
  | false =>
    refine ⟨?_, P.size_setTable s k none⟩
    exact (directory_setTable s k none).trans (Directory.setTable_same (d := P.directory s) h)
  | true => exact ⟨directory_setTable s k _, P.size_setTable s k _⟩

variable {unregister : W → D → W}

theorem takes_removeSlot (hun : ∀ s x, P.Takes (.remove x) s (unregister s x)) (k : K) (s : W)
    (i : ℕ) : P.directory (P.removeSlot unregister k s i) = Directory.removeAt k (P.directory s) i ∧
      P.size (P.removeSlot unregister k s i) = P.size s := by
  have hat : (P.directory s).at_ k i = (P.table s k).bind fun t => t i := rfl
  unfold removeSlot Directory.removeAt
  rw [hat]
  cases P.table s k with
  | none => exact ⟨rfl, rfl⟩
  | some t =>
    simp only [Option.bind_some]
    cases t i with
    | none => exact ⟨rfl, rfl⟩
    | some x => exact ⟨(hun s x).directory, (hun s x).size⟩

theorem takes_closeTable (hun : ∀ s x, P.Takes (.remove x) s (unregister s x)) (s : W) (k : K) :
    P.Takes (.closeTable k (P.size s k)) s (P.closeTable unregister s k) := by
  obtain ⟨hsize, hdir⟩ := Directory.foldl_removes P.directory (P.removeSlot unregister k)
    (I := fun s' => P.size s' = P.size s)
    (fun s' i h => (takes_removeSlot hun k s' i).symm.imp_left fun hs => hs.trans h)
    rfl (P.size s k)
  unfold closeTable
  split
  · refine ⟨?_, (P.size_setTable _ k none).trans hsize⟩
    rw [directory_setTable, hdir]
    rfl
  · rename_i ht
    have hnone : P.table s k = none := by simpa using ht
    exact ⟨(Directory.closeTable_of_none (d := P.directory s) hnone _).symm, rfl⟩

/-! ## What the writes keep -/

section Keeps

variable {I : W → Prop} {s : W}

theorem store_keeps (hset : ∀ s k t, I s → I (P.setTable s k t))
    (hnote : ∀ s k there inRange, I s → I (P.note s k there inRange)) (h : I s) (k : K) (i : ℕ)
    (v : Option D) : I (P.store s k i v) := by
  unfold store
  split
  · exact hset _ k _ (hnote s k _ _ h)
  · exact hnote s k _ _ h

theorem clearSlot_keeps (hset : ∀ s k t, I s → I (P.setTable s k t))
    (hnote : ∀ s k there inRange, I s → I (P.note s k there inRange)) (h : I s) (x : D) :
    I (P.clearSlot s x) := by
  unfold clearSlot
  split
  · split
    · exact store_keeps hset hnote h _ _ none
    · exact h
  · exact h

theorem removeSlots_keep (hun : ∀ s x, I s → I (unregister s x)) (k : K) (slots : List ℕ)
    (h : I s) : I (slots.foldl (P.removeSlot unregister k) s) := by
  induction slots generalizing s with
  | nil => exact h
  | cons i slots ih =>
    refine ih ?_
    unfold removeSlot
    split
    · split
      · exact hun s _ h
      · exact h
    · exact h

theorem closeTable_keeps (hset : ∀ s k t, I s → I (P.setTable s k t))
    (hun : ∀ s x, I s → I (unregister s x)) (h : I s) (k : K) :
    I (P.closeTable unregister s k) := by
  unfold closeTable
  split
  · exact hset _ k none (removeSlots_keep hun k _ h)
  · exact h

end Keeps

end SlotProgram

/-! ## Registrations that end with a store -/

/-- `p` is the owner and the item that a registration is accepted for, `b` whether every step
before its store succeeds, `q` the owner it was asked for. It is promised that its stores are safe
(`S`) and that it fails (`F`) where the owner has no table. If one that goes all the way does not
fail, and its store is safe where there is a table, the promise is kept just when there is one. -/
theorem promise_iff {K : Type u} {D : Type v} {T : Type w} {p : Option (K × D)} {b : Bool}
    {t : K → Option T} {q : Option K} {S F : Prop} (hq : ∀ y, p = some y → q = some y.1)
    (hearly : p = none ∨ b = false → S ∧ F)
    (hlate : ∀ y, p = some y → b = true → ((t y.1).isSome = true → S) ∧ ¬ F) :
    (S ∧ ∀ k, q = some k → t k = none → F) ↔
      ∀ y, p = some y → b = true → (t y.1).isSome = true := by
  constructor
  · rintro ⟨-, hfails⟩ y hp hb
    by_contra hnone
    exact (hlate y hp hb).2 (hfails y.1 (hq y hp) (by simpa using hnone))
  · intro hthere
    cases hb : b with
    | false =>
      obtain ⟨hs, hf⟩ := hearly (.inr hb)
      exact ⟨hs, fun _ _ _ => hf⟩
    | true =>
      cases hp : p with
      | none =>
        obtain ⟨hs, hf⟩ := hearly (.inl hp)
        exact ⟨hs, fun _ _ _ => hf⟩
      | some y =>
        have htable := hthere y hp hb
        refine ⟨(hlate y hp hb).1 htable, fun k hk hnone => ?_⟩
        obtain rfl := Option.some.inj (hk.symm.trans (hq y hp))
        rw [hnone] at htable
        cases htable

end Foundations
