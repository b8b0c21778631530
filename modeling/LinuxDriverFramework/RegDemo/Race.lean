import LinuxDriverFramework.Foundations.Pools
import LinuxDriverFramework.RegDemo.Cache

/-! # Stores at the same time

Nothing orders the three steps of `reg_store` among several callers. With a bus that always
succeeds, the register and the chip can still part: the chip gets what the last writer read back,
and the register may have been set since.

* `Log`: the calls of all the stores, newest first.
* `undisturbed`: what the log says of the store whose message is the last. -/

namespace LinuxDriverFramework.RegDemo
open Foundations
set_option autoImplicit false

abbrev Log := List (ℕ × Call)

def setBy : ℕ × Call → Option UInt8
  | (_, .setReg v) => some v
  | _ => none

def sentBy : ℕ × Call → Option (ℕ × BusOp)
  | (i, .bus op) => some (i, op)
  | _ => none

/-- The register after these calls. -/
def lastSet (before : UInt8) (l : Log) : UInt8 := (l.findSome? setBy).getD before

/-- The calls that are newer than the read-back of store `i`, and those from there on. -/
def sinceRead (i : ℕ) (l : Log) : Log := l.takeWhile fun e => e ≠ (i, .readReg)
def upToRead (i : ℕ) (l : Log) : Log := l.dropWhile fun e => e ≠ (i, .readReg)

/-- Since the last writer's read-back no store has set the register, or the last that did has set
the value that was sent. -/
def undisturbed (l : Log) : Bool :=
  match l.findSome? sentBy with
  | none => true
  | some (i, op) => ((sinceRead i l).findSome? setBy).all fun v => op.value == some v

/-- Concurrent calls of `reg_store`, each with its text and its count. -/
def stores (demo : Demo) (calls : List (List UInt8 × ℕ)) (i : ℕ) : Code (Except Errno ℕ) :=
  match calls[i]? with
  | some (buf, count) => demo.regStore (some bound) buf count
  | none => .done (.ok 0)

/-! ## The stages of a store -/

/-- Where store `i` may stand after the calls in `l`. -/
inductive Stage (demo : Demo) (before : UInt8) (l : Log) (i : ℕ) : Code (Except Errno ℕ) → Prop
  | fresh (v : UInt8) (count : ℕ) (h : ∀ c, (i, c) ∉ l) :
    Stage demo before l i (.call (.setReg v) fun _ => .call .readReg fun reg =>
      .call (.bus (demo.message reg)) (storeResult count))
  | stored (count : ℕ) (h : ∀ op, (i, .bus op) ∉ l) :
    Stage demo before l i (.call .readReg fun reg =>
      .call (.bus (demo.message reg)) (storeResult count))
  | readBack (reg : UInt8) (count : ℕ) (h : reg = lastSet before (upToRead i l)) :
    Stage demo before l i (.call (.bus (demo.message reg)) (storeResult count))
  | returned (r : Except Errno ℕ) (h : ∀ v, (i, .setReg v) ∈ l → ∃ op, (i, .bus op) ∈ l) :
    Stage demo before l i (.done r)

/-- The register is what was set last, and the chip has what its last writer had read back. -/
structure Followed (before : UInt8) (d : Data) (l : Log) : Prop where
  reg : d.reg = lastSet before l
  unsent : l.findSome? sentBy = none → d.chip = before
  sent : ∀ i op, l.findSome? sentBy = some (i, op) →
    op.value = some d.chip ∧ d.chip = lastSet before (upToRead i l)

theorem stores_stage (demo : Demo) (before : UInt8) (calls : List (List UInt8 × ℕ)) (i : ℕ) :
    Stage demo before [] i (stores demo calls i) := by
  unfold stores
  split
  · rename_i buf count _
    cases h : textValue buf with
    | none =>
      obtain ⟨e, he⟩ := regStore_of_none demo h count
      rw [he]
      exact .returned _ fun v hv => by cases hv
    | some v =>
      rw [regStore_of_some demo h]
      exact .fresh v count fun c hc => by cases hc
  · exact .returned _ fun v hv => by cases hv

theorem upToRead_cons {i : ℕ} {e : ℕ × Call} (l : Log) (h : e ≠ (i, .readReg)) :
    upToRead i (e :: l) = upToRead i l := by
  simp [upToRead, h]

theorem mem_of_sentBy {l : Log} {i : ℕ} {op : BusOp} (h : l.findSome? sentBy = some (i, op)) :
    (i, .bus op) ∈ l := by
  obtain ⟨⟨j, c⟩, hmem, hc⟩ := List.exists_of_findSome?_eq_some h
  cases c with
  | bus op' =>
    obtain ⟨rfl, rfl⟩ := Prod.mk.inj (Option.some.inj hc)
    exact hmem
  | _ => cases hc

theorem Stage.other {demo : Demo} {before : UInt8} {l : Log} {i j : ℕ} {c : Call}
    {q : Code (Except Errno ℕ)} (hj : j ≠ i) (h : Stage demo before l j q) :
    Stage demo before ((i, c) :: l) j q := by
  have hne : ∀ c', (j, c') ≠ (i, c) := fun c' he => hj (Prod.mk.inj he).1
  have hmem : ∀ c', (j, c') ∈ (i, c) :: l → (j, c') ∈ l := fun c' hc' =>
    (List.mem_cons.mp hc').resolve_left (hne c')
  cases h with
  | fresh v count h => exact .fresh v count fun c' hc' => h c' (hmem c' hc')
  | stored count h => exact .stored count fun op hop => h op (hmem _ hop)
  | readBack reg count h =>
    refine .readBack reg count ?_
    rw [upToRead_cons l fun he => hne _ he.symm]
    exact h
  | returned r h =>
    refine .returned r fun v hv => ?_
    obtain ⟨op, hop⟩ := h v (hmem _ hv)
    exact ⟨op, List.mem_cons_of_mem _ hop⟩

theorem Stage.own {demo : Demo} {before : UInt8} {d : Data} {l : Log} {i : ℕ} {c : Call}
    {next : c.Answer → Code (Except Errno ℕ)} (hf : Followed before d l)
    (h : Stage demo before l i (.call c next)) :
    Followed before (perform none d c).1 ((i, c) :: l) ∧
      Stage demo before ((i, c) :: l) i (next (perform none d c).2) := by
  cases h with
  | fresh v count h =>
    refine ⟨⟨rfl, hf.unsent, fun j op hop => ?_⟩, .stored count fun op hop => ?_⟩
    · rw [upToRead_cons l (by simp)]
      exact hf.sent j op hop
    · exact h _ ((List.mem_cons.mp hop).resolve_left (by simp))
  | stored count h =>
    refine ⟨⟨hf.reg, hf.unsent, fun j op hop => ?_⟩, .readBack d.reg count ?_⟩
    · have hji : j ≠ i := by
        rintro rfl
        exact h op (mem_of_sentBy hop)
      rw [upToRead_cons l (by simpa using fun he : i = j => hji he.symm)]
      exact hf.sent j op hop
    · have hcut : upToRead i ((i, .readReg) :: l) = (i, .readReg) :: l := by simp [upToRead]
      rw [hcut]
      exact hf.reg
  | readBack reg count h =>
    refine ⟨⟨hf.reg, fun hnone => ?_, fun j op hop => ?_⟩, ?_⟩
    · cases hnone
    · obtain ⟨rfl, rfl⟩ := Prod.mk.inj (Option.some.inj hop)
      rw [upToRead_cons l (by simp)]
      simp [perform, demo.message_value, h]
    · exact .returned _ fun v _ => ⟨_, List.mem_cons_self⟩

/-! ## When all stores have returned -/

/-- Every store that has set the register has also written to the bus. -/
theorem no_set_of_no_sent {demo : Demo} {before : UInt8} {l : Log}
    {thread : ℕ → Code (Except Errno ℕ)} (hstage : ∀ i, Stage demo before l i (thread i))
    (hdone : ∀ i, ∃ r, thread i = .done r) (h : l.findSome? sentBy = none) :
    l.findSome? setBy = none := by
  rw [List.findSome?_eq_none_iff] at h ⊢
  rintro ⟨i, c⟩ hmem
  cases c with
  | setReg v =>
    obtain ⟨r, hr⟩ := hdone i
    have hi := hstage i
    rw [hr] at hi
    cases hi with
    | returned r h' =>
      obtain ⟨op, hop⟩ := h' v hmem
      have hsent := h _ hop
      cases hsent
  | _ => rfl

theorem lastSet_split (before : UInt8) (i : ℕ) (l : Log) :
    lastSet before l = ((sinceRead i l).findSome? setBy).getD (lastSet before (upToRead i l)) := by
  have hsplit : l = sinceRead i l ++ upToRead i l := List.takeWhile_append_dropWhile.symm
  conv_lhs => rw [hsplit]
  rw [lastSet, List.findSome?_append]
  cases (sinceRead i l).findSome? setBy <;> rfl

theorem Followed.agree_iff {before : UInt8} {d : Data} {l : Log} (hf : Followed before d l)
    (hset : l.findSome? sentBy = none → l.findSome? setBy = none) :
    d.reg = d.chip ↔ undisturbed l = true := by
  unfold undisturbed
  cases hs : l.findSome? sentBy with
  | none => simp [hf.reg, hf.unsent hs, lastSet, hset hs]
  | some e =>
    obtain ⟨i, op⟩ := e
    obtain ⟨hop, hchip⟩ := hf.sent i op hs
    simp only
    rw [hf.reg, lastSet_split before i l, ← hchip, hop]
    cases (sinceRead i l).findSome? setBy with
    | none => simp
    | some v => simpa using eq_comm

/-- After any interleaving of any number of stores on a bus that works, `reg_show` reports what the
chip has exactly if the last writer was not disturbed between its read-back and its write. -/
theorem shown_after_race_iff (demo : Demo) (before : UInt8) (calls : List (List UInt8 × ℕ))
    (schedule : List ℕ) (p : Pool Data ℕ Call Call.Answer (Except Errno ℕ))
    (h : run (Pool.step (perform none)) (Pool.init ⟨before, before⟩ (stores demo calls)) schedule =
      some p) (hdone : p.Finished) :
    ((demo.regShow (some bound)).exec (perform none) p.shared).2 = .ok (formatReg p.shared.chip) ↔
      undisturbed p.log = true := by
  have hk : p.Kept (Followed before) (Stage demo before) :=
    Pool.kept_of_run (fun _ _ _ _ _ hf hs => hs.own hf) (fun _ _ _ _ _ hj hs => hs.other hj)
      ⟨rfl, fun _ => rfl, fun _ _ hop => by cases hop⟩ (stores_stage demo before calls) h
  rw [← hk.global.agree_iff (no_set_of_no_sent hk.stage hdone), demo.regShow_eq]
  constructor
  · exact fun hshown => formatReg_injective (Except.ok.inj hshown)
  · intro heq
    exact congrArg (fun v => Except.ok (formatReg v)) heq

/-! ## Two stores -/

/-- `"1"` and `"2"`. -/
def oneAndTwo : List (List UInt8 × ℕ) := [([49], 1), ([50], 1)]

theorem finished_of_two {p : Pool Data ℕ Call Call.Answer (Except Errno ℕ)}
    (h₀ : ∃ r, p.thread 0 = .done r) (h₁ : ∃ r, p.thread 1 = .done r)
    (h : ∀ i, p.thread (i + 2) = .done (.ok 0)) : p.Finished := by
  intro i
  rcases i with _ | _ | i
  · exact h₀
  · exact h₁
  · exact ⟨_, h i⟩

/-- Both stores set the register before the first of them reads it back: both send 2. -/
theorem shown_after_overlapping_stores :
    ∃ p, run (Pool.step (perform none)) (Pool.init ⟨0, 0⟩ (stores .i2c oneAndTwo))
        [0, 1, 0, 1, 0, 1] = some p ∧
      ((Demo.i2c.regShow (some bound)).exec (perform none) p.shared).2 =
        .ok (formatReg p.shared.chip) :=
  ⟨_, rfl, (shown_after_race_iff .i2c 0 oneAndTwo [0, 1, 0, 1, 0, 1] _ rfl
    (finished_of_two ⟨_, rfl⟩ ⟨_, rfl⟩ fun _ => rfl)).mpr (by decide)⟩

/-- Store 0 reads back 1, store 1 sets 2 and sends it, then store 0 sends 1: `reg_show` reports 2
and the chip has 1, on either bus. -/
theorem register_and_chip_part :
    (∃ p, run (Pool.step (perform none)) (Pool.init ⟨0, 0⟩ (stores .i2c oneAndTwo))
        [0, 0, 1, 1, 1, 0] = some p ∧ p.Finished ∧
      ((Demo.i2c.regShow (some bound)).exec (perform none) p.shared).2 = .ok (formatReg 2) ∧
      p.shared.chip = 1) ∧
    ∃ p, run (Pool.step (perform none)) (Pool.init ⟨0, 0⟩ (stores .spi oneAndTwo))
        [0, 0, 1, 1, 1, 0] = some p ∧ p.Finished ∧
      ((Demo.spi.regShow (some bound)).exec (perform none) p.shared).2 = .ok (formatReg 2) ∧
      p.shared.chip = 1 :=
  ⟨⟨_, rfl, finished_of_two ⟨_, rfl⟩ ⟨_, rfl⟩ fun _ => rfl, rfl, rfl⟩,
    _, rfl, finished_of_two ⟨_, rfl⟩ ⟨_, rfl⟩ fun _ => rfl, rfl, rfl⟩

end LinuxDriverFramework.RegDemo
