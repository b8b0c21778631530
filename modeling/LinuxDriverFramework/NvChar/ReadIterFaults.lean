import LinuxDriverFramework.NvChar.Io
import Mathlib.Algebra.Ring.Int.Defs

/-! # A fault while the bounce buffer is copied out

`nv_char_read_iter` lets the callback advance `ki_pos` before `copy_to_iter` has delivered anything,
and does not take the advance back.

* `Fills`: a read callback that fills the buffer it is handed and advances the position by what it
  returns.
* `Accounted`: no byte is lost or made up, whatever is returned.
* `readIter_accounted_iff`: that holds just when the iterator takes all the callback returns. -/

namespace LinuxDriverFramework.NvChar.Io
open Foundations
set_option autoImplicit false

variable {σ : Type}

/-- The `n` bytes of a device from a position on; `byteAt` is what it has at each. -/
def span (byteAt : σ → ℤ → UInt8) (s : σ) (pos : ℤ) (n : ℕ) : List UInt8 :=
  (List.range n).map fun i : ℕ => byteAt s (pos + i)

@[simp] theorem length_span (byteAt : σ → ℤ → UInt8) (s : σ) (pos : ℤ) (n : ℕ) :
    (span byteAt s pos n).length = n := by
  rw [span, List.length_map, List.length_range]

/-- What the callback does with a buffer of the size that it is told. -/
structure Fills (cb : RwCallback σ) (byteAt : σ → ℤ → UInt8) : Prop where
  size : ∀ s buf pos n, (cb s buf buf.bytes.length pos).ret = .ok n → n ≤ buf.bytes.length
  bytes : ∀ s buf pos n, (cb s buf buf.bytes.length pos).ret = .ok n →
    (cb s buf buf.bytes.length pos).mem.bytes.take n = span byteAt s pos n
  advance : ∀ s buf pos n, (cb s buf buf.bytes.length pos).ret = .ok n →
    (cb s buf buf.bytes.length pos).pos = pos + n
  stay : ∀ s buf pos e, (cb s buf buf.bytes.length pos).ret = .error e →
    (cb s buf buf.bytes.length pos).pos = pos

/-- After `-EFAULT` the position is the old one; with a count, that many bytes from the old position
on are delivered and the position is behind them. -/
structure Accounted (byteAt : σ → ℤ → UInt8) (s : σ) (it : Iter) (pos : ℤ) (r : IterResult σ) :
    Prop where
  fault : r.ret = .error .EFAULT → r.pos = pos
  delivered : ∀ n, 0 < n → r.ret = .ok n →
    r.iter.data = overlay (span byteAt s pos n) it.data ∧ r.pos = pos + n

/-! ## Copying out -/

theorem copyToIter_fits {src : List UInt8} {it : Iter} (hcount : src.length ≤ it.count)
    (hgood : src.length ≤ it.good) :
    (copyToIter src it).2 = src.length ∧ (copyToIter src it).1.data = overlay src it.data := by
  have hmoved : (src.take it.good).take it.count = src := by
    rw [List.take_of_length_le hgood, List.take_of_length_le hcount]
  refine ⟨congrArg List.length hmoved, ?_⟩
  show (fill ((src.take it.good).take it.count) it.segs).flatten = overlay src it.data
  rw [hmoved, flatten_fill hcount]
  rfl

theorem copyToIter_short {src : List UInt8} {it : Iter} (hgood : it.good < src.length) :
    (copyToIter src it).2 ≠ src.length := by
  have hlen : (copyToIter src it).2 ≤ it.good := by
    show ((src.take it.good).take it.count).length ≤ it.good
    exact Nat.le_trans (List.length_take_le' _ _) (List.length_take_le _ _)
  omega

section Bounced

variable {cb : RwCallback σ} {byteAt : σ → ℤ → UInt8} (hf : Fills cb byteAt) (junk : ℕ → UInt8)
  (s : σ) (it : Iter) (pos : ℤ)

/-- The iterator takes all that the callback returns. -/
def TakesAll (cb : RwCallback σ) (junk : ℕ → UInt8) (s : σ) (it : Iter) (pos : ℤ) : Prop :=
  ∀ n, (cb s (.bounce junk it.count) it.count pos).ret = .ok n → n ≤ it.good

theorem length_bounce (n : ℕ) : (Mem.bounce junk n).bytes.length = n := by
  simp only [Mem.bounce, List.length_map, List.length_range]

include hf

theorem Fills.on_bounce {n : ℕ}
    (h : (cb s (.bounce junk it.count) it.count pos).ret = .ok n) :
    let r := cb s (.bounce junk it.count) it.count pos
    n ≤ it.count ∧ r.mem.bytes.take n = span byteAt s pos n ∧ r.pos = pos + n := by
  have hlen := length_bounce junk it.count
  have hsize := hf.size s (.bounce junk it.count) pos n
  have hbytes := hf.bytes s (.bounce junk it.count) pos n
  have hadvance := hf.advance s (.bounce junk it.count) pos n
  rw [hlen] at hsize hbytes hadvance
  exact ⟨hsize h, hbytes h, hadvance h⟩

theorem readBounced_accounted_iff :
    Accounted byteAt s it pos (readBounced cb junk s it pos) ↔ TakesAll cb junk s it pos := by
  have hstay := hf.stay s (.bounce junk it.count) pos
  rw [length_bounce] at hstay
  cases hret : (cb s (.bounce junk it.count) it.count pos).ret with
  | error e =>
    simp only [readBounced, TakesAll, hret]
    refine iff_of_true ⟨fun _ => hstay e hret, fun n _ h => ?_⟩ fun n h => ?_
    · cases h
    · cases h
  | ok n =>
    obtain ⟨hsize, hbytes, hadvance⟩ := hf.on_bounce junk s it pos hret
    have hlen := length_span byteAt s pos n
    simp only [readBounced, TakesAll, hret, hbytes, hadvance]
    by_cases hn : 0 < n
    · simp only [if_pos hn]
      by_cases hgood : n ≤ it.good
      · have hcount : (span byteAt s pos n).length ≤ it.count := by omega
        have hfits : (span byteAt s pos n).length ≤ it.good := by omega
        obtain ⟨hcopied, hdata⟩ := copyToIter_fits hcount hfits
        rw [hcopied, hlen, if_neg (fun h => h rfl)]
        refine iff_of_true ⟨fun h => (by cases h), fun m _ h => ?_⟩ fun m h => ?_
        · cases h
          exact ⟨hdata, rfl⟩
        · cases h
          exact hgood
      · -- the copy falls short, and the position stays advanced
        have hlong : it.good < (span byteAt s pos n).length := by omega
        have hshort := copyToIter_short hlong
        rw [hlen] at hshort
        rw [if_pos hshort]
        refine iff_of_false (fun h => ?_) fun h => hgood (h n rfl)
        have hpos : pos + n = pos := h.fault rfl
        omega
    · simp only [if_neg hn]
      refine iff_of_true ⟨fun h => (by cases h), fun m hm h => ?_⟩ fun m h => ?_
      · cases h
        exact absurd hm hn
      · cases h
        omega

end Bounced

/-! ## The wrapper -/

/-- Through `nv_char_read_iter` no byte is lost just when the iterator takes all that the callback
returns, if the callback is called. -/
theorem readIter_accounted_iff {cb : RwCallback σ} {byteAt : σ → ℤ → UInt8} (hf : Fills cb byteAt)
    (ops : Option (DevOps σ)) (hread : ops.bind (·.read) = some cb)
    (hiter : ops.bind (·.readIter) = none) (removing : Bool) (kbuf : Option (ℕ → UInt8)) (s : σ)
    (it : Iter) (pos : ℤ) :
    Accounted byteAt s it pos (readIter removing ops kbuf s it pos) ↔
      (removing = false → it.count ≠ 0 → ∀ junk, kbuf = some junk → TakesAll cb junk s it pos) := by
  have hquiet : ∀ e : Errno, Accounted byteAt s it pos ⟨.error e, s, it, pos⟩ := fun e =>
    ⟨fun _ => rfl, fun n _ h => by cases h⟩
  unfold readIter scattered
  rw [hread, hiter]
  cases removing with
  | true => exact iff_of_true (hquiet .ENODEV) fun h => by cases h
  | false =>
    by_cases hz : it.count = 0
    · refine iff_of_true ?_ fun _ h => absurd hz h
      simp only [hz, Bool.false_eq_true, if_false, if_true]
      refine ⟨fun _ => rfl, fun n hn h => ?_⟩
      cases h
      exact absurd hn (Nat.lt_irrefl 0)
    · simp only [hz, Bool.false_eq_true, if_false]
      cases kbuf with
      | none => exact iff_of_true (hquiet .ENOMEM) fun _ _ junk h => by cases h
      | some junk =>
        refine (readBounced_accounted_iff hf junk s it pos).trans ⟨fun h _ _ junk' hj => ?_, ?_⟩
        · cases hj
          exact h
        · intro h
          exact h trivial hz junk rfl

/-! ## A device that counts -/

/-- Every byte is the low octet of its position. -/
def countAt (_ : Unit) (pos : ℤ) : UInt8 := UInt8.ofNat (pos % 256).toNat

/-- The read callback of a device without end. -/
def countRead : RwCallback Unit := fun s buf count pos =>
  ⟨.ok count, s, { buf with bytes := overlay (span countAt s pos count) buf.bytes }, pos + count⟩

def countOps : DevOps Unit := ⟨some countRead, none, none, none⟩

theorem fills_countRead : Fills countRead countAt where
  size s buf pos n h := by
    cases h
    exact Nat.le_refl _
  bytes s buf pos n h := by
    cases h
    show (overlay (span countAt s pos buf.bytes.length) buf.bytes).take buf.bytes.length = _
    rw [overlay, List.take_append_of_le_length (by rw [length_span])]
    exact List.take_of_length_le (by rw [length_span])
  advance s buf pos n h := by
    cases h
    rfl
  stay s buf pos e h := by cases h

theorem readIter_accounted_iff_count :
    Accounted countAt () ⟨[[0], [0]], 1⟩ 0
      (readIter false (some countOps) (some fun _ => 0) () ⟨[[0], [0]], 1⟩ 0) ↔
      (false = false → (⟨[[0], [0]], 1⟩ : Iter).count ≠ 0 → ∀ junk,
        (some fun _ => 0 : Option (ℕ → UInt8)) = some junk →
          TakesAll countRead junk () ⟨[[0], [0]], 1⟩ 0) :=
  readIter_accounted_iff fills_countRead (some countOps) rfl rfl false (some fun _ => 0) ()
    ⟨[[0], [0]], 1⟩ 0

/-- Two bytes asked for, the second page bad: `-EFAULT` with the position behind both. -/
theorem fault_past_the_bytes :
    (readIter false (some countOps) (some fun _ => 0) () ⟨[[0], [0]], 1⟩ 0).ret =
        .error .EFAULT ∧
      (readIter false (some countOps) (some fun _ => 0) () ⟨[[0], [0]], 1⟩ 0).pos = 2 ∧
      ¬ ∀ (cb : RwCallback Unit) (byteAt : Unit → ℤ → UInt8) (ops : Option (DevOps Unit)),
        Fills cb byteAt → ops.bind (·.read) = some cb → ops.bind (·.readIter) = none →
        ∀ (removing : Bool) (kbuf : Option (ℕ → UInt8)) (it : Iter) (pos : ℤ),
          Accounted byteAt () it pos (readIter removing ops kbuf () it pos) := by
  have hret : (readIter false (some countOps) (some fun _ => 0) () ⟨[[0], [0]], 1⟩ 0).ret =
      .error .EFAULT := by rfl
  have hpos : (readIter false (some countOps) (some fun _ => 0) () ⟨[[0], [0]], 1⟩ 0).pos = 2 := by
    rfl
  refine ⟨hret, hpos, fun h => ?_⟩
  have hkept := (h countRead countAt (some countOps) fills_countRead rfl rfl false
    (some fun _ => 0) ⟨[[0], [0]], 1⟩ 0).fault hret
  rw [hpos] at hkept
  cases hkept

end LinuxDriverFramework.NvChar.Io
