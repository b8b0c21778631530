import LinuxDriverFramework.NvChar.Io

/-! # The bytes that `nv_char_write_iter` hands to `ops->write`

* `recorded`: the same callback with a log of the byte strings it was handed.
* `handed`: that log after one call of `nv_char_write_iter`.
* `SuppliedOnly`: every byte string in it is a prefix of what could be copied from the caller.
* `suppliedOnly_iff`: this holds just when the copy delivers everything or nothing. -/

namespace LinuxDriverFramework.NvChar.Io
open Foundations
set_option autoImplicit false

variable {σ : Type}

/-! ## Recording calls of `ops->write` -/

/-- The callback with a log: `count` bytes from the start of the buffer are the callee's. -/
def recorded (cb : RwCallback σ) : RwCallback (σ × List (List UInt8)) := fun s buf count pos =>
  let r := cb s.1 buf count pos
  ⟨r.ret, (r.state, s.2 ++ [buf.bytes.take count]), r.mem, r.pos⟩

def unrecorded (cb : RwCallback σ) : RwCallback (σ × List (List UInt8)) := fun s buf count pos =>
  let r := cb s.1 buf count pos
  ⟨r.ret, (r.state, s.2), r.mem, r.pos⟩

def unrecordedIter (cb : IterCallback σ) : IterCallback (σ × List (List UInt8)) := fun s it pos =>
  let r := cb s.1 it pos
  ⟨r.ret, (r.state, s.2), r.iter, r.pos⟩

/-- The same device with a log of what its `write` member is handed. -/
def DevOps.recorded (d : DevOps σ) : DevOps (σ × List (List UInt8)) where
  read := d.read.map unrecorded
  write := d.write.map Io.recorded
  readIter := d.readIter.map unrecordedIter
  writeIter := d.writeIter.map unrecordedIter

def IterResult.forget (r : IterResult (σ × List (List UInt8))) : IterResult σ :=
  ⟨r.ret, r.state.1, r.iter, r.pos⟩

section Recorded

variable (ops : Option (DevOps σ))

@[simp] theorem bind_recorded_write :
    (ops.map DevOps.recorded).bind (·.write) = (ops.bind (·.write)).map recorded := by
  cases ops <;> rfl

@[simp] theorem bind_recorded_writeIter :
    (ops.map DevOps.recorded).bind (·.writeIter) = (ops.bind (·.writeIter)).map unrecordedIter := by
  cases ops <;> rfl

theorem writeBounced_recorded (cb : RwCallback σ) (junk : ℕ → UInt8) (s : σ)
    (log : List (List UInt8)) (it : Iter) (pos : ℤ) :
    (writeBounced (recorded cb) junk (s, log) it pos).forget = writeBounced cb junk s it pos := by
  by_cases hz : (copyFromIter it.count it).length = 0
  · simp only [writeBounced, hz, if_true]
    rfl
  · simp only [writeBounced, if_neg hz]
    rfl

/-- The log is only watched: results and private state are those of the device itself. -/
theorem writeIter_recorded (removing : Bool) (kbuf : Option (ℕ → UInt8)) (s : σ)
    (log : List (List UInt8)) (it : Iter) (pos : ℤ) :
    (writeIter removing (ops.map DevOps.recorded) kbuf (s, log) it pos).forget =
      writeIter removing ops kbuf s it pos := by
  simp only [writeIter, bind_recorded_write, bind_recorded_writeIter, scattered]
  cases removing with
  | true => rfl
  | false =>
    cases ops.bind (·.writeIter) with
    | some cb => rfl
    | none =>
      cases ops.bind (·.write) with
      | none => rfl
      | some cb =>
        by_cases hz : it.count = 0
        · simp only [Option.map_some, Option.map_none, Bool.false_eq_true, if_false, hz, if_true]
          rfl
        · cases kbuf with
          | none =>
            simp only [Option.map_some, Option.map_none, Bool.false_eq_true, if_false, hz]
            rfl
          | some junk =>
            simp only [Option.map_some, Option.map_none, Bool.false_eq_true, if_false, hz]
            exact writeBounced_recorded cb junk s log it pos

end Recorded

/-- The byte strings that one `nv_char_write_iter` hands to `ops->write`. -/
def handed (removing : Bool) (ops : Option (DevOps σ)) (kbuf : Option (ℕ → UInt8)) (s : σ)
    (it : Iter) (pos : ℤ) : List (List UInt8) :=
  (writeIter removing (ops.map DevOps.recorded) kbuf (s, []) it pos).state.2

/-- `ops->write` gets bytes from the front of the `k` that the caller supplied, and no others. -/
def SuppliedOnly (k : ℕ) (it : Iter) (calls : List (List UInt8)) : Prop :=
  ∀ bytes ∈ calls, bytes <+: it.data.take k

/-! ## A fault inside the data -/

section Fault

variable {ops : Option (DevOps σ)} {cb : RwCallback σ} {segs : List (List UInt8)} {k : ℕ}

theorem copyFromIter_fault (segs : List (List UInt8)) (k : ℕ) :
    copyFromIter (Iter.count ⟨segs, k⟩) ⟨segs, k⟩ = segs.flatten.take k := by
  show (segs.flatten.take segs.flatten.length).take k = segs.flatten.take k
  rw [List.take_length]

/-- What is behind `kbuf` after a copy of `k` bytes: the rest stays as `kvmalloc` left it. -/
theorem overlay_bounce_take (junk : ℕ → UInt8) {moved : List UInt8} {n : ℕ}
    (h : moved.length ≤ n) :
    ((overlay moved (Mem.bounce junk n).bytes).take n).length = n := by
  have hlen : (Mem.bounce junk n).bytes.length = n := by
    simp only [Mem.bounce, List.length_map, List.length_range]
  rw [List.length_take, length_overlay (by omega), hlen, Nat.min_self]

theorem handed_bounced (hiter : ops.bind (·.writeIter) = none)
    (hwrite : ops.bind (·.write) = some cb) (hk : k ≤ segs.flatten.length) (hpos : 0 < k)
    (junk : ℕ → UInt8) (s : σ) (pos : ℤ) :
    handed false ops (some junk) s ⟨segs, k⟩ pos =
      [(overlay (segs.flatten.take k) (Mem.bounce junk segs.flatten.length).bytes).take
        segs.flatten.length] := by
  have hn : Iter.count ⟨segs, k⟩ = segs.flatten.length := rfl
  have hcount : ¬ Iter.count ⟨segs, k⟩ = 0 := by
    rw [hn]
    omega
  have hmoved : ¬ (segs.flatten.take k).length = 0 := by
    rw [List.length_take]
    omega
  simp only [handed, writeIter, scattered, bind_recorded_write, bind_recorded_writeIter, hiter,
    hwrite, Option.map_none, Option.map_some, Bool.false_eq_true, if_false, if_neg hcount,
    writeBounced, copyFromIter_fault, if_neg hmoved]
  rfl

theorem handed_nil (hiter : ops.bind (·.writeIter) = none) {removing : Bool}
    {kbuf : Option (ℕ → UInt8)} (h : removing = true ∨ kbuf = none ∨ k = 0) (s : σ) (pos : ℤ) :
    handed removing ops kbuf s ⟨segs, k⟩ pos = [] := by
  cases removing with
  | true => rfl
  | false =>
    simp only [handed, writeIter, scattered, bind_recorded_write, bind_recorded_writeIter, hiter,
      Option.map_none, Bool.false_eq_true, if_false]
    cases ops.bind (·.write) with
    | none => rfl
    | some cb =>
      by_cases hz : Iter.count ⟨segs, k⟩ = 0
      · simp only [Option.map_some, hz, if_true]
      · cases kbuf with
        | none => simp only [Option.map_some, hz, if_false]
        | some junk =>
          obtain rfl : k = 0 := by simpa using h
          simp only [Option.map_some, hz, if_false, writeBounced, copyFromIter_fault,
            List.take_zero, List.length_nil, if_true]

/-- `ops->write` is handed supplied bytes only just when it is not called or the copy was complete:
on a short copy it gets `count` bytes, the last ones from the uninitialised buffer. -/
theorem suppliedOnly_iff (hiter : ops.bind (·.writeIter) = none)
    (hwrite : ops.bind (·.write) = some cb) (hk : k ≤ segs.flatten.length) (removing : Bool)
    (kbuf : Option (ℕ → UInt8)) (s : σ) (pos : ℤ) :
    SuppliedOnly k ⟨segs, k⟩ (handed removing ops kbuf s ⟨segs, k⟩ pos) ↔
      removing = true ∨ kbuf = none ∨ k = 0 ∨ k = segs.flatten.length := by
  constructor
  · intro h
    by_contra hno
    obtain ⟨hrem, hbuf, hzero, hfull⟩ : removing = false ∧ kbuf ≠ none ∧ k ≠ 0 ∧
        k ≠ segs.flatten.length := by simpa using hno
    obtain ⟨junk, rfl⟩ := Option.ne_none_iff_exists'.mp hbuf
    rw [hrem, handed_bounced hiter hwrite hk (by omega)] at h
    -- the one call gets all of the buffer, which is longer than what was supplied
    have hlen := (h _ List.mem_cons_self).length_le
    have htake : (segs.flatten.take k).length ≤ segs.flatten.length := List.length_take_le' _ _
    rw [overlay_bounce_take junk htake] at hlen
    have : ((Iter.data ⟨segs, k⟩).take k).length ≤ k := List.length_take_le _ _
    omega
  · intro h bytes hb
    by_cases hcall : removing = true ∨ kbuf = none ∨ k = 0
    · rw [handed_nil hiter hcall] at hb
      exact absurd hb List.not_mem_nil
    · obtain ⟨hrem, hbuf, hzero⟩ : removing = false ∧ kbuf ≠ none ∧ k ≠ 0 := by simpa using hcall
      obtain rfl : k = segs.flatten.length := by
        rcases h with h | h | h | h
        · exact absurd (.inl h) hcall
        · exact absurd h hbuf
        · exact absurd h hzero
        · exact h
      obtain ⟨junk, rfl⟩ := Option.ne_none_iff_exists'.mp hbuf
      rw [hrem, handed_bounced hiter hwrite hk (by omega)] at hb
      obtain rfl := List.mem_singleton.mp hb
      show List.take _ _ <+: List.take _ segs.flatten
      simp only [List.take_length, overlay, List.take_left, List.prefix_refl]

end Fault

/-! ## Two bytes in two segments -/

def storing : DevOps (List UInt8) where
  read := none
  write := some fun _ buf count pos => ⟨.ok count, buf.bytes.take count, buf, pos + count⟩
  readIter := none
  writeIter := none

theorem suppliedOnly_iff_two_segments :
    SuppliedOnly 2 ⟨[[104], [105]], 2⟩
        (handed false (some storing) (some fun _ => 90) [] ⟨[[104], [105]], 2⟩ 0) ↔
      false = true ∨ (some fun _ => 90 : Option (ℕ → UInt8)) = none ∨ 2 = 0 ∨
        2 = [[(104 : UInt8)], [105]].flatten.length :=
  suppliedOnly_iff rfl rfl (by decide) false (some fun _ => 90) [] 0

/-- The second segment faults, and its byte is replaced by what was in the kernel's heap. -/
theorem short_copy_hands_heap_byte :
    handed false (some storing) (some fun _ => 90) [] ⟨[[104], [105]], 1⟩ 0 = [[104, 90]] ∧
    ¬ SuppliedOnly 1 ⟨[[104], [105]], 1⟩
      (handed false (some storing) (some fun _ => 90) [] ⟨[[104], [105]], 1⟩ 0) := by
  have h : handed false (some storing) (some fun _ => 90) [] ⟨[[104], [105]], 1⟩ 0 = [[104, 90]] :=
    rfl
  refine ⟨h, fun hs => ?_⟩
  have hlen := (hs [104, 90] (h ▸ List.mem_cons_self)).length_le
  exact absurd hlen (by decide)

end LinuxDriverFramework.NvChar.Io
