import LinuxDriverFramework.Foundations.Simulations
import LinuxDriverFramework.NvBlock.RamConcurrent
import Mathlib.Algebra.BigOperators.Group.Finset.Basic
import Mathlib.Algebra.Order.BigOperators.Group.Finset

/-! # Bios in flight, byte by byte

The check, the lock, every byte of the `memcpy` and the unlock of `ram_submit_bio` are steps of
their own. Under the lock this comes to the rounds of `NvBlock.RamConcurrent`.

* `CopyPc`, `copyStep`: the steps of one round.
* `Copies.settled`: the disk and the calls once the holder of the lock has finished its copy.
* `copies_simulate`: a round has its place at the lock.
* `copies_refine`: every interleaving is one of rounds, no call waits for ever, and all of them
  return. -/

namespace LinuxDriverFramework.NvBlock
open Foundations
set_option autoImplicit false

/-! ## The steps -/

/-- Where a call is in a round; `buf` is the memory of the segment and `rest` what comes after. -/
inductive CopyPc
  | between
  | waiting (buf : List UInt8) (rest : List (List UInt8))
  /-- under the lock, `i` bytes are copied -/
  | copying (buf : List UInt8) (rest : List (List UInt8)) (i : ℕ)
  deriving DecidableEq, Repr

/-- A call; `progress` is that of its last full round. -/
structure Copier where
  progress : Progress
  pc : CopyPc

structure Copies (bios : List Bio) where
  priv : RamPriv
  lock : Option (Fin bios.length)
  call : Fin bios.length → Copier

variable {bios : List Bio}

def Copies.start (priv : RamPriv) (bios : List Bio) : Copies bios :=
  ⟨priv, none, fun t => ⟨(bios.get t).begin, .between⟩⟩

def Copies.put (w : Copies bios) (t : Fin bios.length) (c : Copier) : Copies bios :=
  { w with call := Function.update w.call t c }

/-- `start * RAM_BLOCK_SIZE`. -/
def Progress.offset (p : Progress) : ℕ := p.sector * ramBlockSize % wordSize

/-- A round is over. -/
def Progress.copied (p : Progress) (buf : List UInt8) (rest : List (List UInt8)) : Progress :=
  ⟨nextSector p.sector buf.length, rest, p.finished ++ [buf], none⟩

/-- Byte `i` of the `memcpy`, which goes upwards. -/
def copyByte (priv : RamPriv) (dir : BioDir) (offset : ℕ) (buf : List UInt8) (i : ℕ) :
    RamPriv × List UInt8 :=
  match dir with
  | .write => ({ priv with data := Function.update priv.data (offset + i) (buf.getD i 0) }, buf)
  | .read => (priv, buf.set i (priv.data (offset + i)))

def copyStep (w : Copies bios) (t : Fin bios.length) : Option (Copies bios) :=
  let p := (w.call t).progress
  if p.status.isSome then none
  else
    match (w.call t).pc with
    | .between =>
      match p.todo with
      | [] => some (w.put t ⟨p.return .ok, .between⟩)
      | buf :: rest =>
        if (buf :: rest).flatten.length = 0 then some (w.put t ⟨p.return .ok, .between⟩)
        else if w.priv.sectors < (p.sector + (buf.length >>> 9)) % wordSize then
          some (w.put t ⟨p.return .ioerr, .between⟩)
        else some (w.put t ⟨p, .waiting buf rest⟩)
    | .waiting buf rest =>
      match w.lock with
      | some _ => none
      | none => some { w.put t ⟨p, .copying buf rest 0⟩ with lock := some t }
    | .copying buf rest i =>
      if i < buf.length then
        let r := copyByte w.priv (bios.get t).dir p.offset buf i
        some { w.put t ⟨p, .copying r.2 rest (i + 1)⟩ with priv := r.1 }
      else some { w.put t ⟨p.copied buf rest, .between⟩ with lock := none }

/-! ## The rest of a copy -/

/-- The bytes from `i` on, all at once. -/
def copyRest (priv : RamPriv) (dir : BioDir) (offset : ℕ) (buf : List UInt8) (i : ℕ) :
    RamPriv × List UInt8 :=
  match dir with
  | .write => ({ priv with data := store priv.data (offset + i) (buf.drop i) }, buf)
  | .read => (priv, buf.take i ++ fetch priv.data (offset + i) (buf.length - i))

section Rest

variable (priv : RamPriv) (dir : BioDir) (offset : ℕ) (buf : List UInt8)

theorem copyRest_zero : copyRest priv dir offset buf 0 = copySegment priv dir offset buf := by
  cases dir <;> rfl

theorem copyRest_end {i : ℕ} (h : buf.length ≤ i) :
    copyRest priv dir offset buf i = (priv, buf) := by
  cases dir with
  | write =>
    simp only [copyRest, List.drop_of_length_le h, store_nil]
  | read =>
    simp only [copyRest, List.take_of_length_le h, Nat.sub_eq_zero_of_le h]
    exact congrArg (Prod.mk priv) (List.append_nil buf)

@[simp] theorem copyByte_sectors (i : ℕ) :
    (copyByte priv dir offset buf i).1.sectors = priv.sectors := by
  cases dir <;> rfl

@[simp] theorem length_copyByte (i : ℕ) :
    (copyByte priv dir offset buf i).2.length = buf.length := by
  cases dir with
  | write => rfl
  | read => exact List.length_set

@[simp] theorem copyRest_sectors (i : ℕ) :
    (copyRest priv dir offset buf i).1.sectors = priv.sectors := by
  cases dir <;> rfl

/-- One byte and then the rest. -/
theorem copyRest_byte {i : ℕ} (h : i < buf.length) :
    copyRest (copyByte priv dir offset buf i).1 dir offset (copyByte priv dir offset buf i).2
      (i + 1) = copyRest priv dir offset buf i := by
  cases dir with
  | write =>
    have hdrop : buf.drop i = buf.getD i 0 :: buf.drop (i + 1) := by
      rw [List.getD_eq_getElem _ _ h, List.drop_eq_getElem_cons h]
    simp only [copyRest, copyByte, hdrop, store_cons, Nat.add_assoc]
  | read =>
    have htake : (buf.set i (priv.data (offset + i))).take (i + 1) =
        buf.take i ++ [priv.data (offset + i)] := by
      rw [List.take_add_one, List.take_set_of_le (Nat.le_refl i), List.getElem?_set_self h]
      rfl
    have hlen : buf.length - i = 1 + (buf.length - (i + 1)) := by omega
    simp only [copyRest, copyByte, htake, List.length_set]
    rw [hlen, fetch_add, List.append_assoc, Nat.add_assoc]
    rfl

end Rest

/-! ## What a step does -/

def Copies.calls (w : Copies bios) (t : Fin bios.length) : Progress := (w.call t).progress

def Progress.CheckFails (p : Progress) (sectors : ℕ) (buf : List UInt8) : Prop :=
  sectors < (p.sector + (buf.length >>> 9)) % wordSize

/-- The round of a call that returns. -/
def Progress.Ends (p : Progress) (sectors : ℕ) (status : BlkStatus) : Prop :=
  (status = .ok ∧ p.todo.flatten.length = 0) ∨
    (status = .ioerr ∧ ∃ buf rest, p.todo = buf :: rest ∧ ¬ (buf :: rest).flatten.length = 0 ∧
      p.CheckFails sectors buf)

inductive CopyStepped (w : Copies bios) (t : Fin bios.length) : Copies bios → Prop
  | returned (status : BlkStatus) (hpc : (w.call t).pc = .between)
      (hends : (w.calls t).Ends w.priv.sectors status) :
      CopyStepped w t (w.put t ⟨(w.calls t).return status, .between⟩)
  | admitted (buf : List UInt8) (rest : List (List UInt8)) (hpc : (w.call t).pc = .between)
      (htodo : (w.calls t).todo = buf :: rest) (hz : ¬ (buf :: rest).flatten.length = 0)
      (hcheck : ¬ (w.calls t).CheckFails w.priv.sectors buf) :
      CopyStepped w t (w.put t ⟨w.calls t, .waiting buf rest⟩)
  | locked (buf : List UInt8) (rest : List (List UInt8)) (hpc : (w.call t).pc = .waiting buf rest)
      (hlock : w.lock = none) :
      CopyStepped w t { w.put t ⟨w.calls t, .copying buf rest 0⟩ with lock := some t }
  | byte (buf : List UInt8) (rest : List (List UInt8)) (i : ℕ)
      (hpc : (w.call t).pc = .copying buf rest i) (hi : i < buf.length)
      (r : RamPriv × List UInt8)
      (hr : r = copyByte w.priv (bios.get t).dir (w.calls t).offset buf i) :
      CopyStepped w t { w.put t ⟨w.calls t, .copying r.2 rest (i + 1)⟩ with priv := r.1 }
  | unlocked (buf : List UInt8) (rest : List (List UInt8)) (i : ℕ)
      (hpc : (w.call t).pc = .copying buf rest i) (hi : buf.length ≤ i) :
      CopyStepped w t { w.put t ⟨(w.calls t).copied buf rest, .between⟩ with lock := none }

theorem copyStep_cases {w w' : Copies bios} {t : Fin bios.length} (h : copyStep w t = some w') :
    (w.calls t).status = none ∧ CopyStepped w t w' := by
  unfold copyStep at h
  dsimp only at h
  split at h
  · cases h
  · rename_i hrunning
    refine ⟨by simpa [Copies.calls] using hrunning, ?_⟩
    split at h
    · rename_i hpc
      split at h
      · rename_i htodo
        obtain rfl := Option.some.inj h
        refine .returned .ok hpc (.inl ⟨rfl, ?_⟩)
        rw [Copies.calls, htodo]
        rfl
      · rename_i buf rest htodo
        split at h
        · rename_i hz
          obtain rfl := Option.some.inj h
          refine .returned .ok hpc (.inl ⟨rfl, ?_⟩)
          rw [Copies.calls, htodo]
          exact hz
        · rename_i hz
          split at h
          · rename_i hcheck
            obtain rfl := Option.some.inj h
            exact .returned .ioerr hpc (.inr ⟨rfl, buf, rest, htodo, hz, hcheck⟩)
          · rename_i hcheck
            obtain rfl := Option.some.inj h
            exact .admitted buf rest hpc htodo hz hcheck
    · rename_i buf rest hpc
      split at h
      · cases h
      · rename_i hlock
        obtain rfl := Option.some.inj h
        exact .locked buf rest hpc hlock
    · rename_i buf rest i hpc
      split at h
      · rename_i hi
        obtain rfl := Option.some.inj h
        exact .byte buf rest i hpc hi _ rfl
      · rename_i hi
        obtain rfl := Option.some.inj h
        exact .unlocked buf rest i hpc (not_lt.mp hi)

/-- A call that cannot go on has returned or waits for the lock. -/
theorem copyStep_none {w : Copies bios} {t : Fin bios.length} (h : copyStep w t = none)
    (hs : (w.calls t).status = none) :
    (∃ buf rest, (w.call t).pc = .waiting buf rest) ∧ ∃ u, w.lock = some u := by
  have hrunning : ¬ (w.call t).progress.status.isSome = true := by
    rw [show (w.call t).progress.status = none from hs]
    exact Bool.false_ne_true
  unfold copyStep at h
  dsimp only at h
  rw [if_neg hrunning] at h
  split at h
  · split at h
    · cases h
    · split at h
      · cases h
      · split at h <;> cases h
  · rename_i buf rest hpc
    split at h
    · rename_i u hlock
      exact ⟨⟨buf, rest, hpc⟩, u, hlock⟩
    · cases h
  · split at h <;> cases h

/-! ## The invariant of the lock -/

def CopyPc.isCopying : CopyPc → Bool
  | .copying _ _ _ => true
  | _ => false

/-- What the check has found still holds at the lock, and a copy leaves the length alone. -/
def Copier.Good (sectors : ℕ) (c : Copier) : Prop :=
  match c.pc with
  | .between => True
  | .waiting buf rest => c.progress.status = none ∧ c.progress.todo = buf :: rest ∧
      ¬ (buf :: rest).flatten.length = 0 ∧ ¬ c.progress.CheckFails sectors buf
  | .copying buf rest _ => c.progress.status = none ∧
      ∃ buf₀, c.progress.todo = buf₀ :: rest ∧ buf₀.length = buf.length

structure Copies.Sound (w : Copies bios) : Prop where
  good : ∀ t, (w.call t).Good w.priv.sectors
  holder : ∀ t, (w.call t).pc.isCopying = true ↔ w.lock = some t

theorem start_sound (priv : RamPriv) (bios : List Bio) : (Copies.start priv bios).Sound where
  good := fun _ => trivial
  holder := fun _ => ⟨(fun h => by cases h), (fun h => by cases h)⟩

theorem Copies.put_self (w : Copies bios) (t : Fin bios.length) (c : Copier) :
    (w.put t c).call t = c := by
  simp only [Copies.put, Function.update_self]

theorem Copies.put_other (w : Copies bios) {t u : Fin bios.length} (h : u ≠ t) (c : Copier) :
    (w.put t c).call u = w.call u := by
  simp only [Copies.put, Function.update_of_ne h]

theorem Copies.calls_put (w : Copies bios) (t : Fin bios.length) (c : Copier) :
    (w.put t c).calls = Function.update w.calls t c.progress := by
  funext u
  exact Function.apply_update (fun _ c => c.progress) w.call t c u

theorem Copies.calls_same (w : Copies bios) (t : Fin bios.length) (pc : CopyPc) :
    (w.put t ⟨w.calls t, pc⟩).calls = w.calls := by
  rw [w.calls_put]
  exact Function.update_eq_self t w.calls

theorem Copies.Sound.held {w : Copies bios} (h : w.Sound) {t : Fin bios.length} {buf : List UInt8}
    {rest : List (List UInt8)} {i : ℕ} (hpc : (w.call t).pc = .copying buf rest i) :
    w.lock = some t := by
  apply (h.holder t).mp
  rw [hpc]
  rfl

theorem Copies.Sound.not_held {w : Copies bios} (h : w.Sound) {t : Fin bios.length}
    (hpc : (w.call t).pc.isCopying = false) : w.lock ≠ some t := by
  intro hlock
  rw [(h.holder t).mpr hlock] at hpc
  cases hpc

/-- Call `t` moves on, and the lock is not taken from another one or given to it. -/
theorem Copies.Sound.move {w : Copies bios} (h : w.Sound) {t : Fin bios.length} {c : Copier}
    {priv : RamPriv} {lock : Option (Fin bios.length)} (hsectors : priv.sectors = w.priv.sectors)
    (hgood : c.Good w.priv.sectors) (hself : c.pc.isCopying = true ↔ lock = some t)
    (hother : ∀ u, u ≠ t → (w.lock = some u ↔ lock = some u)) :
    Copies.Sound ⟨priv, lock, (w.put t c).call⟩ where
  good := by
    rw [hsectors]
    exact (Function.forall_update_iff w.call fun _ c => c.Good w.priv.sectors).mpr
      ⟨hgood, fun u _ => h.good u⟩
  holder :=
    (Function.forall_update_iff w.call fun u c => c.pc.isCopying = true ↔ lock = some u).mpr
      ⟨hself, fun u hu => (h.holder u).trans (hother u hu)⟩

theorem copyStep_sound {w w' : Copies bios} {t : Fin bios.length} (h : w.Sound)
    (hs : copyStep w t = some w') : w'.Sound ∧ w'.priv.sectors = w.priv.sectors := by
  obtain ⟨hstatus, hstep⟩ := copyStep_cases hs
  have hg := h.good t
  have hholder := h.holder t
  cases hstep with
  | returned status hpc hends =>
    rw [hpc] at hholder
    exact ⟨h.move rfl trivial hholder fun _ _ => Iff.rfl, rfl⟩
  | admitted buf rest hpc htodo hz hcheck =>
    rw [hpc] at hholder
    exact ⟨h.move rfl ⟨hstatus, htodo, hz, hcheck⟩ hholder fun _ _ => Iff.rfl, rfl⟩
  | locked buf rest hpc hlock =>
    rw [Copier.Good, hpc] at hg
    refine ⟨h.move rfl ⟨hstatus, buf, hg.2.1, rfl⟩ ⟨fun _ => rfl, fun _ => rfl⟩ fun u hu => ?_, rfl⟩
    rw [hlock]
    exact ⟨(fun hn => by cases hn), fun ht => absurd (Option.some.inj ht).symm hu⟩
  | byte buf rest i hpc hi r hr =>
    rw [Copier.Good, hpc] at hg
    rw [hpc] at hholder
    obtain ⟨-, buf₀, htodo, hlen⟩ := hg
    have hsectors : r.1.sectors = w.priv.sectors := by rw [hr, copyByte_sectors]
    refine ⟨h.move hsectors ⟨hstatus, buf₀, htodo, ?_⟩ hholder fun _ _ => Iff.rfl, hsectors⟩
    rw [hlen, hr, length_copyByte]
  | unlocked buf rest i hpc hi =>
    refine ⟨h.move rfl trivial ⟨(fun hn => by cases hn), (fun hn => by cases hn)⟩ fun u hu => ?_, rfl⟩
    rw [h.held hpc]
    exact ⟨fun ht => absurd (Option.some.inj ht).symm hu, (fun hn => by cases hn)⟩

/-! ## Rounds under the lock -/

/-- The disk and the calls once the holder of the lock has finished its copy. -/
def Copies.settled (w : Copies bios) : InFlight bios :=
  match w.lock with
  | none => ⟨w.priv, w.calls⟩
  | some t =>
    match (w.call t).pc with
    | .copying buf rest i =>
      let r := copyRest w.priv (bios.get t).dir (w.calls t).offset buf i
      ⟨r.1, Function.update w.calls t ((w.calls t).copied r.2 rest)⟩
    | _ => ⟨w.priv, w.calls⟩

theorem settled_free {w : Copies bios} (h : w.lock = none) : w.settled = ⟨w.priv, w.calls⟩ := by
  simp only [Copies.settled, h]

theorem settled_held {w : Copies bios} {t : Fin bios.length} (h : w.lock = some t)
    {buf : List UInt8} {rest : List (List UInt8)} {i : ℕ}
    (hpc : (w.call t).pc = .copying buf rest i) :
    w.settled =
      let r := copyRest w.priv (bios.get t).dir (w.calls t).offset buf i
      ⟨r.1, Function.update w.calls t ((w.calls t).copied r.2 rest)⟩ := by
  simp only [Copies.settled, h, hpc]

/-- The lock is free, or a call copies. -/
theorem Copies.Sound.lock_cases {w : Copies bios} (h : w.Sound) :
    w.lock = none ∨ ∃ t buf rest i, w.lock = some t ∧ (w.call t).pc = .copying buf rest i := by
  cases hlock : w.lock with
  | none => exact .inl rfl
  | some t =>
    have hcopying := (h.holder t).mpr hlock
    cases hpc : (w.call t).pc with
    | copying buf rest i => exact .inr ⟨t, buf, rest, i, rfl, hpc⟩
    | between =>
      rw [hpc] at hcopying
      cases hcopying
    | waiting buf rest =>
      rw [hpc] at hcopying
      cases hcopying

theorem settled_sectors (w : Copies bios) : w.settled.priv.sectors = w.priv.sectors := by
  unfold Copies.settled
  split
  · rfl
  · split
    · exact copyRest_sectors _ _ _ _ _
    · rfl

/-- A step of a call that does not have the lock. -/
theorem settled_put {w : Copies bios} (h : w.Sound) {t : Fin bios.length} (ht : w.lock ≠ some t)
    (c : Copier) :
    (w.put t c).settled =
      ⟨w.settled.priv, Function.update w.settled.progress t c.progress⟩ := by
  rcases h.lock_cases with hfree | ⟨u, buf, rest, i, hheld, hpc⟩
  · rw [settled_free (w := w.put t c) hfree, settled_free hfree, w.calls_put]
    rfl
  · have hne : u ≠ t := fun he => ht (he ▸ hheld)
    have hcall : (w.put t c).call u = w.call u := w.put_other hne c
    have hpc' : ((w.put t c).call u).pc = .copying buf rest i := by
      rw [hcall]
      exact hpc
    have hcalls : (w.put t c).calls u = w.calls u := by
      rw [w.calls_put]
      exact Function.update_of_ne hne _ _
    rw [settled_held (w := w.put t c) hheld hpc', settled_held hheld hpc]
    simp only [hcalls]
    rw [w.calls_put, Function.update_comm hne]
    rfl

theorem settled_progress {w : Copies bios} (h : w.Sound) {t : Fin bios.length}
    (ht : w.lock ≠ some t) : w.settled.progress t = w.calls t := by
  rcases h.lock_cases with hfree | ⟨u, buf, rest, i, hheld, hpc⟩
  · rw [settled_free hfree]
  · rw [settled_held hheld hpc]
    have hne : t ≠ u := fun he => ht (he ▸ hheld)
    exact Function.update_of_ne hne _ _

theorem ramRound_ends {priv : RamPriv} {p : Progress} {status : BlkStatus} (dir : BioDir)
    (h : p.Ends priv.sectors status) : ramRound priv dir p = (priv, p.return status) := by
  cases htodo : p.todo with
  | nil =>
    simp only [Progress.Ends, htodo] at h
    rcases h with ⟨rfl, -⟩ | ⟨-, buf, rest, hne, -⟩
    · simp only [ramRound, htodo]
    · cases hne
  | cons buf rest =>
    rcases h with ⟨rfl, hz⟩ | ⟨rfl, buf', rest', hcons, hz, hcheck⟩
    · rw [htodo] at hz
      simp only [ramRound, htodo, if_pos hz]
    · rw [htodo] at hcons
      obtain ⟨rfl, rfl⟩ := List.cons.inj hcons
      have hnone : ramSegment priv dir p.sector buf = none := if_pos hcheck
      simp only [ramRound, htodo, if_neg hz, hnone]

theorem ramRound_copy {priv : RamPriv} {p : Progress} {buf : List UInt8}
    {rest : List (List UInt8)} (dir : BioDir) (htodo : p.todo = buf :: rest)
    (hz : ¬ (buf :: rest).flatten.length = 0) (hcheck : ¬ p.CheckFails priv.sectors buf) :
    ramRound priv dir p =
      let r := copySegment priv dir p.offset buf
      (r.1, p.copied r.2 rest) := by
  have hseg : ramSegment priv dir p.sector buf = some (copySegment priv dir p.offset buf) :=
    if_neg hcheck
  simp only [ramRound, htodo, if_neg hz, hseg, Progress.copied, length_copySegment]

theorem flightStep_running {v : InFlight bios} {t : Fin bios.length} {p : Progress}
    (hp : v.progress t = p) (hstatus : p.status = none) {r : RamPriv × Progress}
    (hr : ramRound v.priv (bios.get t).dir p = r) :
    run flightStep v [t] = some ⟨r.1, Function.update v.progress t r.2⟩ := by
  subst hp
  subst hr
  have hrunning : ¬ (v.progress t).status.isSome = true := by
    rw [hstatus]
    exact Bool.false_ne_true
  rw [run_cons, flightStep, if_neg hrunning]
  rfl

theorem settled_copying (w : Copies bios) (t : Fin bios.length) (priv : RamPriv)
    (buf : List UInt8) (rest : List (List UInt8)) (i : ℕ) :
    Copies.settled ⟨priv, some t, (w.put t ⟨w.calls t, .copying buf rest i⟩).call⟩ =
      let r := copyRest priv (bios.get t).dir (w.calls t).offset buf i
      ⟨r.1, Function.update w.calls t ((w.calls t).copied r.2 rest)⟩ := by
  generalize hw' : Copies.mk priv (some t) (w.put t ⟨w.calls t, .copying buf rest i⟩).call = w'
  have hpriv : w'.priv = priv := by rw [← hw']
  have hlock : w'.lock = some t := by rw [← hw']
  have hpc : (w'.call t).pc = .copying buf rest i := by rw [← hw', w.put_self]
  have hcalls : w'.calls = w.calls := by
    rw [← hw']
    exact w.calls_same t (.copying buf rest i)
  rw [settled_held hlock hpc, hpriv, hcalls]

/-- A byte and the unlock change nothing, and a call that takes the lock makes its round at once. -/
theorem copies_simulate (bios : List Bio) :
    Simulates (@copyStep bios) flightStep Copies.settled Copies.Sound fun _ _ => True where
  keeps w t w' h hs := (copyStep_sound h hs).1
  matched w t w' h hs := by
    obtain ⟨hstatus, hstep⟩ := copyStep_cases hs
    cases hstep with
    | returned status hpc hends =>
      have hfree := h.not_held (t := t) (by rw [hpc]; rfl)
      rw [← settled_sectors w] at hends
      refine ⟨[t], ?_, along_true _ _⟩
      rw [flightStep_running (settled_progress h hfree) hstatus (ramRound_ends _ hends),
        settled_put h hfree]
    | admitted buf rest hpc htodo hz hcheck =>
      have hfree := h.not_held (t := t) (by rw [hpc]; rfl)
      refine ⟨[], ?_, trivial⟩
      rw [settled_put h hfree, ← settled_progress h hfree, Function.update_eq_self]
      rfl
    | locked buf rest hpc hlock =>
      have hg := h.good t
      rw [Copier.Good, hpc] at hg
      obtain ⟨-, htodo, hz, hcheck⟩ := hg
      refine ⟨[t], ?_, along_true _ _⟩
      rw [settled_free hlock, flightStep_running rfl hstatus (ramRound_copy _ htodo hz hcheck)]
      refine congrArg some (Eq.symm ?_)
      refine (settled_copying w t w.priv buf rest 0).trans ?_
      rw [copyRest_zero]
    | byte buf rest i hpc hi r hr =>
      have hlock := h.held hpc
      refine ⟨[], congrArg some (Eq.symm ?_), trivial⟩
      change Copies.settled ⟨r.1, w.lock, (w.put t ⟨w.calls t, .copying r.2 rest (i + 1)⟩).call⟩ = _
      rw [hlock, settled_copying, settled_held hlock hpc, hr, copyRest_byte _ _ _ _ hi]
    | unlocked buf rest i hpc hi =>
      have hlock := h.held hpc
      refine ⟨[], congrArg some (Eq.symm ?_), trivial⟩
      rw [settled_held hlock hpc, copyRest_end _ _ _ _ hi]
      refine (settled_free (by rfl)).trans ?_
      change InFlight.mk w.priv (w.put t ⟨(w.calls t).copied buf rest, .between⟩).calls = _
      rw [w.calls_put]

/-! ## Every call returns -/

def segmentsSteps (segs : List (List UInt8)) : ℕ := (segs.map fun buf => buf.length + 3).sum

/-- The check, the lock, the bytes and the unlock of each segment, and the return. -/
def Bio.steps (b : Bio) : ℕ := segmentsSteps b.segs + 1

/-- The steps that a call has ahead. -/
def Copier.ahead (c : Copier) : ℕ :=
  match c.pc with
  | .between => if c.progress.status.isSome then 0 else segmentsSteps c.progress.todo + 1
  | .waiting buf rest => segmentsSteps rest + buf.length + 3
  | .copying buf rest i => segmentsSteps rest + (buf.length - i) + 2

def Copies.ahead (w : Copies bios) : ℕ := ∑ t, (w.call t).ahead

theorem ahead_put_lt (w : Copies bios) {t : Fin bios.length} {c : Copier}
    (h : c.ahead < (w.call t).ahead) : (w.put t c).ahead < w.ahead := by
  refine Finset.sum_lt_sum (fun u _ => ?_) ⟨t, Finset.mem_univ t, ?_⟩
  · by_cases hu : u = t
    · subst hu
      exact (congrArg Copier.ahead (w.put_self u c)).trans_le h.le
    · exact (congrArg Copier.ahead (w.put_other hu c)).le
  · exact (congrArg Copier.ahead (w.put_self t c)).trans_lt h

theorem segmentsSteps_cons (buf : List UInt8) (rest : List (List UInt8)) :
    segmentsSteps (buf :: rest) = buf.length + 3 + segmentsSteps rest := by
  simp only [segmentsSteps, List.map_cons, List.sum_cons]

theorem ahead_between {c : Copier} (hpc : c.pc = .between) (hs : c.progress.status = none) :
    c.ahead = segmentsSteps c.progress.todo + 1 := by
  simp only [Copier.ahead, hpc, hs, Option.isSome_none, Bool.false_eq_true, if_false]

theorem copyStep_ahead {w w' : Copies bios} {t : Fin bios.length} (hs : copyStep w t = some w') :
    w'.ahead < w.ahead := by
  obtain ⟨hstatus, hstep⟩ := copyStep_cases hs
  cases hstep with
  | returned status hpc hends =>
    apply ahead_put_lt
    rw [ahead_between hpc hstatus]
    exact Nat.succ_pos _
  | admitted buf rest hpc htodo hz hcheck =>
    have htodo' : (w.call t).progress.todo = buf :: rest := htodo
    apply ahead_put_lt
    rw [ahead_between hpc hstatus, htodo', segmentsSteps_cons]
    change segmentsSteps rest + buf.length + 3 < _
    omega
  | locked buf rest hpc hlock =>
    apply ahead_put_lt
    simp only [Copier.ahead, hpc]
    omega
  | byte buf rest i hpc hi r hr =>
    apply ahead_put_lt
    simp only [Copier.ahead, hpc, hr, length_copyByte]
    omega
  | unlocked buf rest i hpc hi =>
    apply ahead_put_lt
    rw [ahead_between rfl rfl]
    simp only [Copier.ahead, hpc, Progress.copied]
    omega

theorem copies_progress {w : Copies bios} (h : w.Sound) (hstuck : ∀ t, copyStep w t = none)
    (t : Fin bios.length) : (w.calls t).status.isSome := by
  by_contra hne
  have hstatus : (w.calls t).status = none := by simpa using hne
  obtain ⟨-, u, hlock⟩ := copyStep_none (hstuck t) hstatus
  rcases h.lock_cases with hfree | ⟨u', buf, rest, i, hheld, hpc⟩
  · rw [hfree] at hlock
    cases hlock
  · -- the holder copies, and nothing keeps it from that
    have hg := h.good u'
    rw [Copier.Good, hpc] at hg
    obtain ⟨⟨buf', rest', hwaiting⟩, -⟩ := copyStep_none (hstuck u') hg.1
    rw [hpc] at hwaiting
    cases hwaiting

/-- Every interleaving of the bytes is one of rounds, a state in which nobody can go on has only
calls that have returned, and such a state comes after so many steps at the latest. -/
theorem copies_refine (priv₀ : RamPriv) (bios : List Bio) (schedule : List (Fin bios.length))
    (w : Copies bios) (hr : run copyStep (Copies.start priv₀ bios) schedule = some w) :
    (∃ rounds, run flightStep (InFlight.start priv₀ bios) rounds = some w.settled) ∧
    (w.lock = none → w.settled = ⟨w.priv, w.calls⟩) ∧
    ((∀ t, copyStep w t = none) → ∀ t, (w.calls t).status.isSome) ∧
    schedule.length ≤ ∑ t, (bios.get t).steps := by
  have hstart := start_sound priv₀ bios
  obtain ⟨hsound, rounds, hrounds, -⟩ := (copies_simulate bios).run hstart hr
  refine ⟨⟨rounds, hrounds⟩, settled_free, copies_progress hsound, ?_⟩
  have hbound := length_run_le Copies.ahead
    (fun w t w' h hs => ⟨(copyStep_sound h hs).1, copyStep_ahead hs⟩) hstart hr
  exact Nat.le_trans (Nat.le_add_right _ _) hbound

/-- One bio writes two bytes and another one reads them. -/
theorem copies_refine_two_bios :
    let disk : RamPriv := .kzalloc 4 (by decide) fun _ => 0
    let bios : List Bio := [⟨.write, 1, [[7, 8]]⟩, ⟨.read, 1, [[0, 0]]⟩]
    let writer : Fin bios.length := ⟨0, by decide⟩
    let reader : Fin bios.length := ⟨1, by decide⟩
    let schedule := [writer, reader, writer, writer, writer, writer, reader, reader, reader]
    ∃ w, run copyStep (Copies.start disk bios) schedule = some w ∧
      (∃ rounds, run flightStep (InFlight.start disk bios) rounds = some w.settled) ∧
      (w.lock = none → w.settled = ⟨w.priv, w.calls⟩) ∧
      ((∀ t, copyStep w t = none) → ∀ t, (w.calls t).status.isSome) ∧
      schedule.length ≤ ∑ t, (bios.get t).steps := by
  intro disk bios writer reader schedule
  exact ⟨_, rfl, copies_refine disk bios schedule _ rfl⟩

end LinuxDriverFramework.NvBlock
