import LinuxDriverFramework.Foundations.Runs
import LinuxDriverFramework.NvBlock.RamHistory
import Mathlib.Logic.Function.Basic

/-! # Bios in flight at once

Any number of `ram_submit_bio` calls run at the same time. The lock is held for the copy of one
segment, so these copies are the atomic steps.

* `Progress`: how far a call has come, `ramRound` one round of its loop.
* `ramRounds_alone`: without interruption the rounds are `ramLoop`.
* `InFlight`, `flightStep`: all calls on one disk.
* `Whole`: a value that one sector may have: its first content, or what one write bio carries.
* `sectors_whole`: no interleaving tears a sector. -/

namespace LinuxDriverFramework.NvBlock
open Foundations
set_option autoImplicit false

/-! ## One call in atomic steps -/

/-- The state of a call: `iter.bi_sector`, the segments ahead and behind, and the status once it
has returned. -/
structure Progress where
  sector : ℕ
  todo : List (List UInt8)
  finished : List (List UInt8)
  status : Option BlkStatus

def Bio.begin (b : Bio) : Progress := ⟨b.sector, b.segs, [], none⟩

def Progress.return (p : Progress) (status : BlkStatus) : Progress :=
  { p with status := some status }

def ramRound (priv : RamPriv) (dir : BioDir) (p : Progress) : RamPriv × Progress :=
  match p.todo with
  | [] => (priv, p.return .ok)
  | buf :: rest =>
    if (buf :: rest).flatten.length = 0 then (priv, p.return .ok)
    else
      match ramSegment priv dir p.sector buf with
      | none => (priv, p.return .ioerr)
      | some (priv', buf') =>
        (priv', ⟨nextSector p.sector buf.length, rest, p.finished ++ [buf'], none⟩)

/-- The rounds of a call that has the disk to itself, up to `n` of them. -/
def ramRounds (dir : BioDir) : ℕ → RamPriv → Progress → RamPriv × Progress
  | 0, priv, p => (priv, p)
  | n + 1, priv, p =>
    if p.status.isSome then (priv, p)
    else
      let r := ramRound priv dir p
      ramRounds dir n r.1 r.2

theorem ramRounds_succ (dir : BioDir) (n : ℕ) (priv : RamPriv) {p : Progress}
    (h : p.status = none) :
    ramRounds dir (n + 1) priv p =
      ramRounds dir n (ramRound priv dir p).1 (ramRound priv dir p).2 := by
  have hrunning : ¬ p.status.isSome = true := by
    rw [h]
    exact Bool.false_ne_true
  rw [ramRounds, if_neg hrunning]

theorem ramRounds_returned (dir : BioDir) (n : ℕ) (priv : RamPriv) {p : Progress}
    {status : BlkStatus} (h : p.status = some status) : ramRounds dir n priv p = (priv, p) := by
  cases n with
  | zero => rfl
  | succ n =>
    rw [ramRounds, h]
    rfl

/-- Its rounds do what the loop does. -/
theorem ramRounds_alone (dir : BioDir) (priv : RamPriv) (p : Progress) (hp : p.status = none) :
    let r := ramRounds dir (p.todo.length + 1) priv p
    let loop := ramLoop priv dir p.sector p.todo
    r.1 = loop.priv ∧ r.2.status = some loop.status ∧
      r.2.finished ++ r.2.todo = p.finished ++ loop.segs := by
  obtain ⟨sector, todo, finished, status⟩ := p
  obtain rfl : status = none := hp
  induction todo generalizing priv sector finished with
  | nil => exact ⟨rfl, rfl, rfl⟩
  | cons buf rest ih =>
    by_cases hz : (buf :: rest).flatten.length = 0
    · have hround : ramRound priv dir ⟨sector, buf :: rest, finished, none⟩ =
          (priv, ⟨sector, buf :: rest, finished, some .ok⟩) := by
        simp only [ramRound, if_pos hz]
        rfl
      rw [List.length_cons, ramRounds_succ _ _ _ rfl, hround, ramRounds_returned _ _ _ rfl, ramLoop,
        if_pos hz]
      exact ⟨rfl, rfl, rfl⟩
    · cases hseg : ramSegment priv dir sector buf with
      | none =>
        have hround : ramRound priv dir ⟨sector, buf :: rest, finished, none⟩ =
            (priv, ⟨sector, buf :: rest, finished, some .ioerr⟩) := by
          simp only [ramRound, if_neg hz, hseg]
          rfl
        rw [List.length_cons, ramRounds_succ _ _ _ rfl, hround, ramRounds_returned _ _ _ rfl,
          ramLoop, if_neg hz, hseg]
        exact ⟨rfl, rfl, rfl⟩
      | some out =>
        have hround : ramRound priv dir ⟨sector, buf :: rest, finished, none⟩ =
            (out.1, ⟨nextSector sector buf.length, rest, finished ++ [out.2], none⟩) := by
          simp only [ramRound, if_neg hz, hseg]
        rw [List.length_cons, ramRounds_succ _ _ _ rfl, hround, ramLoop_cons hz hseg]
        obtain ⟨hpriv, hstatus, hsegs⟩ :=
          ih out.1 (nextSector sector buf.length) (finished ++ [out.2])
        refine ⟨hpriv, hstatus, hsegs.trans ?_⟩
        rw [List.append_assoc]
        rfl

/-! ## All calls -/

structure InFlight (bios : List Bio) where
  priv : RamPriv
  progress : Fin bios.length → Progress

def InFlight.start (priv : RamPriv) (bios : List Bio) : InFlight bios :=
  ⟨priv, fun i => (bios.get i).begin⟩

def flightStep {bios : List Bio} (w : InFlight bios) (i : Fin bios.length) : Option (InFlight bios) :=
  if (w.progress i).status.isSome then none
  else
    let r := ramRound w.priv (bios.get i).dir (w.progress i)
    some ⟨r.1, Function.update w.progress i r.2⟩

/-! ## Whole sectors -/

def Bio.CoversSector (b : Bio) (s : ℕ) : Prop :=
  b.dir = .write ∧ b.sector ≤ s ∧ s < b.sector + b.payload.length / ramBlockSize

/-- The value is the first content of the sector, or all that one write bio carries for it. -/
def Whole (priv₀ : RamPriv) (bios : List Bio) (s : ℕ) (value : List UInt8) : Prop :=
  value = blockAt ramBlockSize priv₀.data s ∨
    ∃ b ∈ bios, b.CoversSector s ∧ value = block ramBlockSize b.payload (s - b.sector)

/-- How far a bio has come: what is behind it and what is ahead of it make up its data. It ends
successfully, and when nothing is left. -/
structure Progress.Sound (b : Bio) (p : Progress) : Prop where
  aligned : ∀ seg ∈ p.todo, ramBlockSize ∣ seg.length
  position : ∃ m, p.finished.flatten.length = m * ramBlockSize ∧ p.sector = b.sector + m
  length : p.finished.flatten.length + p.todo.flatten.length = b.payload.length
  data : b.dir = .write → p.finished.flatten ++ p.todo.flatten = b.payload
  ended : ∀ status, p.status = some status → status = .ok ∧ p.todo.flatten.length = 0

def Progress.Delivered (priv₀ : RamPriv) (bios : List Bio) (b : Bio) (p : Progress) : Prop :=
  b.dir = .read → ∀ k < p.finished.flatten.length / ramBlockSize,
    Whole priv₀ bios (b.sector + k) (block ramBlockSize p.finished.flatten k)

structure Invariant (priv₀ : RamPriv) {bios : List Bio} (w : InFlight bios) : Prop where
  sectors : w.priv.sectors = priv₀.sectors
  disk : ∀ s < priv₀.sectors, Whole priv₀ bios s (blockAt ramBlockSize w.priv.data s)
  sound : ∀ i, (w.progress i).Sound (bios.get i)
  delivered : ∀ i, (w.progress i).Delivered priv₀ bios (bios.get i)

section Round

variable {priv₀ priv : RamPriv} {bios : List Bio} {b : Bio} {p : Progress} {buf : List UInt8}
  {rest : List (List UInt8)}

theorem sound_begin (h : b.Fits priv.sectors) : b.begin.Sound b where
  aligned := h.aligned
  position := ⟨0, rfl, rfl⟩
  length := Nat.zero_add _
  data := fun _ => rfl
  ended := fun _ hended => by cases hended

theorem delivered_begin : b.begin.Delivered priv₀ bios b := fun _ k hk => by
  have hnone : b.begin.finished.flatten.length / ramBlockSize = 0 := Nat.zero_div _
  omega

/-- The segment that is next, with its place on the disk and in the bio. -/
theorem Progress.Sound.next (hs : p.Sound b) (hb : b.Fits priv.sectors)
    (htodo : p.todo = buf :: rest) :
    ∃ m n, p.finished.flatten.length = m * ramBlockSize ∧ buf.length = n * ramBlockSize ∧
      p.sector = b.sector + m ∧ p.sector + n ≤ priv.sectors ∧
      m + n ≤ b.payload.length / ramBlockSize := by
  obtain ⟨m, hm, hsector⟩ := hs.position
  have haligned := hs.aligned
  have hlength := hs.length
  rw [htodo] at haligned hlength
  obtain ⟨hbuf, hrest⟩ := List.forall_mem_cons.mp haligned
  obtain ⟨n, hn⟩ := hbuf
  obtain ⟨k, hk⟩ := flatten_sectors hrest
  rw [Nat.mul_comm] at hn
  rw [List.flatten_cons, List.length_append, hm, hn, hk, ← Nat.add_mul, ← Nat.add_mul] at hlength
  have hdiv : b.payload.length / ramBlockSize = m + (n + k) := by
    rw [← hlength]
    exact Nat.mul_div_cancel _ (by decide)
  have hinside := hb.inside
  rw [hdiv] at hinside
  exact ⟨m, n, hm, hn, hsector, by omega, by omega⟩

/-- The next segment of a write bio is what the bio carries for the sectors it goes to. -/
theorem Progress.Sound.block_next (hs : p.Sound b) (hdir : b.dir = .write)
    (htodo : p.todo = buf :: rest) {m n k : ℕ}
    (hm : p.finished.flatten.length = m * ramBlockSize) (hn : buf.length = n * ramBlockSize)
    (hk : k < n) : block ramBlockSize b.payload (m + k) = block ramBlockSize buf k := by
  have hdata := hs.data hdir
  rw [htodo, List.flatten_cons] at hdata
  rw [← hdata, block_append_right ramBlockSize hm, block_append_left ramBlockSize hn hk]

theorem Progress.Sound.copied (hs : p.Sound b) (htodo : p.todo = buf :: rest) {m n offset : ℕ}
    (hm : p.finished.flatten.length = m * ramBlockSize) (hn : buf.length = n * ramBlockSize)
    (hsector : p.sector = b.sector + m)
    (hnext : nextSector p.sector buf.length = p.sector + n) :
    (Progress.mk (nextSector p.sector buf.length) rest
      (p.finished ++ [(copySegment priv b.dir offset buf).2]) none).Sound b := by
  have hflat : (p.finished ++ [(copySegment priv b.dir offset buf).2]).flatten =
      p.finished.flatten ++ (copySegment priv b.dir offset buf).2 := by
    rw [List.flatten_append, List.flatten_singleton]
  have hlen : (p.finished ++ [(copySegment priv b.dir offset buf).2]).flatten.length =
      p.finished.flatten.length + buf.length := by
    rw [hflat, List.length_append, length_copySegment]
  constructor
  case aligned =>
    intro seg hseg
    apply hs.aligned
    rw [htodo]
    exact List.mem_cons_of_mem _ hseg
  case position =>
    refine ⟨m + n, ?_, ?_⟩
    · rw [hlen, hm, hn, Nat.add_mul]
    · rw [hnext, hsector, Nat.add_assoc]
  case length =>
    have hlength := hs.length
    rw [htodo, List.flatten_cons, List.length_append] at hlength
    rw [hlen, Nat.add_assoc]
    exact hlength
  case data =>
    intro hdir
    have hdata := hs.data hdir
    rw [htodo, List.flatten_cons, ← List.append_assoc] at hdata
    rw [hflat, hdir]
    exact hdata
  case ended => intro status hended; cases hended

theorem whole_copy (hdisk : ∀ s < priv.sectors, Whole priv₀ bios s (blockAt ramBlockSize priv.data s))
    (hmem : b ∈ bios) (hs : p.Sound b) (htodo : p.todo = buf :: rest) {m n : ℕ}
    (hm : p.finished.flatten.length = m * ramBlockSize) (hn : buf.length = n * ramBlockSize)
    (hsector : p.sector = b.sector + m) (hend : m + n ≤ b.payload.length / ramBlockSize) {s : ℕ}
    (hlt : s < priv.sectors) :
    Whole priv₀ bios s
      (blockAt ramBlockSize (copySegment priv b.dir (p.sector * ramBlockSize) buf).1.data s) := by
  cases hdir : b.dir with
  | read => exact hdisk s hlt
  | write =>
    show Whole priv₀ bios s
      (blockAt ramBlockSize (store priv.data (p.sector * ramBlockSize) buf) s)
    rw [blockAt_store priv.data buf ramBlockSize hn]
    by_cases hin : p.sector ≤ s ∧ s < p.sector + n
    · rw [if_pos hin]
      refine .inr ⟨b, hmem, ⟨hdir, by omega, by omega⟩, ?_⟩
      have hk : s - b.sector = m + (s - p.sector) := by omega
      rw [hk, hs.block_next hdir htodo hm hn (by omega)]
    · rw [if_neg hin]
      exact hdisk s hlt

theorem delivered_copy
    (hdisk : ∀ s < priv.sectors, Whole priv₀ bios s (blockAt ramBlockSize priv.data s))
    (hd : p.Delivered priv₀ bios b) {m n : ℕ}
    (hm : p.finished.flatten.length = m * ramBlockSize) (hn : buf.length = n * ramBlockSize)
    (hsector : p.sector = b.sector + m) (hinside : p.sector + n ≤ priv.sectors)
    {p' : Progress} (hp' : p'.finished = p.finished ++
      [(copySegment priv b.dir (p.sector * ramBlockSize) buf).2]) :
    p'.Delivered priv₀ bios b := by
  intro hdir k hk
  rw [hp', hdir, List.flatten_append, List.flatten_singleton] at hk ⊢
  change k < (_ ++ fetch priv.data (p.sector * ramBlockSize) buf.length).length / _ at hk
  show Whole priv₀ bios (b.sector + k)
    (block ramBlockSize (_ ++ fetch priv.data (p.sector * ramBlockSize) buf.length) k)
  rw [List.length_append, length_fetch, hm, hn, ← Nat.add_mul,
    Nat.mul_div_cancel _ (by decide)] at hk
  by_cases hold : k < m
  · have hk' : k < p.finished.flatten.length / ramBlockSize := by
      rw [hm, Nat.mul_div_cancel _ (by decide)]
      exact hold
    rw [block_append_left ramBlockSize hm hold]
    exact hd hdir k hk'
  · -- a sector of the new segment is read as it stands on the disk
    obtain ⟨j, rfl⟩ : ∃ j, k = m + j := ⟨k - m, by omega⟩
    have hj : j < n := by omega
    rw [block_append_right ramBlockSize hm, hn, block_fetch priv.data ramBlockSize hj,
      ← Nat.add_assoc, ← hsector]
    exact hdisk _ (by omega)

end Round

/-! ## Any interleaving -/

section Flight

variable {priv₀ : RamPriv} {bios : List Bio}

theorem invariant_start (h : ∀ b ∈ bios, b.Fits priv₀.sectors) :
    Invariant priv₀ (InFlight.start priv₀ bios) where
  sectors := rfl
  disk := fun _ _ => .inl rfl
  sound := fun i => sound_begin (h _ (List.get_mem bios i))
  delivered := fun _ => delivered_begin

theorem Invariant.return {w : InFlight bios} (hw : Invariant priv₀ w) (i : Fin bios.length)
    (hleft : (w.progress i).todo.flatten.length = 0) :
    Invariant priv₀ ⟨w.priv, Function.update w.progress i ((w.progress i).return .ok)⟩ where
  sectors := hw.sectors
  disk := hw.disk
  sound := by
    have hs := hw.sound i
    exact (Function.forall_update_iff w.progress fun j q => q.Sound (bios.get j)).mpr
      ⟨⟨hs.aligned, hs.position, hs.length, hs.data, fun _ hended =>
        ⟨(Option.some.inj hended).symm, hleft⟩⟩, fun j _ => hw.sound j⟩
  delivered :=
    (Function.forall_update_iff w.progress fun j q => q.Delivered priv₀ bios (bios.get j)).mpr
      ⟨hw.delivered i, fun j _ => hw.delivered j⟩

theorem Invariant.copy {w : InFlight bios} (hw : Invariant priv₀ w)
    (h : ∀ b ∈ bios, b.Fits priv₀.sectors) (i : Fin bios.length) {buf : List UInt8}
    {rest : List (List UInt8)} (htodo : (w.progress i).todo = buf :: rest) :
    let p := w.progress i
    ∃ out, ramSegment w.priv (bios.get i).dir p.sector buf = some out ∧
      Invariant priv₀ ⟨out.1, Function.update w.progress i
        ⟨nextSector p.sector buf.length, rest, p.finished ++ [out.2], none⟩⟩ := by
  intro p
  have hmem := List.get_mem bios i
  have hfit : (bios.get i).Fits w.priv.sectors := by
    rw [hw.sectors]
    exact h _ hmem
  have hs : p.Sound (bios.get i) := hw.sound i
  obtain ⟨m, n, hm, hn, hsector, hinside, hend⟩ := hs.next hfit htodo
  have hdisk : ∀ s < w.priv.sectors, Whole priv₀ bios s (blockAt ramBlockSize w.priv.data s) := by
    rw [hw.sectors]
    exact hw.disk
  refine ⟨_, ramSegment_inside hn hinside _, ?_⟩
  constructor
  case sectors => rw [copySegment_sectors, hw.sectors]
  case disk =>
    intro s hlt
    rw [← hw.sectors] at hlt
    exact whole_copy hdisk hmem hs htodo hm hn hsector hend hlt
  case sound =>
    apply (Function.forall_update_iff w.progress fun j q => q.Sound (bios.get j)).mpr
    exact ⟨hs.copied htodo hm hn hsector (nextSector_inside hn hinside), fun j _ => hw.sound j⟩
  case delivered =>
    apply (Function.forall_update_iff w.progress fun j q => q.Delivered priv₀ bios (bios.get j)).mpr
    exact ⟨delivered_copy hdisk (hw.delivered i) hm hn hsector hinside rfl,
      fun j _ => hw.delivered j⟩

theorem flightStep_keeps (h : ∀ b ∈ bios, b.Fits priv₀.sectors) {w w' : InFlight bios}
    {i : Fin bios.length} (hw : Invariant priv₀ w) (hstep : flightStep w i = some w') :
    Invariant priv₀ w' := by
  rw [flightStep] at hstep
  by_cases hdone : (w.progress i).status.isSome
  · rw [if_pos hdone] at hstep
    cases hstep
  · rw [if_neg hdone] at hstep
    obtain rfl := Option.some.inj hstep
    cases htodo : (w.progress i).todo with
    | nil =>
      simp only [ramRound, htodo]
      exact hw.return i (by rw [htodo]; rfl)
    | cons buf rest =>
      by_cases hz : (buf :: rest).flatten.length = 0
      · simp only [ramRound, htodo, if_pos hz]
        exact hw.return i (by rw [htodo]; exact hz)
      · obtain ⟨out, hseg, hout⟩ := hw.copy h i htodo
        simp only [ramRound, htodo, if_neg hz, hseg]
        exact hout

theorem Progress.Sound.all_finished {b : Bio} {p : Progress} (h : p.Sound b) {status : BlkStatus}
    (hended : p.status = some status) :
    status = .ok ∧ p.finished.flatten.length = b.payload.length := by
  obtain ⟨hok, hleft⟩ := h.ended status hended
  have hlength := h.length
  exact ⟨hok, by omega⟩

/-- No interleaving tears a sector, on the disk or in the data of a read bio, and a sector that no
write bio covers keeps its content. A bio that has returned has succeeded, and all of its data has
been copied. -/
theorem sectors_whole (priv₀ : RamPriv) (bios : List Bio) (h : ∀ b ∈ bios, b.Fits priv₀.sectors)
    (schedule : List (Fin bios.length)) (w : InFlight bios)
    (hr : run flightStep (InFlight.start priv₀ bios) schedule = some w) :
    (∀ s < priv₀.sectors, Whole priv₀ bios s (blockAt ramBlockSize w.priv.data s)) ∧
    (∀ i, (bios.get i).dir = .read →
      ∀ k < (w.progress i).finished.flatten.length / ramBlockSize,
        Whole priv₀ bios ((bios.get i).sector + k)
          (block ramBlockSize (w.progress i).finished.flatten k)) ∧
    (∀ i status, (w.progress i).status = some status → status = .ok ∧
      (w.progress i).finished.flatten.length = (bios.get i).payload.length) ∧
    ∀ s < priv₀.sectors, (∀ b ∈ bios, ¬ b.CoversSector s) →
      blockAt ramBlockSize w.priv.data s = blockAt ramBlockSize priv₀.data s := by
  have hw : Invariant priv₀ w :=
    run_invariant (fun _ _ _ hw hstep => flightStep_keeps h hw hstep) (invariant_start h)
      ⟨schedule, hr⟩
  refine ⟨hw.disk, hw.delivered, fun i _ hended => (hw.sound i).all_finished hended,
    fun s hlt hfree => ?_⟩
  rcases hw.disk s hlt with hfirst | ⟨b, hmem, hcovers, -⟩
  · exact hfirst
  · exact absurd hcovers (hfree b hmem)

end Flight

set_option maxRecDepth 4000 in
/-- A read bio has copied its only segment and returned, then a write bio has copied its first. -/
theorem sectors_whole_two_bios :
    let disk : RamPriv := .kzalloc 4 (by decide) fun _ => 0
    let bios : List Bio := [writeTwo, readSecond]
    ∃ w, run flightStep (InFlight.start disk bios) [1, 1, 0] = some w ∧
      (∀ s < 4, Whole disk bios s (blockAt ramBlockSize w.priv.data s)) ∧
      (∀ i, (bios.get i).dir = .read →
        ∀ k < (w.progress i).finished.flatten.length / ramBlockSize,
          Whole disk bios ((bios.get i).sector + k)
            (block ramBlockSize (w.progress i).finished.flatten k)) ∧
      (∀ i status, (w.progress i).status = some status → status = .ok ∧
        (w.progress i).finished.flatten.length = (bios.get i).payload.length) ∧
      ∀ s < 4, (∀ b ∈ bios, ¬ b.CoversSector s) →
        blockAt ramBlockSize w.priv.data s = blockAt ramBlockSize disk.data s := by
  intro disk bios
  refine ⟨_, rfl, sectors_whole disk bios ?_ [1, 1, 0] _ rfl⟩
  intro b hb
  rcases List.mem_pair.mp hb with rfl | rfl
  · exact fits_of_sectors .write 1 4 [7, 8] (by decide)
  · exact fits_of_sectors .read 2 4 [0] (by decide)

end LinuxDriverFramework.NvBlock
