import LinuxDriverFramework.NvBlock.RamCopies

/-! # Sectors while a copy is under way

With bios of whole sectors inside the disk, a sector is torn only while the holder of the lock is in
the middle of it.

* `Copies.Torn`: the sector that a write bio has begun and not finished.
* `Untorn`, `copyStep_untorn`: the invariant.
* `torn_under_the_copy`. -/

namespace LinuxDriverFramework.NvBlock
open Foundations
set_option autoImplicit false

variable {priv₀ : RamPriv} {bios : List Bio}

/-- The holder of the lock is writing to the sector and has bytes of it on either side. -/
def Copies.Torn (w : Copies bios) (s : ℕ) : Prop :=
  ∃ t buf rest i, w.lock = some t ∧ (w.call t).pc = .copying buf rest i ∧
    (bios.get t).dir = .write ∧ ¬ i % ramBlockSize = 0 ∧
      s = (w.calls t).sector + i / ramBlockSize

/-- What is known of a call after its last full round. -/
structure Copies.Knows (priv₀ : RamPriv) (w : Copies bios) (t : Fin bios.length) : Prop where
  sound : (w.calls t).Sound (bios.get t)
  delivered : (w.calls t).Delivered priv₀ bios (bios.get t)
  answered : ∀ status, (w.calls t).status = some status → status = .ok

structure Untorn (priv₀ : RamPriv) (w : Copies bios) : Prop where
  lock : w.Sound
  settled : Invariant priv₀ w.settled
  disk : ∀ s < priv₀.sectors, ¬ w.Torn s → Whole priv₀ bios s (blockAt ramBlockSize w.priv.data s)
  knows : ∀ t, w.Knows priv₀ t

theorem start_untorn (h : ∀ b ∈ bios, b.Fits priv₀.sectors) :
    Untorn priv₀ (Copies.start priv₀ bios) where
  lock := start_sound priv₀ bios
  settled := invariant_start h
  disk := fun _ _ _ => .inl rfl
  knows := fun t =>
    ⟨sound_begin (h _ (List.get_mem bios t)), delivered_begin, (fun _ hs => by cases hs)⟩

section Step

variable {w w' : Copies bios} {t : Fin bios.length}

theorem Untorn.sectors (h : Untorn priv₀ w) : w.priv.sectors = priv₀.sectors := by
  rw [← settled_sectors w]
  exact h.settled.sectors

theorem Untorn.fits (h : Untorn priv₀ w) (hb : ∀ b ∈ bios, b.Fits priv₀.sectors)
    (t : Fin bios.length) : (bios.get t).Fits w.priv.sectors := by
  rw [h.sectors]
  exact hb _ (List.get_mem bios t)

/-- A bio inside the disk passes every check. -/
theorem Untorn.check_passes (h : Untorn priv₀ w) (hb : ∀ b ∈ bios, b.Fits priv₀.sectors)
    {buf : List UInt8} {rest : List (List UInt8)} (htodo : (w.calls t).todo = buf :: rest) :
    ¬ (w.calls t).CheckFails w.priv.sectors buf := by
  obtain ⟨m, n, -, hn, -, hinside, -⟩ := (h.knows t).sound.next (h.fits hb t) htodo
  have hnext : ((w.calls t).sector + (buf.length >>> 9)) % wordSize = (w.calls t).sector + n :=
    nextSector_inside hn hinside
  rw [Progress.CheckFails, hnext]
  omega

/-- The copy starts at its sector. -/
theorem Untorn.offset_eq (h : Untorn priv₀ w) (hb : ∀ b ∈ bios, b.Fits priv₀.sectors)
    {buf : List UInt8} {rest : List (List UInt8)} (htodo : (w.calls t).todo = buf :: rest) :
    (w.calls t).offset = (w.calls t).sector * ramBlockSize := by
  obtain ⟨m, n, -, -, -, hinside, -⟩ := (h.knows t).sound.next (h.fits hb t) htodo
  have hsector : (w.calls t).sector ≤ w.priv.sectors := by omega
  exact Nat.mod_eq_of_lt (sector_lt w.priv hsector).2

theorem Untorn.settled_step (h : Untorn priv₀ w) (hb : ∀ b ∈ bios, b.Fits priv₀.sectors)
    (hs : copyStep w t = some w') : Invariant priv₀ w'.settled := by
  obtain ⟨rounds, hrounds, -⟩ := (copies_simulate bios).matched w t w' h.lock hs
  exact run_invariant (fun _ _ _ hw hstep => flightStep_keeps hb hw hstep) h.settled
    ⟨rounds, hrounds⟩

/-- What a call without the lock knows is part of the settled state. -/
theorem knows_of_settled (hlock : w.Sound) (h : Invariant priv₀ w.settled)
    (ht : w.lock ≠ some t)
    (hanswered : ∀ status, (w.calls t).status = some status → status = .ok) :
    w.Knows priv₀ t where
  sound := by
    rw [← settled_progress hlock ht]
    exact h.sound t
  delivered := by
    rw [← settled_progress hlock ht]
    exact h.delivered t
  answered := hanswered

theorem Copies.Knows.congr (h : w.Knows priv₀ t) (hcalls : w'.calls t = w.calls t) :
    w'.Knows priv₀ t where
  sound := hcalls ▸ h.sound
  delivered := hcalls ▸ h.delivered
  answered := hcalls ▸ h.answered

/-- A call without the lock tears nothing. -/
theorem torn_put (ht : w.lock ≠ some t) (c : Copier) {s : ℕ} (h : w.Torn s) :
    (w.put t c).Torn s := by
  obtain ⟨u, buf, rest, i, hlock, hpc, hdir, hmid, hs⟩ := h
  have hne : u ≠ t := fun he => ht (he ▸ hlock)
  have hcall : (w.put t c).call u = w.call u := w.put_other hne c
  refine ⟨u, buf, rest, i, hlock, ?_, hdir, hmid, ?_⟩
  · rw [hcall]
    exact hpc
  · rw [Copies.calls, hcall]
    exact hs

theorem not_torn_of_free (h : w.lock = none) (s : ℕ) : ¬ w.Torn s := by
  rintro ⟨u, -, -, -, hlock, -⟩
  rw [h] at hlock
  cases hlock

theorem not_torn_of_read (h : w.lock = some t) (hdir : (bios.get t).dir = .read) (s : ℕ) :
    ¬ w.Torn s := by
  rintro ⟨u, -, -, -, hlock, -, hwrite, -⟩
  rw [h] at hlock
  obtain rfl := Option.some.inj hlock
  rw [hdir] at hwrite
  cases hwrite

/-- Only the sector under the cursor of the copy is torn. -/
theorem torn_eq (hlock : w.lock = some t) {buf : List UInt8} {rest : List (List UInt8)} {i : ℕ}
    (hpc : (w.call t).pc = .copying buf rest i) {s : ℕ} (h : w.Torn s) :
    s = (w.calls t).sector + i / ramBlockSize := by
  obtain ⟨u, buf', rest', i', hheld, hpc', -, -, hs⟩ := h
  rw [hlock] at hheld
  obtain rfl := Option.some.inj hheld
  rw [hpc] at hpc'
  obtain ⟨-, -, rfl⟩ := CopyPc.copying.inj hpc'
  exact hs

theorem cursor_behind (start : ℕ) {i : ℕ} (h : (i + 1) % ramBlockSize = 0) :
    (start + i / ramBlockSize) * ramBlockSize + ramBlockSize ≤
      start * ramBlockSize + (i + 1) := by
  unfold ramBlockSize at *
  omega

theorem cursor_stays {i : ℕ} (h : ¬ (i + 1) % ramBlockSize = 0) :
    i / ramBlockSize = (i + 1) / ramBlockSize := by
  unfold ramBlockSize at *
  omega

theorem cursor_elsewhere {start i s : ℕ} (h : s ≠ start + i / ramBlockSize) :
    start * ramBlockSize + i < s * ramBlockSize ∨
      s * ramBlockSize + ramBlockSize ≤ start * ramBlockSize + i := by
  unfold ramBlockSize at *
  omega

/-- The next byte of a write: a sector is finished, or it is torn, or nothing happens to it. -/
theorem Untorn.disk_byte (h : Untorn priv₀ w) (hb : ∀ b ∈ bios, b.Fits priv₀.sectors)
    {buf : List UInt8} {rest : List (List UInt8)} {i : ℕ} (hlock : w.lock = some t)
    (hpc : (w.call t).pc = .copying buf rest i) (hdir : (bios.get t).dir = .write)
    {buf₀ : List UInt8} (htodo : (w.calls t).todo = buf₀ :: rest) {priv : RamPriv}
    {buf' : List UInt8}
    (hr : copyByte w.priv (bios.get t).dir (w.calls t).offset buf i = (priv, buf'))
    (hw' : w' = { w.put t ⟨w.calls t, .copying buf' rest (i + 1)⟩ with priv := priv })
    (hsettled : Invariant priv₀ w'.settled) {s : ℕ} (hs : s < priv₀.sectors)
    (hnot : ¬ w'.Torn s) : Whole priv₀ bios s (blockAt ramBlockSize priv.data s) := by
  have hoff := h.offset_eq hb htodo
  have hlock' : w'.lock = some t := by rw [hw', ← hlock]; rfl
  have hcall : w'.call t = ⟨w.calls t, .copying buf' rest (i + 1)⟩ := by
    rw [hw']
    exact w.put_self t _
  have hcalls : w'.calls t = w.calls t := by rw [Copies.calls, hcall]
  have hpc' : (w'.call t).pc = .copying buf' rest (i + 1) := by rw [hcall]
  have hpriv : w'.priv = priv := by rw [hw']
  by_cases hcursor : s = (w.calls t).sector + i / ramBlockSize
  · by_cases hmid : (i + 1) % ramBlockSize = 0
    · -- the last byte of the sector
      have hdisk := hsettled.disk s hs
      rw [settled_held hlock' hpc', hcalls, hpriv, hdir] at hdisk
      have hend : s * ramBlockSize + ramBlockSize ≤ (w.calls t).offset + (i + 1) := by
        rw [hoff, hcursor]
        exact cursor_behind _ hmid
      have hsame : blockAt ramBlockSize
          (copyRest priv .write (w.calls t).offset buf' (i + 1)).1.data s =
          blockAt ramBlockSize priv.data s :=
        fetch_store_apart _ _ _ (.inl hend)
      rw [← hsame]
      exact hdisk
    · refine absurd ⟨t, buf', rest, i + 1, hlock', hpc', hdir, hmid, ?_⟩ hnot
      rw [hcalls, hcursor, cursor_stays hmid]
  · have hold : ¬ w.Torn s := fun htorn => hcursor (torn_eq hlock hpc htorn)
    rw [hdir] at hr
    obtain ⟨rfl, -⟩ := Prod.mk.inj hr
    have hsame : blockAt ramBlockSize
        (Function.update w.priv.data ((w.calls t).offset + i) (buf.getD i 0)) s =
        blockAt ramBlockSize w.priv.data s := by
      apply blockAt_update
      rw [hoff]
      exact cursor_elsewhere hcursor
    change Whole priv₀ bios s (blockAt ramBlockSize
      (Function.update w.priv.data ((w.calls t).offset + i) (buf.getD i 0)) s)
    rw [hsame]
    exact h.disk s hs hold

theorem copyStep_untorn (hb : ∀ b ∈ bios, b.Fits priv₀.sectors) (h : Untorn priv₀ w)
    (hs : copyStep w t = some w') : Untorn priv₀ w' := by
  have hsound := (copyStep_sound h.lock hs).1
  have hsettled := h.settled_step hb hs
  obtain ⟨hstatus, hstep⟩ := copyStep_cases hs
  have hother : ∀ (c : Copier) (u : Fin bios.length), u ≠ t → (w.put t c).calls u = w.calls u :=
    fun c u hu => congrArg Copier.progress (w.put_other hu c)
  cases hstep with
  | returned status hpc hends =>
    have hfree := h.lock.not_held (t := t) (by rw [hpc]; rfl)
    refine ⟨hsound, hsettled, fun s hlt hnot => ?_, fun u => ?_⟩
    · exact h.disk s hlt fun htorn => hnot (torn_put hfree _ htorn)
    · by_cases hu : u = t
      · subst hu
        refine knows_of_settled hsound hsettled hfree fun st hst => ?_
        have hself := congrArg Copier.progress (w.put_self u ⟨(w.calls u).return status, .between⟩)
        rw [Copies.calls, hself] at hst
        obtain rfl : status = st := Option.some.inj hst
        rcases hends with ⟨rfl, -⟩ | ⟨-, buf, rest, htodo, -, hcheck⟩
        · rfl
        · exact absurd hcheck (h.check_passes hb htodo)
      · exact (h.knows u).congr (hother _ u hu)
  | admitted buf rest hpc htodo hz hcheck =>
    have hfree := h.lock.not_held (t := t) (by rw [hpc]; rfl)
    refine ⟨hsound, hsettled, fun s hlt hnot => ?_, fun u => ?_⟩
    · exact h.disk s hlt fun htorn => hnot (torn_put hfree _ htorn)
    · exact (h.knows u).congr (congrFun (w.calls_same t _) u)
  | locked buf rest hpc hlock =>
    refine ⟨hsound, hsettled, fun s hlt _ => ?_, fun u => ?_⟩
    · exact h.disk s hlt (not_torn_of_free hlock s)
    · exact (h.knows u).congr (congrFun (w.calls_same t _) u)
  | byte buf rest i hpc hi r hr =>
    have hlock := h.lock.held hpc
    have hg := h.lock.good t
    rw [Copier.Good, hpc] at hg
    obtain ⟨-, buf₀, htodo, -⟩ := hg
    refine ⟨hsound, hsettled, fun s hlt hnot => ?_, fun u => ?_⟩
    · cases hdir : (bios.get t).dir with
      | write => exact h.disk_byte hb hlock hpc hdir htodo hr.symm rfl hsettled hlt hnot
      | read =>
        have hdata : r.1 = w.priv := by rw [hr, hdir]; rfl
        change Whole priv₀ bios s (blockAt ramBlockSize r.1.data s)
        rw [hdata]
        exact h.disk s hlt (not_torn_of_read hlock hdir s)
    · exact (h.knows u).congr (congrFun (w.calls_same t _) u)
  | unlocked buf rest i hpc hi =>
    -- with the lock free the settled disk is the disk
    refine ⟨hsound, hsettled, fun s hlt _ => ?_, fun u => ?_⟩
    · have hdisk := hsettled.disk s hlt
      rw [settled_free (by rfl)] at hdisk
      exact hdisk
    · by_cases hu : u = t
      · subst hu
        refine knows_of_settled hsound hsettled (fun hn => by cases hn) fun st hst => ?_
        have hself := congrArg Copier.progress
          (w.put_self u ⟨(w.calls u).copied buf rest, .between⟩)
        cases (congrArg Progress.status hself).symm.trans hst
      · exact (h.knows u).congr (hother _ u hu)

end Step

/-- At most one sector is torn, every other one is whole, and so is every sector that a read bio has
got; no bio fails. -/
theorem torn_under_the_copy (priv₀ : RamPriv) (bios : List Bio)
    (h : ∀ b ∈ bios, b.Fits priv₀.sectors) (schedule : List (Fin bios.length)) (w : Copies bios)
    (hr : run copyStep (Copies.start priv₀ bios) schedule = some w) :
    (∀ s < priv₀.sectors, ¬ w.Torn s →
      Whole priv₀ bios s (blockAt ramBlockSize w.priv.data s)) ∧
    (∀ s s', w.Torn s → w.Torn s' → s = s') ∧
    (∀ t, (bios.get t).dir = .read →
      ∀ k < (w.calls t).finished.flatten.length / ramBlockSize,
        Whole priv₀ bios ((bios.get t).sector + k)
          (block ramBlockSize (w.calls t).finished.flatten k)) ∧
    ∀ t status, (w.calls t).status = some status → status = .ok := by
  have hw : Untorn priv₀ w :=
    run_invariant (fun _ _ _ hw hstep => copyStep_untorn h hw hstep) (start_untorn h)
      ⟨schedule, hr⟩
  refine ⟨hw.disk, fun s s' hs hs' => ?_, fun t => (hw.knows t).delivered,
    fun t => (hw.knows t).answered⟩
  obtain ⟨t, buf, rest, i, hlock, hpc, -, -, rfl⟩ := hs
  exact (torn_eq hlock hpc hs').symm

set_option maxRecDepth 8000 in
/-- A write bio has copied one byte, and a read bio has passed its check. -/
theorem torn_under_the_copy_two_bios :
    let disk : RamPriv := .kzalloc 4 (by decide) fun _ => 0
    let bios : List Bio := [writeTwo, readSecond]
    let writer : Fin bios.length := ⟨0, by decide⟩
    let reader : Fin bios.length := ⟨1, by decide⟩
    ∃ w, run copyStep (Copies.start disk bios) [writer, reader, writer, writer] = some w ∧
      (∀ s < disk.sectors, ¬ w.Torn s →
        Whole disk bios s (blockAt ramBlockSize w.priv.data s)) ∧
      (∀ s s', w.Torn s → w.Torn s' → s = s') ∧
      (∀ t, (bios.get t).dir = .read →
        ∀ k < (w.calls t).finished.flatten.length / ramBlockSize,
          Whole disk bios ((bios.get t).sector + k)
            (block ramBlockSize (w.calls t).finished.flatten k)) ∧
      ∀ t status, (w.calls t).status = some status → status = .ok := by
  intro disk bios writer reader
  refine ⟨_, rfl, torn_under_the_copy disk bios ?_ [writer, reader, writer, writer] _ rfl⟩
  intro b hb
  rcases List.mem_pair.mp hb with rfl | rfl
  · exact fits_of_sectors .write 1 4 [7, 8] (by decide)
  · exact fits_of_sectors .read 2 4 [0] (by decide)

end LinuxDriverFramework.NvBlock
