import LinuxDriverFramework.NvBlock.RamDisk
import Mathlib.Data.List.Forall2
import Mathlib.Data.List.Induction

/-! # Bios one after another

* `lastWritten`: the byte that the latest write bio of a history has put at an offset.
* `Served`: what the answer to one bio has to be.
* `SameRequest`: two bios that differ in their segments only.
* `Bio.Aligned`, `Bio.Inside`: segments of whole sectors, and what the block layer lets through,
  which looks at the size of the bio only.
* `ram_disk_serves`: the RAM disk serves every history, and the segments make no difference. -/

namespace LinuxDriverFramework.NvBlock
open Foundations
set_option autoImplicit false

def Bio.Covers (b : Bio) (i : ℕ) : Prop :=
  b.dir = .write ∧ b.offset ≤ i ∧ i < b.offset + b.payload.length

instance (b : Bio) (i : ℕ) : Decidable (b.Covers i) := inferInstanceAs (Decidable (_ ∧ _ ∧ _))

/-- The byte most recently written at offset `i`, 0 if there is none; the newest bio comes first. -/
def lastWritten (history : List Bio) (i : ℕ) : UInt8 :=
  match history.find? fun b => decide (b.Covers i) with
  | some b => b.payload.getD (i - b.offset) 0
  | none => 0

def diskAfter (priv : RamPriv) (bios : List Bio) : RamPriv :=
  bios.foldl (fun p b => (submitRam p b).priv) priv

def outcomes : RamPriv → List Bio → List (BlkStatus × List UInt8)
  | _, [] => []
  | priv, b :: bios =>
    let r := submitRam priv b
    (r.status, r.segs.flatten) :: outcomes r.priv bios

/-- The answer to `bio` on the disk `before`, after the bios of `history`. -/
structure Served (before : RamPriv) (history : List Bio) (bio : Bio) (r : BioResult RamPriv) :
    Prop where
  status : r.status = .ok
  read : bio.dir = .read →
    r.segs.flatten = fetch (lastWritten history.reverse) bio.offset bio.payload.length
  frame : ∀ i, ¬ bio.Covers i → r.priv.data i = before.data i

structure SameRequest (b b' : Bio) : Prop where
  dir : b.dir = b'.dir
  sector : b.sector = b'.sector
  length : b.payload.length = b'.payload.length
  data : b.dir = .write → b.payload = b'.payload

/-! ## One bio -/

theorem submitRam_inside (priv : RamPriv) {b : Bio} (h : b.Fits priv.sectors) :
    (submitRam priv b).status = .ok ∧
      ((submitRam priv b).priv, (submitRam priv b).segs.flatten) =
        copySegment priv b.dir b.offset b.payload :=
  ramLoop_inside b.dir h.aligned priv b.sector h.inside

theorem submitRam_priv (priv : RamPriv) {b : Bio} (h : b.Fits priv.sectors) :
    (submitRam priv b).priv = (copySegment priv b.dir b.offset b.payload).1 :=
  congrArg Prod.fst (submitRam_inside priv h).2

theorem submitRam_sectors (priv : RamPriv) {b : Bio} (h : b.Fits priv.sectors) :
    (submitRam priv b).priv.sectors = priv.sectors := by
  rw [submitRam_priv priv h, copySegment_sectors]

theorem copySegment_frame (priv : RamPriv) (b : Bio) {i : ℕ} (h : ¬ b.Covers i) :
    (copySegment priv b.dir b.offset b.payload).1.data i = priv.data i := by
  cases hdir : b.dir with
  | read => rfl
  | write =>
    apply store_outside
    by_contra hno
    exact h ⟨hdir, by omega, by omega⟩

theorem copySegment_covered (priv : RamPriv) (b : Bio) {i : ℕ} (h : b.Covers i) :
    (copySegment priv b.dir b.offset b.payload).1.data i = b.payload.getD (i - b.offset) 0 := by
  obtain ⟨hdir, hle, hlt⟩ := h
  obtain ⟨j, rfl⟩ : ∃ j, i = b.offset + j := ⟨i - b.offset, by omega⟩
  have hj : j < b.payload.length := by omega
  rw [hdir, Nat.add_sub_cancel_left, List.getD_eq_getElem _ _ hj]
  exact store_inside priv.data b.offset b.payload hj

theorem copySegment_sameRequest (priv : RamPriv) {b b' : Bio} (h : SameRequest b b') :
    copySegment priv b'.dir b'.offset b'.payload = copySegment priv b.dir b.offset b.payload := by
  have hoff : b'.offset = b.offset := by rw [Bio.offset, Bio.offset, h.sector]
  rw [← h.dir, hoff]
  cases hdir : b.dir with
  | read =>
    show (priv, fetch priv.data b.offset b'.payload.length) = _
    rw [← h.length]
    rfl
  | write => rw [h.data hdir]

/-! ## Histories -/

section History

variable {sectors : ℕ} {fits : sectors * ramBlockSize < wordSize} {beyond : ℕ → UInt8}

theorem diskAfter_concat (priv : RamPriv) (bios : List Bio) (b : Bio) :
    diskAfter priv (bios ++ [b]) = (submitRam (diskAfter priv bios) b).priv := by
  rw [diskAfter, List.foldl_append]
  rfl

theorem diskAfter_sectors (priv : RamPriv) {bios : List Bio}
    (h : ∀ b ∈ bios, b.Fits priv.sectors) : (diskAfter priv bios).sectors = priv.sectors := by
  induction bios using List.reverseRecOn with
  | nil => rfl
  | append_singleton bios b ih =>
    have hsectors := ih fun b' hb' => h b' (List.mem_append_left _ hb')
    have hb : b.Fits (diskAfter priv bios).sectors := by
      rw [hsectors]
      exact h b (List.mem_append_right _ (List.mem_singleton_self b))
    rw [diskAfter_concat, submitRam_sectors _ hb, hsectors]

theorem data_diskAfter {bios : List Bio} (h : ∀ b ∈ bios, b.Fits sectors) {i : ℕ}
    (hi : i < sectors * ramBlockSize) :
    (diskAfter (.kzalloc sectors fits beyond) bios).data i = lastWritten bios.reverse i := by
  induction bios using List.reverseRecOn with
  | nil => exact if_pos hi
  | append_singleton bios b ih =>
    have hbios : ∀ b' ∈ bios, b'.Fits sectors := fun b' hb' => h b' (List.mem_append_left _ hb')
    have hb : b.Fits (diskAfter (.kzalloc sectors fits beyond) bios).sectors := by
      rw [diskAfter_sectors _ hbios]
      exact h b (List.mem_append_right _ (List.mem_singleton_self b))
    rw [diskAfter_concat, submitRam_priv _ hb, List.reverse_append, List.reverse_singleton,
      lastWritten, List.singleton_append, List.find?_cons]
    by_cases hc : b.Covers i
    · rw [copySegment_covered _ b hc, decide_eq_true hc]
    · rw [copySegment_frame _ b hc, decide_eq_false hc]
      exact ih hbios

theorem Bio.Fits.end_le {b : Bio} (h : b.Fits sectors) :
    b.offset + b.payload.length ≤ sectors * ramBlockSize := by
  obtain ⟨n, hn⟩ := flatten_sectors h.aligned
  have hpayload : b.payload.length = n * ramBlockSize := hn
  have hinside := h.inside
  rw [hpayload, Nat.mul_div_cancel n (by decide)] at hinside
  rw [hpayload, Bio.offset, ← Nat.add_mul]
  exact Nat.mul_le_mul_right _ hinside

theorem served_bio {history : List Bio} (h : ∀ b ∈ history, b.Fits sectors) {bio : Bio}
    (hbio : bio.Fits sectors) :
    Served (diskAfter (.kzalloc sectors fits beyond) history) history bio
      (submitRam (diskAfter (.kzalloc sectors fits beyond) history) bio) := by
  have hb : bio.Fits (diskAfter (.kzalloc sectors fits beyond) history).sectors := by
    rw [diskAfter_sectors _ h]
    exact hbio
  obtain ⟨hstatus, hcopy⟩ := submitRam_inside _ hb
  refine ⟨hstatus, fun hdir => ?_, fun i hi => ?_⟩
  · have hsegs := congrArg Prod.snd hcopy
    rw [hdir] at hsegs
    refine hsegs.trans (fetch_congr _ _ fun j hj => data_diskAfter h ?_)
    -- every byte of the bio is on the disk
    have hend := hbio.end_le
    omega
  · rw [submitRam_priv _ hb]
    exact copySegment_frame _ bio hi

theorem sameRequests (priv : RamPriv) {bios bios' : List Bio}
    (hsame : List.Forall₂ SameRequest bios bios') (h : ∀ b ∈ bios, b.Fits priv.sectors)
    (h' : ∀ b ∈ bios', b.Fits priv.sectors) :
    outcomes priv bios' = outcomes priv bios ∧ diskAfter priv bios' = diskAfter priv bios := by
  induction hsame generalizing priv with
  | nil => exact ⟨rfl, rfl⟩
  | @cons b b' bios bios' hb _ ih =>
    obtain ⟨hfit, hrest⟩ := List.forall_mem_cons.mp h
    obtain ⟨hfit', hrest'⟩ := List.forall_mem_cons.mp h'
    obtain ⟨hstatus, hcopy⟩ := submitRam_inside priv hfit
    obtain ⟨hstatus', hcopy'⟩ := submitRam_inside priv hfit'
    rw [copySegment_sameRequest priv hb, ← hcopy] at hcopy'
    have hpriv := congrArg Prod.fst hcopy'
    have hsegs := congrArg Prod.snd hcopy'
    simp only at hpriv hsegs
    have hsectors := submitRam_sectors priv hfit
    obtain ⟨hout, hdisk⟩ := ih (submitRam priv b).priv (by rw [hsectors]; exact hrest)
      (by rw [hsectors]; exact hrest')
    refine ⟨?_, ?_⟩
    · simp only [outcomes, hstatus, hstatus', hsegs, hpriv, hout]
    · show diskAfter (submitRam priv b').priv bios' = _
      rw [hpriv, hdisk]
      rfl

/-- Every bio inside the disk succeeds; a read returns what was last written, a write changes its
own range only, and the segments of a bio make no difference to either. -/
theorem ram_disk_serves (sectors : ℕ) (fits : sectors * ramBlockSize < wordSize)
    (beyond : ℕ → UInt8) (bios : List Bio) (h : ∀ b ∈ bios, b.Fits sectors) :
    let disk : RamPriv := .kzalloc sectors fits beyond
    (∀ before bio after, bios = before ++ bio :: after →
      Served (diskAfter disk before) before bio (submitRam (diskAfter disk before) bio)) ∧
    ∀ bios', List.Forall₂ SameRequest bios bios' → (∀ b ∈ bios', b.Fits sectors) →
      outcomes disk bios' = outcomes disk bios ∧ diskAfter disk bios' = diskAfter disk bios := by
  intro disk
  refine ⟨?_, fun bios' hsame h' => sameRequests disk hsame h h'⟩
  rintro before bio after rfl
  exact served_bio (fun b hb => h b (List.mem_append_left _ hb))
    (h bio (List.mem_append_right _ List.mem_cons_self))

end History

/-! ## What the block layer lets through -/

/-- Segments of whole sectors. -/
def Bio.Aligned (b : Bio) : Prop := ∀ seg ∈ b.segs, ramBlockSize ∣ seg.length

/-- `bio_check_eod`: a bio with less than a sector of data may start anywhere. -/
def Bio.Inside (b : Bio) (sectors : ℕ) : Prop :=
  b.payload.length / ramBlockSize = 0 ∨ b.sector + b.payload.length / ramBlockSize ≤ sectors

instance (b : Bio) : Decidable b.Aligned := inferInstanceAs (Decidable (∀ seg ∈ b.segs, _))

instance (b : Bio) (sectors : ℕ) : Decidable (b.Inside sectors) :=
  inferInstanceAs (Decidable (_ ∨ _))

theorem Bio.Aligned.empty_or_fits {b : Bio} {sectors : ℕ} (h : b.Aligned) (hin : b.Inside sectors) :
    b.payload = [] ∨ b.Fits sectors := by
  rcases hin with hzero | hle
  · left
    obtain ⟨n, hn⟩ := flatten_sectors h
    have hpayload : b.payload.length = n * ramBlockSize := hn
    rw [hpayload, Nat.mul_div_cancel n (by decide)] at hzero
    rw [hzero, Nat.zero_mul] at hpayload
    exact List.length_eq_zero_iff.mp hpayload
  · exact .inr ⟨h, hle⟩

theorem submitRam_empty (priv : RamPriv) {b : Bio} (h : b.payload = []) :
    submitRam priv b = ⟨.ok, priv, b.segs⟩ := by
  show ramLoop priv b.dir b.sector b.segs = _
  have hlen : b.segs.flatten.length = 0 := List.length_eq_zero_iff.mpr h
  cases hsegs : b.segs with
  | nil => rfl
  | cons buf rest =>
    rw [hsegs] at hlen
    rw [ramLoop, if_pos hlen]

section Unfiltered

variable {sectors : ℕ} {fits : sectors * ramBlockSize < wordSize} {beyond : ℕ → UInt8}

def Bio.nonempty (b : Bio) : Bool := !b.payload.isEmpty

theorem Bio.Covers.nonempty {b : Bio} {i : ℕ} (h : b.Covers i) : b.nonempty = true := by
  obtain ⟨-, hle, hlt⟩ := h
  cases hp : b.payload with
  | nil =>
    rw [hp, List.length_nil, Nat.add_zero] at hlt
    exact absurd (hle.trans_lt hlt) (Nat.lt_irrefl _)
  | cons v rest => simp [Bio.nonempty, hp]

theorem diskAfter_nonempty (priv : RamPriv) (bios : List Bio) :
    diskAfter priv (bios.filter Bio.nonempty) = diskAfter priv bios := by
  induction bios generalizing priv with
  | nil => rfl
  | cons b bios ih =>
    cases hb : b.nonempty with
    | true =>
      rw [List.filter_cons_of_pos hb]
      exact ih (submitRam priv b).priv
    | false =>
      have hempty : b.payload = [] := by simpa [Bio.nonempty] using hb
      have hpriv : (submitRam priv b).priv = priv := by rw [submitRam_empty priv hempty]
      rw [List.filter_cons_of_neg (by simp [hb]), ih]
      show _ = diskAfter (submitRam priv b).priv bios
      rw [hpriv]

theorem lastWritten_nonempty (history : List Bio) :
    lastWritten (history.filter Bio.nonempty) = lastWritten history := by
  funext i
  have hfind : (history.filter Bio.nonempty).find? (fun b => decide (b.Covers i)) =
      history.find? fun b => decide (b.Covers i) := by
    rw [List.find?_filter]
    congr 1
    funext b
    by_cases hc : b.Covers i
    · simp [hc, hc.nonempty]
    · simp [hc]
  rw [lastWritten, lastWritten, hfind]

theorem nonempty_fits {bios : List Bio} (haligned : ∀ b ∈ bios, b.Aligned)
    (hinside : ∀ b ∈ bios, b.Inside sectors) : ∀ b ∈ bios.filter Bio.nonempty, b.Fits sectors := by
  intro b hb
  obtain ⟨hmem, hne⟩ := List.mem_filter.mp hb
  refine ((haligned b hmem).empty_or_fits (hinside b hmem)).resolve_left fun hempty => ?_
  simp [Bio.nonempty, hempty] at hne

/-- A bio of whole sectors that the block layer lets through, after others of that kind. -/
theorem answered_bio {history : List Bio} (haligned : ∀ b ∈ history, b.Aligned)
    (hinside : ∀ b ∈ history, b.Inside sectors) {bio : Bio} (ha : bio.Aligned)
    (hin : bio.Inside sectors) :
    let r := submitRam (diskAfter (.kzalloc sectors fits beyond) history) bio
    r.status = .ok ∧ (bio.dir = .read →
      r.segs.flatten = fetch (lastWritten history.reverse) bio.offset bio.payload.length) := by
  intro r
  rcases ha.empty_or_fits hin with hempty | hfit
  · have hr : r = ⟨.ok, _, bio.segs⟩ := submitRam_empty _ hempty
    rw [hr, hempty]
    exact ⟨rfl, fun _ => hempty⟩
  · have hserved : Served (diskAfter (.kzalloc sectors fits beyond) (history.filter Bio.nonempty))
        (history.filter Bio.nonempty) bio _ := served_bio (nonempty_fits haligned hinside) hfit
    rw [diskAfter_nonempty] at hserved
    refine ⟨hserved.status, fun hdir => ?_⟩
    have hread := hserved.read hdir
    rwa [← List.filter_reverse, lastWritten_nonempty] at hread

/-- Bios of whole sectors touch nothing but the memory of the disk. -/
theorem data_beyond {bios : List Bio} (haligned : ∀ b ∈ bios, b.Aligned)
    (hinside : ∀ b ∈ bios, b.Inside sectors) {i : ℕ} (hi : sectors * ramBlockSize ≤ i) :
    (diskAfter (.kzalloc sectors fits beyond) bios).data i = beyond i := by
  have hfits : ∀ b ∈ bios.filter Bio.nonempty, b.Fits sectors := nonempty_fits haligned hinside
  rw [← diskAfter_nonempty]
  generalize bios.filter Bio.nonempty = nonempties at hfits
  induction nonempties using List.reverseRecOn with
  | nil => exact if_neg (Nat.not_lt.mpr hi)
  | append_singleton before b ih =>
    have hbefore : ∀ b' ∈ before, b'.Fits sectors := fun b' hb' =>
      hfits b' (List.mem_append_left _ hb')
    have hb : b.Fits sectors := hfits b (List.mem_append_right _ (List.mem_singleton_self b))
    have hcovers : ¬ b.Covers i := by
      rintro ⟨-, -, hlt⟩
      have hend := hb.end_le
      omega
    rw [diskAfter_concat, (served_bio hbefore hb).frame i hcovers]
    exact ih hbefore

end Unfiltered

/-! ## A write in two segments and a read -/

def oneSector (v : UInt8) : List UInt8 := List.replicate ramBlockSize v

/-- Sectors 1 and 2 as two segments. -/
def writeTwo : Bio := ⟨.write, 1, [oneSector 7, oneSector 8]⟩

def readSecond : Bio := ⟨.read, 2, [oneSector 0]⟩

theorem length_oneSector (v : UInt8) : (oneSector v).length = ramBlockSize :=
  List.length_replicate

theorem length_flatten_oneSector (values : List UInt8) :
    (values.map oneSector).flatten.length = values.length * ramBlockSize := by
  induction values with
  | nil => rfl
  | cons v values ih =>
    rw [List.map_cons, List.flatten_cons, List.length_append, ih, length_oneSector,
      List.length_cons, Nat.add_mul, Nat.one_mul, Nat.add_comm]

theorem fits_of_sectors (dir : BioDir) (sector sectors : ℕ) (values : List UInt8)
    (h : sector + values.length ≤ sectors) :
    (Bio.mk dir sector (values.map oneSector)).Fits sectors where
  aligned := fun seg hseg => by
    obtain ⟨v, -, rfl⟩ := List.mem_map.mp hseg
    exact ⟨1, length_oneSector v⟩
  inside := by
    show sector + (values.map oneSector).flatten.length / ramBlockSize ≤ sectors
    rw [length_flatten_oneSector, Nat.mul_div_cancel _ (by decide)]
    exact h

theorem ram_disk_serves_two_bios :
    let disk : RamPriv := .kzalloc 4 (by decide) fun _ => 0
    (∀ before bio after, [writeTwo, readSecond] = before ++ bio :: after →
      Served (diskAfter disk before) before bio (submitRam (diskAfter disk before) bio)) ∧
    ∀ bios', List.Forall₂ SameRequest [writeTwo, readSecond] bios' → (∀ b ∈ bios', b.Fits 4) →
      outcomes disk bios' = outcomes disk [writeTwo, readSecond] ∧
        diskAfter disk bios' = diskAfter disk [writeTwo, readSecond] := by
  refine ram_disk_serves 4 (by decide) (fun _ => 0) [writeTwo, readSecond] fun b hb => ?_
  rcases List.mem_pair.mp hb with rfl | rfl
  · exact fits_of_sectors .write 1 4 [7, 8] (by decide)
  · exact fits_of_sectors .read 2 4 [0] (by decide)

end LinuxDriverFramework.NvBlock
