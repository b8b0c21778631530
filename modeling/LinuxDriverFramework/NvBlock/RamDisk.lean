import LinuxDriverFramework.Foundations.Memory
import LinuxDriverFramework.Kernel.Base

/-! # The RAM disk: bios and their segments

`ram_submit_bio` of `nv_block_ram.c` behind `nv_block_submit_bio`, and `ram_init`.

* `RamPriv`: the memory of the disk, whose size in bytes fits a `size_t`.
* `Bio`: direction, first sector and the segments of the data, as `bio_for_each_segment` yields
  them.
* `ramSegment`: one round of the loop; the lock is held for its copy only.
* `ramLoop`, `ramSubmitBio`, `submitBio`: the loop, the callback and the wrapper. -/

namespace LinuxDriverFramework.NvBlock
open Foundations
set_option autoImplicit false

def ramBlockSize : ℕ := 512

/-- The range of `sector_t`, `size_t` and `unsigned long`. -/
def wordSize : ℕ := 2 ^ 64

/-- `struct ram_priv`: the bytes from `priv->data` on, and how many sectors are allocated. -/
structure RamPriv where
  data : ℕ → UInt8
  sectors : ℕ
  fits : sectors * ramBlockSize < wordSize

inductive BioDir
  | read
  | write
  deriving DecidableEq, Repr

structure Bio where
  dir : BioDir
  sector : ℕ
  segs : List (List UInt8)
  deriving DecidableEq, Repr

inductive BlkStatus
  | ok
  | ioerr
  deriving DecidableEq, Repr

/-- The disk and the segments after a bio, and its `bi_status`. -/
structure BioResult (σ : Type) where
  status : BlkStatus
  priv : σ
  segs : List (List UInt8)

/-! ## `ram_submit_bio` -/

/-- The sector after a segment of `len` bytes: the iterator counts whole sectors. -/
def nextSector (start len : ℕ) : ℕ := (start + (len >>> 9)) % wordSize

/-- The `memcpy` under the lock. -/
def copySegment (priv : RamPriv) (dir : BioDir) (offset : ℕ) (buf : List UInt8) :
    RamPriv × List UInt8 :=
  match dir with
  | .write => ({ priv with data := store priv.data offset buf }, buf)
  | .read => (priv, fetch priv.data offset buf.length)

/-- The check and the copy for one segment at sector `start`, `none` if the check fails. -/
def ramSegment (priv : RamPriv) (dir : BioDir) (start : ℕ) (buf : List UInt8) :
    Option (RamPriv × List UInt8) :=
  if priv.sectors < (start + (buf.length >>> 9)) % wordSize then none
  else some (copySegment priv dir (start * ramBlockSize % wordSize) buf)

/-- The loop from sector `start` on. It ends when no bytes are left. -/
def ramLoop (priv : RamPriv) (dir : BioDir) (start : ℕ) : List (List UInt8) → BioResult RamPriv
  | [] => ⟨.ok, priv, []⟩
  | buf :: rest =>
    if (buf :: rest).flatten.length = 0 then ⟨.ok, priv, buf :: rest⟩
    else
      match ramSegment priv dir start buf with
      | none => ⟨.ioerr, priv, buf :: rest⟩
      | some (priv', buf') =>
        let r := ramLoop priv' dir (nextSector start buf.length) rest
        ⟨r.status, r.priv, buf' :: r.segs⟩

/-- `ram_submit_bio` for a disk whose `priv` and `priv->data` are there. -/
def ramSubmitBio (priv : RamPriv) (bio : Bio) : BioResult RamPriv :=
  ramLoop priv bio.dir bio.sector bio.segs

/-! ## `nv_block_submit_bio` -/

/-- `hasDisk` says that `bio->bi_bdev->bd_disk` is there, `op` is `ops->submit_bio`. -/
def submitBio {σ : Type} (hasDisk : Bool) (op : Option (σ → Bio → BioResult σ)) (priv : σ)
    (bio : Bio) : BioResult σ :=
  if !hasDisk then ⟨.ioerr, priv, bio.segs⟩
  else
    match op with
    | none => ⟨.ioerr, priv, bio.segs⟩
    | some op => op priv bio

def submitRam (priv : RamPriv) (bio : Bio) : BioResult RamPriv :=
  submitBio true (some ramSubmitBio) priv bio

/-! ## `ram_init` -/

def ramSectors (ramSizeMb : ℕ) : ℕ :=
  let mb := if ramSizeMb = 0 ∨ 1024 < ramSizeMb then 8 else ramSizeMb
  mb * 1024 * 1024 % wordSize / ramBlockSize

theorem ramSectors_fits (ramSizeMb : ℕ) : ramSectors ramSizeMb * ramBlockSize < wordSize := by
  have hle : ramSectors ramSizeMb * ramBlockSize ≤ _ % wordSize := Nat.div_mul_le_self _ _
  exact hle.trans_lt (Nat.mod_lt _ (by decide))

/-- Memory from `kzalloc`: zero where it is allocated, whatever was there beyond. -/
def RamPriv.kzalloc (sectors : ℕ) (fits : sectors * ramBlockSize < wordSize)
    (beyond : ℕ → UInt8) : RamPriv where
  data := fun i => if i < sectors * ramBlockSize then 0 else beyond i
  sectors := sectors
  fits := fits

def ramInit (ramSizeMb : ℕ) (beyond : ℕ → UInt8) : RamPriv :=
  .kzalloc (ramSectors ramSizeMb) (ramSectors_fits ramSizeMb) beyond

/-! ## Bios inside the disk -/

def Bio.payload (b : Bio) : List UInt8 := b.segs.flatten

def Bio.offset (b : Bio) : ℕ := b.sector * ramBlockSize

/-- Segments of whole sectors, all of them inside a disk of this size. -/
structure Bio.Fits (b : Bio) (sectors : ℕ) : Prop where
  aligned : ∀ seg ∈ b.segs, ramBlockSize ∣ seg.length
  inside : b.sector + b.payload.length / ramBlockSize ≤ sectors

section Segment

variable {priv : RamPriv} {start : ℕ} {buf : List UInt8}

theorem shift_sectors {n : ℕ} (h : buf.length = n * ramBlockSize) : buf.length >>> 9 = n := by
  rw [Nat.shiftRight_eq_div_pow, h]
  exact Nat.mul_div_cancel n (by decide)

/-- No sum or product in the loop wraps around for a segment inside the disk. -/
theorem sector_lt (priv : RamPriv) {s : ℕ} (h : s ≤ priv.sectors) :
    s < wordSize ∧ s * ramBlockSize < wordSize := by
  have hmul : s * ramBlockSize ≤ priv.sectors * ramBlockSize := Nat.mul_le_mul_right _ h
  have hfits := priv.fits
  refine ⟨?_, hmul.trans_lt hfits⟩
  have hle : s ≤ s * ramBlockSize := Nat.le_mul_of_pos_right s (by decide)
  omega

theorem nextSector_inside {n : ℕ} (hlen : buf.length = n * ramBlockSize)
    (h : start + n ≤ priv.sectors) : nextSector start buf.length = start + n := by
  rw [nextSector, shift_sectors hlen, Nat.mod_eq_of_lt (sector_lt priv h).1]

theorem ramSegment_inside {n : ℕ} (hlen : buf.length = n * ramBlockSize)
    (h : start + n ≤ priv.sectors) (dir : BioDir) :
    ramSegment priv dir start buf = some (copySegment priv dir (start * ramBlockSize) buf) := by
  have hstart : start ≤ priv.sectors := by omega
  have hsum : (start + (buf.length >>> 9)) % wordSize = start + n := nextSector_inside hlen h
  have hoff : start * ramBlockSize % wordSize = start * ramBlockSize :=
    Nat.mod_eq_of_lt (sector_lt priv hstart).2
  have hcheck : ¬ priv.sectors < start + n := by omega
  rw [ramSegment, hsum, hoff, if_neg hcheck]

end Segment

/-! ## The whole loop -/

section Copy

variable (priv : RamPriv) (dir : BioDir) (offset : ℕ)

@[simp] theorem copySegment_sectors (buf : List UInt8) :
    (copySegment priv dir offset buf).1.sectors = priv.sectors := by
  cases dir <;> rfl

@[simp] theorem length_copySegment (buf : List UInt8) :
    (copySegment priv dir offset buf).2.length = buf.length := by
  cases dir with
  | write => rfl
  | read => exact length_fetch _ _ _

theorem copySegment_nil : copySegment priv dir offset [] = (priv, []) := by
  cases dir with
  | write =>
    show ({ priv with data := store priv.data offset [] }, []) = _
    rw [store_nil]
  | read => rfl

theorem copySegment_append (buf rest : List UInt8) :
    copySegment priv dir offset (buf ++ rest) =
      let first := copySegment priv dir offset buf
      let second := copySegment first.1 dir (offset + buf.length) rest
      (second.1, first.2 ++ second.2) := by
  cases dir with
  | write =>
    show ({ priv with data := store priv.data offset (buf ++ rest) }, buf ++ rest) = _
    rw [store_append]
    rfl
  | read =>
    show (priv, fetch priv.data offset (buf ++ rest).length) = _
    rw [List.length_append, fetch_add]
    rfl

end Copy

theorem flatten_sectors {segs : List (List UInt8)} (h : ∀ seg ∈ segs, ramBlockSize ∣ seg.length) :
    ∃ n, segs.flatten.length = n * ramBlockSize := by
  induction segs with
  | nil => exact ⟨0, rfl⟩
  | cons seg segs ih =>
    obtain ⟨hseg, hsegs⟩ := List.forall_mem_cons.mp h
    obtain ⟨k, hk⟩ := hseg
    obtain ⟨n, hn⟩ := ih hsegs
    refine ⟨k + n, ?_⟩
    rw [List.flatten_cons, List.length_append, hk, hn, Nat.add_mul, Nat.mul_comm]

theorem ramLoop_cons {priv : RamPriv} {dir : BioDir} {start : ℕ} {buf : List UInt8}
    {rest : List (List UInt8)} (hz : ¬ (buf :: rest).flatten.length = 0)
    {out : RamPriv × List UInt8} (hseg : ramSegment priv dir start buf = some out) :
    ramLoop priv dir start (buf :: rest) =
      let r := ramLoop out.1 dir (nextSector start buf.length) rest
      ⟨r.status, r.priv, out.2 :: r.segs⟩ := by
  rw [ramLoop, if_neg hz, hseg]

/-- For segments inside the disk the loop comes to one copy of all their bytes. -/
theorem ramLoop_inside (dir : BioDir) {segs : List (List UInt8)}
    (h : ∀ seg ∈ segs, ramBlockSize ∣ seg.length) (priv : RamPriv) (start : ℕ)
    (hin : start + segs.flatten.length / ramBlockSize ≤ priv.sectors) :
    let r := ramLoop priv dir start segs
    r.status = .ok ∧
      (r.priv, r.segs.flatten) = copySegment priv dir (start * ramBlockSize) segs.flatten := by
  induction segs generalizing priv start with
  | nil => exact ⟨rfl, (copySegment_nil priv dir _).symm⟩
  | cons buf rest ih =>
    by_cases hz : (buf :: rest).flatten.length = 0
    · have hnil : (buf :: rest).flatten = [] := List.length_eq_zero_iff.mp hz
      simp only [ramLoop, if_pos hz]
      rw [hnil, copySegment_nil]
      exact ⟨trivial, rfl⟩
    · obtain ⟨hbuf, hrest⟩ := List.forall_mem_cons.mp h
      obtain ⟨n, hn⟩ : ∃ n, buf.length = n * ramBlockSize := by
        obtain ⟨n, hn⟩ := hbuf
        exact ⟨n, by rw [hn, Nat.mul_comm]⟩
      have hsize : (buf :: rest).flatten.length / ramBlockSize =
          n + rest.flatten.length / ramBlockSize := by
        rw [List.flatten_cons, List.length_append, hn, Nat.add_comm (n * _),
          Nat.add_mul_div_right _ _ (by decide), Nat.add_comm]
      rw [hsize, ← Nat.add_assoc] at hin
      have hfirst : start + n ≤ priv.sectors := Nat.le_trans (Nat.le_add_right _ _) hin
      have hseg := ramSegment_inside hn hfirst dir
      have hnext := nextSector_inside hn hfirst
      rw [ramLoop_cons hz hseg, hnext]
      obtain ⟨hstatus, hcopy⟩ := ih hrest (copySegment priv dir (start * ramBlockSize) buf).1
        (start + n) (by rw [copySegment_sectors]; exact hin)
      refine ⟨hstatus, ?_⟩
      have hoff : (start + n) * ramBlockSize = start * ramBlockSize + buf.length := by
        rw [Nat.add_mul, hn]
      rw [hoff] at hcopy
      rw [List.flatten_cons, List.flatten_cons, copySegment_append]
      simp only [← hcopy]

end LinuxDriverFramework.NvBlock
