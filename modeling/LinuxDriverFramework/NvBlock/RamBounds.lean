import LinuxDriverFramework.NvBlock.RamDisk

/-! # Which memory a bio reaches

The check of `ram_submit_bio` counts whole sectors, modulo 2^64; the copy counts bytes.

* `ramVisits`, `ramCopies`: the segments that the loop comes to, and the ranges it copies.
* `ramLoop_copies`, `ramLoop_fetches`: the loop is these copies.
* `SlipsBy`: a segment that does not fit and is not refused.
* `ramBounded_iff`: a bio stays inside the disk just when no segment slips by. -/

namespace LinuxDriverFramework.NvBlock
open Foundations
set_option autoImplicit false

def passes (sectors start len : ℕ) : Bool := decide (nextSector start len ≤ sectors)

/-- The segments that the loop comes to, each with its sector. One that does not pass is the
last. -/
def ramVisits (sectors start : ℕ) : List (List UInt8) → List (ℕ × List UInt8)
  | [] => []
  | buf :: rest =>
    if (buf :: rest).flatten.length = 0 then []
    else if passes sectors start buf.length then
      (start, buf) :: ramVisits sectors (nextSector start buf.length) rest
    else [(start, buf)]

/-- The byte offsets and the buffers of the copies. -/
def ramCopies (sectors start : ℕ) (segs : List (List UInt8)) : List (ℕ × List UInt8) :=
  ((ramVisits sectors start segs).filter fun v => passes sectors v.1 v.2.length).map
    fun v => (v.1 * ramBlockSize % wordSize, v.2)

/-! ## The loop is its copies -/

section Visits

variable {sectors start : ℕ} {buf : List UInt8} {rest : List (List UInt8)}

theorem ramVisits_end (hz : (buf :: rest).flatten.length = 0) :
    ramVisits sectors start (buf :: rest) = [] := if_pos hz

theorem ramVisits_pass (hz : ¬ (buf :: rest).flatten.length = 0)
    (hp : passes sectors start buf.length = true) :
    ramVisits sectors start (buf :: rest) =
      (start, buf) :: ramVisits sectors (nextSector start buf.length) rest := by
  rw [ramVisits, if_neg hz, if_pos hp]

theorem ramVisits_refuse (hz : ¬ (buf :: rest).flatten.length = 0)
    (hp : passes sectors start buf.length = false) :
    ramVisits sectors start (buf :: rest) = [(start, buf)] := by
  rw [ramVisits, if_neg hz, hp, if_neg Bool.false_ne_true]

theorem ramCopies_pass (hz : ¬ (buf :: rest).flatten.length = 0)
    (hp : passes sectors start buf.length = true) :
    ramCopies sectors start (buf :: rest) = (start * ramBlockSize % wordSize, buf) ::
      ramCopies sectors (nextSector start buf.length) rest := by
  simp only [ramCopies, ramVisits_pass hz hp, List.filter_cons, hp, if_true, List.map_cons]

theorem ramCopies_refuse (hz : ¬ (buf :: rest).flatten.length = 0)
    (hp : passes sectors start buf.length = false) :
    ramCopies sectors start (buf :: rest) = [] := by
  simp only [ramCopies, ramVisits_refuse hz hp, List.filter_cons, hp, Bool.false_eq_true, if_false,
    List.filter_nil, List.map_nil]

theorem mem_ramCopies {segs : List (List UInt8)} {v : ℕ × List UInt8}
    (hv : v ∈ ramVisits sectors start segs) (hp : passes sectors v.1 v.2.length = true) :
    (v.1 * ramBlockSize % wordSize, v.2) ∈ ramCopies sectors start segs :=
  List.mem_map_of_mem (List.mem_filter.mpr ⟨hv, hp⟩)

/-- The segments before one that does not pass are copied, and no other. -/
theorem ramVisits_refused {segs : List (List UInt8)} {i : ℕ} {v : ℕ × List UInt8}
    (hv : (ramVisits sectors start segs)[i]? = some v)
    (hp : passes sectors v.1 v.2.length = false) :
    (ramCopies sectors start segs).length = i ∧ (ramVisits sectors start segs).length = i + 1 := by
  induction segs generalizing start i with
  | nil => cases hv
  | cons buf rest ih =>
    by_cases hz : (buf :: rest).flatten.length = 0
    · rw [ramVisits_end hz] at hv
      cases hv
    · cases hpass : passes sectors start buf.length with
      | true =>
        rw [ramVisits_pass hz hpass] at hv ⊢
        rw [ramCopies_pass hz hpass]
        cases i with
        | zero =>
          cases hv
          rw [hpass] at hp
          cases hp
        | succ i =>
          obtain ⟨hcopies, hvisits⟩ := ih hv
          simp only [List.length_cons, hcopies, hvisits]
          exact ⟨trivial, trivial⟩
      | false =>
        rw [ramVisits_refuse hz hpass] at hv ⊢
        rw [ramCopies_refuse hz hpass]
        cases i with
        | zero => exact ⟨rfl, rfl⟩
        | succ i => cases hv

end Visits

section Loop

variable (dir : BioDir)

theorem ramSegment_passes (priv : RamPriv) (start : ℕ) (buf : List UInt8) :
    ramSegment priv dir start buf =
      if passes priv.sectors start buf.length then
        some (copySegment priv dir (start * ramBlockSize % wordSize) buf)
      else none := by
  unfold ramSegment passes nextSector
  by_cases h : priv.sectors < (start + (buf.length >>> 9)) % wordSize
  · rw [if_pos h, if_neg (by simpa using h)]
  · rw [if_neg h, if_pos (by simpa using h)]

/-- The disk after a loop is the one that the copies have made in turn, and the loop fails if it
came to a segment that it did not copy. -/
theorem ramLoop_copies (priv : RamPriv) (start : ℕ) (segs : List (List UInt8)) :
    (ramLoop priv dir start segs).priv =
      (ramCopies priv.sectors start segs).foldl (fun p c => (copySegment p dir c.1 c.2).1) priv ∧
    ((ramLoop priv dir start segs).status = .ioerr ↔
      (ramCopies priv.sectors start segs).length <
        (ramVisits priv.sectors start segs).length) := by
  induction segs generalizing priv start with
  | nil => simp [ramLoop, ramCopies, ramVisits]
  | cons buf rest ih =>
    by_cases hz : (buf :: rest).flatten.length = 0
    · rw [ramLoop, if_pos hz, ramCopies, ramVisits_end hz]
      simp
    · have hseg := ramSegment_passes dir priv start buf
      cases hp : passes priv.sectors start buf.length with
      | true =>
        rw [hp, if_pos rfl] at hseg
        obtain ⟨hpriv, hstatus⟩ := ih
          (copySegment priv dir (start * ramBlockSize % wordSize) buf).1
          (nextSector start buf.length)
        rw [copySegment_sectors] at hpriv hstatus
        rw [ramLoop_cons hz hseg, ramCopies_pass hz hp, ramVisits_pass hz hp]
        refine ⟨hpriv, hstatus.trans ?_⟩
        rw [List.length_cons, List.length_cons, Nat.add_lt_add_iff_right]
      | false =>
        rw [hp, if_neg Bool.false_ne_true] at hseg
        rw [ramLoop, if_neg hz, hseg, ramCopies_refuse hz hp, ramVisits_refuse hz hp]
        exact ⟨rfl, iff_of_true rfl (Nat.zero_lt_one)⟩

/-- A read fills its segments from the ranges copied, and leaves the others. -/
theorem ramLoop_fetches (priv : RamPriv) (start : ℕ) (segs : List (List UInt8)) :
    (ramLoop priv .read start segs).segs =
      (ramCopies priv.sectors start segs).map (fun c => fetch priv.data c.1 c.2.length) ++
        segs.drop (ramCopies priv.sectors start segs).length := by
  induction segs generalizing start with
  | nil => rfl
  | cons buf rest ih =>
    by_cases hz : (buf :: rest).flatten.length = 0
    · rw [ramLoop, if_pos hz, ramCopies, ramVisits_end hz]
      rfl
    · have hseg := ramSegment_passes .read priv start buf
      cases hp : passes priv.sectors start buf.length with
      | true =>
        rw [hp, if_pos rfl] at hseg
        rw [ramLoop_cons hz hseg, ramCopies_pass hz hp]
        exact congrArg (_ :: ·) (ih (nextSector start buf.length))
      | false =>
        rw [hp, if_neg Bool.false_ne_true] at hseg
        rw [ramLoop, if_neg hz, hseg, ramCopies_refuse hz hp]
        rfl

end Loop

/-! ## One segment -/

def FitsIn (sectors start len : ℕ) : Prop := start * ramBlockSize + len ≤ sectors * ramBlockSize

/-- The sum of the check wraps around, or the segment ends in a sector that it does not fill, just
behind the last one. -/
def SlipsBy (sectors start len : ℕ) : Prop :=
  (wordSize ≤ start + len / ramBlockSize ∧
    start + len / ramBlockSize - wordSize ≤ sectors) ∨
  (start + len / ramBlockSize = sectors ∧ len % ramBlockSize ≠ 0)

instance (sectors start len : ℕ) : Decidable (SlipsBy sectors start len) :=
  inferInstanceAs (Decidable (_ ∨ _))

section Segment

variable {sectors start len : ℕ}

theorem passes_iff : passes sectors start len = true ↔
    (start + len / ramBlockSize) % wordSize ≤ sectors := by
  rw [passes, decide_eq_true_eq, nextSector, Nat.shiftRight_eq_div_pow]
  rfl

variable (hfits : sectors * ramBlockSize < wordSize) (hstart : start < wordSize)
  (hlen : len < wordSize)
include hfits hstart hlen

theorem slipsBy_iff : SlipsBy sectors start len ↔
    passes sectors start len = true ∧ ¬ FitsIn sectors start len := by
  rw [passes_iff]
  simp only [SlipsBy, FitsIn, ramBlockSize, wordSize] at hfits hstart hlen ⊢
  omega

/-- The sector before 2^64: the sum is 0. -/
example : SlipsBy 2048 (wordSize - 1) 512 := by decide

/-- For a segment that passes, the range that is copied is inside the disk just when the segment
is. -/
theorem range_inside_iff (hp : passes sectors start len = true) :
    start * ramBlockSize % wordSize + len ≤ sectors * ramBlockSize ↔
      FitsIn sectors start len := by
  rw [passes_iff] at hp
  simp only [FitsIn, ramBlockSize, wordSize] at hp hfits hstart hlen ⊢
  omega

end Segment

/-! ## A bio -/

/-- Every copy stays inside the allocated memory, and a segment that does not fit is not copied and
makes the bio fail. -/
structure RamBounded (priv : RamPriv) (bio : Bio) : Prop where
  inside : ∀ c ∈ ramCopies priv.sectors bio.sector bio.segs,
    c.1 + c.2.length ≤ priv.sectors * ramBlockSize
  refused : ∀ i v, (ramVisits priv.sectors bio.sector bio.segs)[i]? = some v →
    ¬ FitsIn priv.sectors v.1 v.2.length →
      (submitRam priv bio).status = .ioerr ∧
        (ramCopies priv.sectors bio.sector bio.segs).length = i

theorem ramVisits_words (sectors : ℕ) {start : ℕ} {segs : List (List UInt8)}
    (hstart : start < wordSize) (hlen : ∀ seg ∈ segs, seg.length < wordSize) :
    ∀ v ∈ ramVisits sectors start segs, v.1 < wordSize ∧ v.2.length < wordSize := by
  induction segs generalizing start with
  | nil =>
    intro v hv
    cases hv
  | cons buf rest ih =>
    obtain ⟨hbuf, hrest⟩ := List.forall_mem_cons.mp hlen
    have hnext : nextSector start buf.length < wordSize := Nat.mod_lt _ (by decide)
    intro v hv
    by_cases hz : (buf :: rest).flatten.length = 0
    · rw [ramVisits_end hz] at hv
      cases hv
    · cases hp : passes sectors start buf.length with
      | true =>
        rw [ramVisits_pass hz hp] at hv
        rcases List.mem_cons.mp hv with rfl | hv
        · exact ⟨hstart, hbuf⟩
        · exact ih hnext hrest v hv
      | false =>
        rw [ramVisits_refuse hz hp] at hv
        obtain rfl := List.mem_singleton.mp hv
        exact ⟨hstart, hbuf⟩

/-- A bio with a 64-bit sector keeps to the memory of the disk just when no segment that the loop
comes to slips by. -/
theorem ramBounded_iff (priv : RamPriv) (bio : Bio) (hsector : bio.sector < wordSize)
    (hlen : ∀ seg ∈ bio.segs, seg.length < wordSize) :
    RamBounded priv bio ↔ ∀ v ∈ ramVisits priv.sectors bio.sector bio.segs,
      ¬ SlipsBy priv.sectors v.1 v.2.length := by
  have hwords := ramVisits_words priv.sectors hsector hlen
  constructor
  · intro h v hv hslips
    obtain ⟨hstart, hsize⟩ := hwords v hv
    obtain ⟨hp, hout⟩ := (slipsBy_iff priv.fits hstart hsize).mp hslips
    have hcopy := h.inside _ (mem_ramCopies hv hp)
    exact hout ((range_inside_iff priv.fits hstart hsize hp).mp hcopy)
  · intro h
    constructor
    · intro c hc
      obtain ⟨v, hv, rfl⟩ := List.mem_map.mp hc
      obtain ⟨hv, hp⟩ := List.mem_filter.mp hv
      obtain ⟨hstart, hsize⟩ := hwords v hv
      refine (range_inside_iff priv.fits hstart hsize hp).mpr ?_
      by_contra hout
      exact h v hv ((slipsBy_iff priv.fits hstart hsize).mpr ⟨hp, hout⟩)
    · intro i v hv hout
      have hmem := List.mem_of_getElem? hv
      obtain ⟨hstart, hsize⟩ := hwords v hmem
      have hp : passes priv.sectors v.1 v.2.length = false := by
        cases hp : passes priv.sectors v.1 v.2.length with
        | false => rfl
        | true =>
          exact absurd ((slipsBy_iff priv.fits hstart hsize).mpr ⟨hp, hout⟩) (h v hmem)
      obtain ⟨hcopies, hvisits⟩ := ramVisits_refused hv hp
      refine ⟨(ramLoop_copies bio.dir priv bio.sector bio.segs).2.mpr ?_, hcopies⟩
      omega

/-- One byte is read at the first sector behind the smallest disk. -/
def pastTheEnd : Bio := ⟨.read, 2048, [[0]]⟩

theorem ramBounded_iff_pastTheEnd :
    RamBounded (ramInit 1 fun _ => 0) pastTheEnd ↔
      ∀ v ∈ ramVisits (ramInit 1 fun _ => 0).sectors pastTheEnd.sector pastTheEnd.segs,
        ¬ SlipsBy (ramInit 1 fun _ => 0).sectors v.1 v.2.length :=
  ramBounded_iff (ramInit 1 fun _ => 0) pastTheEnd (by decide) (by decide)

theorem byte_behind_the_disk :
    ramCopies (ramInit 1 fun _ => 0).sectors pastTheEnd.sector pastTheEnd.segs =
      [(2048 * 512, [0])] ∧
    ¬ ∀ (priv : RamPriv) (bio : Bio), 1 ≤ priv.sectors → bio.sector < wordSize →
      (∀ seg ∈ bio.segs, seg.length < wordSize) → RamBounded priv bio := by
  have hcopies : ramCopies (ramInit 1 fun _ => 0).sectors pastTheEnd.sector pastTheEnd.segs =
      [(2048 * 512, [0])] := by decide
  refine ⟨hcopies, fun h => ?_⟩
  have hin := (h (ramInit 1 fun _ => 0) pastTheEnd (by decide) (by decide) (by decide)).inside
    (2048 * 512, [0]) (by rw [hcopies]; exact List.mem_singleton_self _)
  exact absurd hin (by decide)

end LinuxDriverFramework.NvBlock
