import LinuxDriverFramework.NvPci.Irq
import Mathlib.Logic.Function.Basic

/-! # Mapping and unmapping BARs

`nv_pci_iomap_bar` and `nv_pci_iounmap_bar` on one `nv_pci_dev`, before the device is detached.

* `World`: the device with its `bar[]`, and the mappings that `pcim_iomap` has made. The source
  never calls `pcim_iounmap`, so none of them goes.
* `Matched`: `bar[i]` is set exactly while BAR `i` has one mapping, and no BAR has two.
* `AsNew`: after an unmap, a map does what it does on a BAR that was never mapped.
* `matched_iff_spares`: a run keeps both exactly if no mapped BAR is unmapped in it. -/

namespace LinuxDriverFramework.NvPci.Bars
open Foundations
set_option autoImplicit false

/-- `NV_PCI_MAX_BARS`. -/
abbrev maxBars : ℕ := 6

/-- A mapping by `pcim_iomap(pdev, bar, maxlen)`, at address `addr`. -/
structure Mapping where
  bar : Fin maxBars
  maxlen : ℕ
  addr : ℕ
  deriving DecidableEq, Repr

structure World where
  pdev : Ptr
  /-- `dev->bar[]` -/
  bar : Fin maxBars → Ptr
  /-- `pci_resource_len` of the BARs, which the device fixes -/
  resourceLen : Fin maxBars → ℕ
  live : List Mapping
  /-- the last call on the BAR was `nv_pci_iounmap_bar` -/
  unmapped : Fin maxBars → Bool

def World.setBar (w : World) (i : Fin maxBars) (p : Ptr) : World :=
  { w with bar := Function.update w.bar i p }

def World.setUnmapped (w : World) (i : Fin maxBars) (b : Bool) : World :=
  { w with unmapped := Function.update w.unmapped i b }

/-! ## `nv_pci.c` -/

/-- `bar < 0 || bar >= NV_PCI_MAX_BARS` excludes the rest. -/
def barIndex (bar : ℤ) : Option (Fin maxBars) :=
  if h : 0 ≤ bar ∧ bar.toNat < maxBars then some ⟨bar.toNat, h.2⟩ else none

/-- `pcim_iomap`: a new mapping at the address that the kernel chooses, or NULL. -/
def World.pcimIomap (w : World) (i : Fin maxBars) (maxlen : ℕ) (addr : Ptr) : World × Ptr :=
  match addr with
  | some a => ({ w with live := ⟨i, maxlen, a⟩ :: w.live }, some a)
  | none => (w, none)

def iomapBar (w : World) (bar : ℤ) (maxlen : ℕ) (addr : Ptr) : World × Ret :=
  match w.pdev, barIndex bar with
  | some _, some i =>
    if (w.bar i).isSome then (w, .ok ())
    else if w.resourceLen i = 0 then (w, .error .ENOENT)
    else
      let (w, p) := w.pcimIomap i maxlen addr
      let w := w.setBar i p
      if (w.bar i).isNone then (w, .error .ENOMEM) else (w, .ok ())
  | _, _ => (w, .error .EINVAL)

def iounmapBar (w : World) (bar : ℤ) : World :=
  match barIndex bar with
  | some i => w.setBar i none
  | none => w

/-! ## Runs -/

inductive Call
  | iomap (bar : ℤ) (maxlen : ℕ) (addr : Ptr)
  | iounmap (bar : ℤ)
  deriving DecidableEq, Repr

/-- Notes for the BAR of a call whether it was an unmap. -/
def World.note (w : World) (bar : ℤ) (b : Bool) : World :=
  match barIndex bar with
  | some i => w.setUnmapped i b
  | none => w

def step (w : World) : Call → World
  | .iomap bar maxlen addr => (iomapBar w bar maxlen addr).1.note bar false
  | .iounmap bar => (iounmapBar w bar).note bar true

def next (w : World) (c : Call) : Option World := some (step w c)

/-- The device before the first call. -/
def World.probed (pdev : Ptr) (resourceLen : Fin maxBars → ℕ) : World where
  pdev := pdev
  bar := fun _ => none
  resourceLen := resourceLen
  live := []
  unmapped := fun _ => false

def World.mappings (w : World) (i : Fin maxBars) : List Mapping :=
  w.live.filter fun m => decide (m.bar = i)

/-- The device with BAR `i` as it is before its first mapping. -/
def World.neverMapped (w : World) (i : Fin maxBars) : World :=
  { w.setBar i none with live := w.live.filter fun m => decide (m.bar ≠ i) }

structure Matched (w : World) : Prop where
  pointer : ∀ i, (w.bar i).isSome = true ↔ (w.mappings i).length = 1
  single : ∀ i, (w.mappings i).length ≤ 1

/-- Result, pointer and mappings are those of a BAR that was never mapped. -/
structure MapsAsNew (w : World) (i : Fin maxBars) (bar : ℤ) (maxlen : ℕ) (addr : Ptr) : Prop where
  ret : (iomapBar w bar maxlen addr).2 = (iomapBar (w.neverMapped i) bar maxlen addr).2
  pointer : (iomapBar w bar maxlen addr).1.bar i =
    (iomapBar (w.neverMapped i) bar maxlen addr).1.bar i
  mappings : (iomapBar w bar maxlen addr).1.mappings i =
    (iomapBar (w.neverMapped i) bar maxlen addr).1.mappings i

def AsNew (w : World) : Call → Prop
  | .iomap bar maxlen addr => ∀ i, barIndex bar = some i → w.unmapped i = true →
      MapsAsNew w i bar maxlen addr
  | .iounmap _ => True

/-- The call does not unmap a BAR with a pointer. -/
def Spares (w : World) : Call → Prop
  | .iomap _ _ _ => True
  | .iounmap bar => ∀ i, barIndex bar = some i → w.bar i = none

/-! ## The two records -/

/-- The pointer of BAR `i` is the address of its only mapping, and NULL after an unmap. -/
structure Recorded (w : World) (i : Fin maxBars) : Prop where
  null : w.bar i = none → w.mappings i = []
  mapped : ∀ a, w.bar i = some a → ∃ maxlen, w.mappings i = [⟨i, maxlen, a⟩]
  unmapped : w.unmapped i = true → w.bar i = none

def Invariant (w : World) : Prop := ∀ i, Recorded w i

theorem invariant_probed (pdev : Ptr) (resourceLen : Fin maxBars → ℕ) :
    Invariant (.probed pdev resourceLen) := fun _ =>
  ⟨fun _ => rfl, fun a h => (by cases h), fun _ => rfl⟩

theorem Invariant.matched {w : World} (h : Invariant w) : Matched w := by
  have hone : ∀ i, ((w.bar i).isSome = true ↔ (w.mappings i).length = 1) ∧
      (w.mappings i).length ≤ 1 := by
    intro i
    cases hp : w.bar i with
    | none =>
      rw [(h i).null hp]
      simp
    | some a =>
      obtain ⟨maxlen, hm⟩ := (h i).mapped a hp
      rw [hm]
      simp
  exact ⟨fun i => (hone i).1, fun i => (hone i).2⟩

/-! ## What a call does -/

/-- BAR `i` with a new mapping and the pointer to it. -/
def World.mapped (w : World) (i : Fin maxBars) (maxlen a : ℕ) : World :=
  { w with live := ⟨i, maxlen, a⟩ :: w.live }.setBar i (some a)

theorem setBar_none_eq {w : World} {i : Fin maxBars} (h : w.bar i = none) :
    w.setBar i none = w := by
  simp only [World.setBar, ← h, Function.update_eq_self]

theorem iomapBar_cases (w : World) (bar : ℤ) (maxlen : ℕ) (addr : Ptr) :
    (iomapBar w bar maxlen addr).1 = w ∨
    ∃ i a, barIndex bar = some i ∧ w.bar i = none ∧
      (iomapBar w bar maxlen addr).1 = w.mapped i maxlen a := by
  cases hp : w.pdev with
  | none => exact .inl (by simp only [iomapBar, hp])
  | some p =>
    cases hi : barIndex bar with
    | none => exact .inl (by simp only [iomapBar, hp, hi])
    | some i =>
      cases hbar : w.bar i with
      | some b => exact .inl (by simp [iomapBar, hp, hi, hbar])
      | none =>
        by_cases hlen : w.resourceLen i = 0
        · exact .inl (by simp [iomapBar, hp, hi, hbar, hlen])
        · cases addr with
          | none =>
            -- the NULL that is stored is there already
            refine .inl ?_
            simp only [iomapBar, hp, hi, hbar, Option.isSome_none, Bool.false_eq_true, if_false,
              if_neg hlen, World.pcimIomap, setBar_none_eq hbar, Option.isNone_none, if_true]
          | some a =>
            refine .inr ⟨i, a, rfl, hbar, ?_⟩
            simp [iomapBar, hp, hi, hbar, hlen, World.pcimIomap, World.setBar, World.mapped]

section Frame

variable (w : World) {i j : Fin maxBars}

@[simp] theorem mapped_mappings_self (maxlen a : ℕ) :
    (w.mapped i maxlen a).mappings i = ⟨i, maxlen, a⟩ :: w.mappings i :=
  List.filter_cons_of_pos (by simp)

theorem mapped_mappings_ne (maxlen a : ℕ) (h : i ≠ j) :
    (w.mapped i maxlen a).mappings j = w.mappings j :=
  List.filter_cons_of_neg (by simpa using h)

@[simp] theorem mapped_bar_self (maxlen a : ℕ) : (w.mapped i maxlen a).bar i = some a := by
  simp only [World.mapped, World.setBar, Function.update_self]

theorem mapped_bar_ne (maxlen a : ℕ) (h : i ≠ j) : (w.mapped i maxlen a).bar j = w.bar j := by
  simp only [World.mapped, World.setBar, Function.update_of_ne h.symm]

@[simp] theorem note_bar (bar : ℤ) (b : Bool) : (w.note bar b).bar = w.bar := by
  unfold World.note
  cases barIndex bar <;> rfl

@[simp] theorem note_mappings (bar : ℤ) (b : Bool) : (w.note bar b).mappings = w.mappings := by
  unfold World.note
  cases barIndex bar <;> rfl

theorem note_unmapped_self {bar : ℤ} (h : barIndex bar = some i) (b : Bool) :
    (w.note bar b).unmapped i = b := by
  simp only [World.note, h, World.setUnmapped, Function.update_self]

theorem note_unmapped_ne {bar : ℤ} (h : barIndex bar ≠ some i) (b : Bool) :
    (w.note bar b).unmapped i = w.unmapped i := by
  unfold World.note
  cases hj : barIndex bar with
  | none => rfl
  | some j =>
    have hne : i ≠ j := fun hij => h (hj.trans (congrArg some hij.symm))
    exact Function.update_of_ne hne b w.unmapped

end Frame

/-! ## Steps -/

theorem recorded_note {w : World} {i : Fin maxBars} {bar : ℤ} {b : Bool}
    (hnull : w.bar i = none → w.mappings i = [])
    (hmapped : ∀ a, w.bar i = some a → ∃ maxlen, w.mappings i = [⟨i, maxlen, a⟩])
    (hnew : barIndex bar = some i → b = true → w.bar i = none)
    (hold : w.unmapped i = true → w.bar i = none) : Recorded (w.note bar b) i := by
  refine ⟨by simpa using hnull, by simpa using hmapped, fun hu => ?_⟩
  rw [note_bar]
  by_cases hi : barIndex bar = some i
  · rw [note_unmapped_self w hi] at hu
    exact hnew hi hu
  · rw [note_unmapped_ne w hi] at hu
    exact hold hu

theorem Recorded.iomap {w : World} {i : Fin maxBars} (h : Recorded w i) (bar : ℤ) (maxlen : ℕ)
    (addr : Ptr) : Recorded (step w (.iomap bar maxlen addr)) i := by
  obtain heq | ⟨j, a, hj, hnone, heq⟩ := iomapBar_cases w bar maxlen addr
  · rw [step, heq]
    exact recorded_note h.null h.mapped (fun _ hb => by cases hb) h.unmapped
  · rw [step, heq]
    by_cases hij : j = i
    · subst hij
      have hempty := h.null hnone
      refine ⟨fun hp => ?_, fun b hp => ⟨maxlen, ?_⟩, fun hu => ?_⟩
      · rw [note_bar, mapped_bar_self] at hp
        cases hp
      · rw [note_bar, mapped_bar_self] at hp
        obtain rfl := Option.some.inj hp
        rw [note_mappings, mapped_mappings_self, hempty]
      · rw [note_unmapped_self _ hj] at hu
        cases hu
    · have hbar := mapped_bar_ne w maxlen a hij
      have hmappings := mapped_mappings_ne w maxlen a hij
      refine recorded_note ?_ ?_ (fun _ hb => by cases hb) ?_
      · rw [hbar, hmappings]
        exact h.null
      · rw [hbar, hmappings]
        exact h.mapped
      · rw [hbar]
        exact h.unmapped

theorem iounmapBar_bar_self {w : World} {i : Fin maxBars} {bar : ℤ} (h : barIndex bar = some i) :
    (iounmapBar w bar).bar i = none := by
  simp only [iounmapBar, h, World.setBar, Function.update_self]

theorem iounmapBar_bar_ne {w : World} {i : Fin maxBars} {bar : ℤ} (h : barIndex bar ≠ some i) :
    (iounmapBar w bar).bar i = w.bar i := by
  unfold iounmapBar
  cases hj : barIndex bar with
  | none => rfl
  | some j =>
    have hne : i ≠ j := fun hij => h (hj.trans (congrArg some hij.symm))
    exact Function.update_of_ne hne none w.bar

@[simp] theorem iounmapBar_mappings (w : World) (bar : ℤ) :
    (iounmapBar w bar).mappings = w.mappings := by
  unfold iounmapBar
  cases barIndex bar <;> rfl

@[simp] theorem iounmapBar_unmapped (w : World) (bar : ℤ) :
    (iounmapBar w bar).unmapped = w.unmapped := by
  unfold iounmapBar
  cases barIndex bar <;> rfl

theorem Recorded.iounmap {w : World} {i : Fin maxBars} (h : Recorded w i) {bar : ℤ}
    (hs : barIndex bar = some i → w.bar i = none) : Recorded (step w (.iounmap bar)) i := by
  by_cases hi : barIndex bar = some i
  · have hempty := h.null (hs hi)
    have hbar := iounmapBar_bar_self (w := w) hi
    refine recorded_note (fun _ => ?_) (fun a ha => ?_) (fun _ _ => hbar) fun _ => hbar
    · rw [iounmapBar_mappings]
      exact hempty
    · rw [hbar] at ha
      cases ha
  · have hbar := iounmapBar_bar_ne (w := w) hi
    refine recorded_note ?_ ?_ (fun hi' => absurd hi' hi) ?_
    · rw [hbar, iounmapBar_mappings]
      exact h.null
    · rw [hbar, iounmapBar_mappings]
      exact h.mapped
    · rw [hbar, iounmapBar_unmapped]
      exact h.unmapped

theorem step_keeps {w : World} {c : Call} (h : Invariant w) (hs : Spares w c) :
    Invariant (step w c) := by
  intro i
  cases c with
  | iomap bar maxlen addr => exact (h i).iomap bar maxlen addr
  | iounmap bar => exact (h i).iounmap (hs i)

/-- Unmapping a mapped BAR leaves a mapping under a NULL pointer. -/
theorem step_breaks {w : World} {c : Call} (h : Invariant w) (hs : ¬ Spares w c) :
    ¬ Matched (step w c) := by
  cases c with
  | iomap bar maxlen addr => exact absurd trivial hs
  | iounmap bar =>
    simp only [Spares, not_forall] at hs
    obtain ⟨i, hi, hp⟩ := hs
    obtain ⟨a, ha⟩ := Option.ne_none_iff_exists'.mp hp
    obtain ⟨maxlen, hm⟩ := (h i).mapped a ha
    intro hmatched
    have hpointer := (hmatched.pointer i).mpr (by
      rw [step, note_mappings, iounmapBar_mappings, hm]
      rfl)
    rw [step, note_bar, iounmapBar_bar_self hi] at hpointer
    cases hpointer

/-- On a BAR without a pointer the invariant leaves nothing to tell it from a new one. -/
theorem Recorded.neverMapped {w : World} {i : Fin maxBars} (h : Recorded w i)
    (hp : w.bar i = none) : w.neverMapped i = w := by
  have hempty := List.filter_eq_nil_iff.mp (h.null hp)
  have hlive : (w.live.filter fun m => decide (m.bar ≠ i)) = w.live := by
    apply List.filter_eq_self.mpr
    intro m hm
    simpa using hempty m hm
  rw [World.neverMapped, setBar_none_eq hp, hlive]

theorem asNew_of_invariant {w : World} (h : Invariant w) (c : Call) : AsNew w c := by
  cases c with
  | iomap bar maxlen addr =>
    intro i _ hu
    have hsame := (h i).neverMapped ((h i).unmapped hu)
    exact ⟨by rw [hsame], by rw [hsame], by rw [hsame]⟩
  | iounmap bar => exact trivial

/-! ## Over whole runs -/

/-- In every run, pointers and mappings match in every state, and maps after unmaps are as on new
BARs, exactly if no call unmaps a BAR that is mapped. -/
theorem matched_iff_spares (pdev : Ptr) (resourceLen : Fin maxBars → ℕ) (calls : List Call) :
    (Throughout next Matched (.probed pdev resourceLen) calls ∧
      Along next AsNew (.probed pdev resourceLen) calls) ↔
    Along next Spares (.probed pdev resourceLen) calls := by
  have hinit := invariant_probed pdev resourceLen
  have hkeep : ∀ w c w', Invariant w → Spares w c → next w c = some w' → Invariant w' := by
    intro w c w' hi hs hw
    obtain rfl := Option.some.inj hw
    exact step_keeps hi hs
  have hmatched : Throughout next Matched (.probed pdev resourceLen) calls ↔
      Along next Spares (.probed pdev resourceLen) calls := by
    refine throughout_iff_along (I := Invariant) (D := fun _ _ => True)
      (fun w hi => hi.matched) (fun w c w' hi _ => hkeep w c w' hi) ?_ calls _ hinit
      (along_true calls _)
    intro w c hi _ hs
    exact ⟨_, rfl, step_breaks hi hs⟩
  constructor
  · rintro ⟨hthroughout, -⟩
    exact hmatched.mp hthroughout
  · intro hs
    exact ⟨hmatched.mpr hs,
      hs.imp_of_invariant hkeep (fun w c hi _ => asNew_of_invariant hi c) hinit⟩

/-- BAR 0 is mapped and unmapped: the mapping is still there. Whatever the kernel
answers to a second `pcim_iomap`, BAR 0 does not map as it did when it was new. -/
theorem mapping_outlives_unmap :
    ∃ w, run next (.probed (some 0) fun _ => 4096) [.iomap 0 0 (some 1), .iounmap 0] = some w ∧
      w.bar 0 = none ∧ w.mappings 0 = [⟨0, 0, 1⟩] ∧ (∀ addr, ¬ AsNew w (.iomap 0 0 addr)) ∧
      ¬ (Throughout next Matched (.probed (some 0) fun _ => 4096)
          [.iomap 0 0 (some 1), .iounmap 0] ∧
        Along next AsNew (.probed (some 0) fun _ => 4096) [.iomap 0 0 (some 1), .iounmap 0]) := by
  refine ⟨_, rfl, rfl, rfl, fun addr h => ?_, fun h => ?_⟩
  · have hmappings := (h 0 rfl rfl).mappings
    cases addr with
    | none => cases hmappings
    | some a => cases hmappings
  · have hmatched := ((h.1.2 _ rfl).2 _ rfl).pointer 0
    have hpointer := hmatched.mpr rfl
    cases hpointer

/-! ### A mapping without a pointer -/

/-- BAR `i` has a mapping that no pointer leads to. -/
def Stale (i : Fin maxBars) (w : World) : Prop :=
  (w.bar i = none ∧ 1 ≤ (w.mappings i).length) ∨ 2 ≤ (w.mappings i).length

theorem Stale.not_matched {i : Fin maxBars} {w : World} (h : Stale i w) : ¬ Matched w := by
  intro hm
  have hsingle := hm.single i
  obtain ⟨hp, hone⟩ | htwo := h
  · have hpointer := (hm.pointer i).mpr (by omega)
    rw [hp] at hpointer
    cases hpointer
  · omega

theorem Stale.step {i : Fin maxBars} {w : World} (h : Stale i w) (c : Call) :
    Stale i (step w c) := by
  cases c with
  | iomap bar maxlen addr =>
    rw [Bars.step, Stale, note_bar, note_mappings]
    obtain heq | ⟨j, a, hj, hnone, heq⟩ := iomapBar_cases w bar maxlen addr
    · rw [heq]
      exact h
    · rw [heq]
      by_cases hij : j = i
      · -- the new mapping is the second one
        subst hij
        rw [mapped_mappings_self, List.length_cons]
        obtain ⟨-, hone⟩ | htwo := h
        · exact .inr (by omega)
        · exact .inr (by omega)
      · rw [mapped_bar_ne w maxlen a hij, mapped_mappings_ne w maxlen a hij]
        exact h
  | iounmap bar =>
    rw [Bars.step, Stale, note_bar, note_mappings, iounmapBar_mappings]
    by_cases hi : barIndex bar = some i
    · refine .inl ⟨iounmapBar_bar_self hi, ?_⟩
      obtain ⟨-, hone⟩ | htwo := h
      · exact hone
      · omega
    · rw [iounmapBar_bar_ne hi]
      exact h

/-- Until the device is detached no calls set it right. -/
theorem stale_forever {i : Fin maxBars} {w w' : World} (h : Stale i w) {calls : List Call}
    (hrun : run next w calls = some w') : ¬ Matched w' := by
  have hstale : Stale i w' := run_invariant (I := Stale i) (fun w c w' hs hw => by
    obtain rfl := Option.some.inj hw
    exact hs.step c) h ⟨calls, hrun⟩
  exact hstale.not_matched

end LinuxDriverFramework.NvPci.Bars
