import LinuxDriverFramework.Foundations.Custody
import LinuxDriverFramework.Foundations.Runs
import LinuxDriverFramework.NvPwm.Chip

/-! # `nv_pwm`: registering the `pwm_chip`

`nv_pwm_chip_register` and `nv_pwm_chip_unregister` of `nv_pwm.c` with the kernel objects behind
them, the transition system of their runs, and who holds which `pwm_chip` in it.

* `ChipPtr`: a `struct pwm_chip *`, which is an error pointer when `pwmchip_alloc` fails. The source
  asks only for NULL.
* `World`: the chips of the drivers and the kernel, with the kernel calls made so far, newest
  first. -/

namespace LinuxDriverFramework.NvPwm.Registration
open Foundations
set_option autoImplicit false

inductive ChipPtr
  | null
  | err (e : Errno)
  | obj (n : ℕ)
  deriving DecidableEq, Repr

variable {σ : Type}

/-- `struct nv_pwm_chip`. -/
structure NvPwmChip (σ : Type) where
  chip : ChipPtr
  ops : Option (ChipOps σ)
  parent : Option ℕ
  npwm : ℕ
  added : Bool

structure PwmChip where
  /-- `pwmchip_get_drvdata(chip)` -/
  drvdata : Option ℕ
  parent : ℕ
  npwm : ℕ
  /-- between `pwmchip_add` and `pwmchip_remove` -/
  visible : Bool
  deriving DecidableEq, Repr

inductive KCall
  | pwmchipAlloc (n : ℕ)
  /-- `chip->ops = &nv_pwm_core_ops; pwmchip_set_drvdata(chip, nchip)` -/
  | setUp (chip : ChipPtr) (live : Bool)
  | pwmchipAdd (chip : ChipPtr) (live : Bool)
  | pwmchipRemove (chip : ChipPtr) (live : Bool)
  | pwmchipPut (chip : ChipPtr) (live : Bool)
  deriving DecidableEq, Repr

structure World (σ : Type) where
  nchip : ℕ → NvPwmChip σ
  chips : ℕ → Option PwmChip
  nextChip : ℕ
  calls : List KCall

@[simps] def World.modChip (w : World σ) (x : ℕ) (f : NvPwmChip σ → NvPwmChip σ) : World σ :=
  { w with nchip := Function.update w.nchip x (f (w.nchip x)) }

/-! ## Kernel functions -/

def World.live (w : World σ) : ChipPtr → Bool
  | .obj n => (w.chips n).isSome
  | _ => false

/-- Change the chip behind a pointer, if it points to one. -/
def World.modObject (w : World σ) (p : ChipPtr) (f : PwmChip → PwmChip) : World σ :=
  match p with
  | .obj n => { w with chips := Function.update w.chips n ((w.chips n).map f) }
  | _ => w

/-- `pwmchip_alloc`: NULL, an error pointer or a new chip. -/
inductive AllocOutcome
  | null
  | err (e : Errno)
  | ok
  deriving DecidableEq, Repr

def AllocOutcome.isErr : AllocOutcome → Bool
  | .err _ => true
  | _ => false

def World.pwmchipAlloc (w : World σ) (parent npwm : ℕ) : AllocOutcome → World σ × ChipPtr
  | .null => (w, .null)
  | .err e => (w, .err e)
  | .ok =>
    ({ w with
        chips := Function.update w.chips w.nextChip (some ⟨none, parent, npwm, false⟩)
        nextChip := w.nextChip + 1
        calls := .pwmchipAlloc w.nextChip :: w.calls }, .obj w.nextChip)

/-- The stores through the new pointer. Where it leads to no chip they are only recorded. -/
def World.setUp (w : World σ) (p : ChipPtr) (x : ℕ) : World σ :=
  { w.modObject p fun d => { d with drvdata := some x } with
    calls := .setUp p (w.live p) :: w.calls }

def World.pwmchipAdd (w : World σ) (p : ChipPtr) : World σ :=
  { w.modObject p fun d => { d with visible := true } with
    calls := .pwmchipAdd p (w.live p) :: w.calls }

def World.pwmchipRemove (w : World σ) (p : ChipPtr) : World σ :=
  { w.modObject p fun d => { d with visible := false } with
    calls := .pwmchipRemove p (w.live p) :: w.calls }

def World.pwmchipPut (w : World σ) (p : ChipPtr) : World σ :=
  match p with
  | .obj n =>
    { w with
      chips := Function.update w.chips n none
      calls := .pwmchipPut p (w.live p) :: w.calls }
  | _ => { w with calls := .pwmchipPut p (w.live p) :: w.calls }

/-! ## `nv_pwm.c` -/

structure Args where
  parent : Option ℕ
  nchip : Option ℕ
  npwm : ℕ

structure Outcomes where
  alloc : AllocOutcome
  add : Option Errno

/-- From `pwmchip_alloc` on. -/
def chipRegisterChecked (w : World σ) (x parent npwm : ℕ) (o : Outcomes) : World σ × Ret :=
  let (w, chip) := w.pwmchipAlloc parent npwm o.alloc
  if chip = .null then (w, .error .ENOMEM)
  else
    let w := (w.setUp chip x).modChip x fun c =>
      { c with chip := chip, parent := some parent, npwm := npwm }
    match o.add with
    | some e => ((w.pwmchipPut chip).modChip x fun c => { c with chip := .null }, .error e)
    | none => ((w.pwmchipAdd chip).modChip x fun c => { c with added := true }, .ok ())

/-- The chip and its parent of a registration that passes the checks. -/
def accepted (w : World σ) (a : Args) : Option (ℕ × ℕ) :=
  match a.parent, a.nchip with
  | some parent, some x =>
    match (w.nchip x).ops with
    | none => none
    | some ops =>
      if ops.apply.isNone || ops.getState.isNone || a.npwm == 0 || (w.nchip x).added then none
      else some (parent, x)
  | _, _ => none

def chipRegister (w : World σ) (a : Args) (o : Outcomes) : World σ × Ret :=
  match a.parent, a.nchip with
  | some parent, some x =>
    match (w.nchip x).ops with
    | none => (w, .error .EINVAL)
    | some ops =>
      if ops.apply.isNone || ops.getState.isNone || a.npwm == 0 then (w, .error .EINVAL)
      else if (w.nchip x).added then (w, .error .EBUSY)
      else chipRegisterChecked w x parent a.npwm o
  | _, _ => (w, .error .EINVAL)

def chipUnregister (w : World σ) (nchip : Option ℕ) : World σ :=
  match nchip with
  | none => w
  | some x =>
    if (w.nchip x).added && (w.nchip x).chip != .null then
      let chip := (w.nchip x).chip
      ((w.pwmchipRemove chip).pwmchipPut chip).modChip x fun c =>
        { c with chip := .null, added := false }
    else w

/-! ## The same function without the kernel's side -/

def ChipPtr.toOption : ChipPtr → Option ℕ
  | .obj n => some n
  | _ => none

/-- What `nv_pwm_config` and its siblings see of a chip. -/
@[simps] def NvPwmChip.view (c : NvPwmChip σ) : NvPwm.NvPwmChip σ where
  chip := c.chip.toOption
  ops := c.ops
  npwm := c.npwm
  added := c.added

def Outcomes.view (o : Outcomes) (next : ℕ) : RegisterOutcomes where
  alloc := if o.alloc = .ok then some next else none
  add := o.add

theorem chipRegister_view (w : World σ) {a : Args} {parent x : ℕ} {o : Outcomes}
    (hparent : a.parent = some parent) (hx : a.nchip = some x) (ho : o.alloc.isErr = false) :
    (((chipRegister w a o).1.nchip x).view, (chipRegister w a o).2) =
      NvPwm.chipRegister (w.nchip x).view a.npwm (o.view w.nextChip) := by
  unfold chipRegister NvPwm.chipRegister
  simp only [hparent, hx, NvPwmChip.view_ops, NvPwmChip.view_added]
  cases hops : (w.nchip x).ops with
  | none => rfl
  | some ops =>
    by_cases hc : (ops.apply.isNone || ops.getState.isNone || a.npwm == 0) = true
    · simp only [hc, if_true]
    · by_cases hadded : (w.nchip x).added = true
      · simp only [hc, hadded, Bool.false_eq_true, if_true, if_false]
      · simp only [hc, hadded, Bool.false_eq_true, if_false]
        cases halloc : o.alloc with
        | err e => simp [halloc, AllocOutcome.isErr] at ho
        | null => simp [chipRegisterChecked, halloc, Outcomes.view, World.pwmchipAlloc]
        | ok =>
          cases hadd : o.add with
          | some e =>
            simp [chipRegisterChecked, halloc, hadd, Outcomes.view, World.pwmchipAlloc,
              World.setUp, World.modObject, World.pwmchipPut, NvPwmChip.view, ChipPtr.toOption, hops,
              hadded]
          | none =>
            simp [chipRegisterChecked, halloc, hadd, Outcomes.view, World.pwmchipAlloc,
              World.setUp, World.modObject, World.pwmchipAdd, NvPwmChip.view, ChipPtr.toOption, hops]

/-! ## Runs -/

inductive Call
  | register (a : Args) (o : Outcomes)
  | unregister (nchip : Option ℕ)

def exec (w : World σ) : Call → World σ × Ret
  | .register a o => chipRegister w a o
  | .unregister nchip => (chipUnregister w nchip, .ok ())

def step (w : World σ) (c : Call) : Option (World σ) := some (exec w c).1

def init (ops : ℕ → Option (ChipOps σ)) : World σ where
  nchip := fun x => { chip := .null, ops := ops x, parent := none, npwm := 0, added := false }
  chips := fun _ => none
  nextChip := 0
  calls := []

/-! ## Who holds which `pwm_chip` -/

def ChipPtr.pointer : ChipPtr → Pointer
  | .null => .null
  | .err _ => .stray
  | .obj n => .object n

/-- `pwmchip_put` gives a chip back. All that is done with a chip needs one that is there. -/
def reading : Reading (NvPwmChip σ) KCall where
  pointer c := c.chip.pointer
  mark c := c.added
  gives
    | .pwmchipPut p _, n => .obj n = p
    | _, _ => false
  misuse
    | .pwmchipAlloc _ => false
    | .setUp _ live => !live
    | .pwmchipAdd _ live => !live
    | .pwmchipRemove _ live => !live
    | .pwmchipPut _ live => !live

def custody (w : World σ) : Custody ℕ := reading.custody w.nchip w.chips w.nextChip w.calls

theorem ptr_of_held {w : World σ} {x n : ℕ} (h : (custody w).held x = .object n) :
    (w.nchip x).chip = .obj n := by
  change (w.nchip x).chip.pointer = .object n at h
  cases hp : (w.nchip x).chip with
  | null => simp [hp, ChipPtr.pointer] at h
  | err e => simp [hp, ChipPtr.pointer] at h
  | obj m => simpa [hp, ChipPtr.pointer] using h

theorem custody_modChip (w : World σ) (x : ℕ) (f : NvPwmChip σ → NvPwmChip σ) :
    custody (w.modChip x f) =
      (custody w).place x (f (w.nchip x)).chip.pointer (f (w.nchip x)).added :=
  reading.custody_update w.nchip w.chips w.nextChip w.calls x (f (w.nchip x))

theorem custody_pwmchipAlloc (w : World σ) (parent npwm : ℕ) :
    custody (w.pwmchipAlloc parent npwm .ok).1 = (custody w).issue :=
  (Reading.custody_skip _ _ _ _ (fun _ => rfl) rfl).trans
    (reading.custody_issue w.nchip w.chips w.nextChip w.calls _)

theorem custody_setUp (w : World σ) (n x : ℕ) :
    custody (w.setUp (.obj n) x) = (custody w).use n :=
  (reading.custody_modify _ _ _ _ n _).trans
    (Reading.custody_use w.nchip w.chips w.nextChip w.calls (fun _ => rfl) rfl)

theorem custody_pwmchipAdd (w : World σ) (n : ℕ) :
    custody (w.pwmchipAdd (.obj n)) = (custody w).use n :=
  (reading.custody_modify _ _ _ _ n _).trans
    (Reading.custody_use w.nchip w.chips w.nextChip w.calls (fun _ => rfl) rfl)

theorem custody_pwmchipRemove (w : World σ) (n : ℕ) :
    custody (w.pwmchipRemove (.obj n)) = (custody w).use n :=
  (reading.custody_modify _ _ _ _ n _).trans
    (Reading.custody_use w.nchip w.chips w.nextChip w.calls (fun _ => rfl) rfl)

theorem custody_pwmchipPut (w : World σ) (n : ℕ) :
    custody (w.pwmchipPut (.obj n)) = (custody w).release n :=
  Reading.custody_release w.nchip w.chips w.nextChip w.calls (fun _ => by simp [reading]) rfl

theorem sound_chipRegisterChecked {w : World σ} {x : ℕ} (h : (custody w).Sound)
    (hx : (w.nchip x).added = false) (parent npwm : ℕ) (o : Outcomes)
    (ho : ∀ e, o.alloc ≠ .err e) : (custody (chipRegisterChecked w x parent npwm o).1).Sound := by
  unfold chipRegisterChecked
  cases halloc : o.alloc with
  | null => exact h
  | err e => exact absurd halloc (ho e)
  | ok =>
    let n := w.nextChip
    let w₁ := ((w.pwmchipAlloc parent npwm .ok).1.setUp (.obj n) x).modChip x fun c =>
      { c with chip := .obj n, parent := some parent, npwm := npwm }
    have hlive : (custody w).issue.live n = true := Function.update_self _ _ _
    have h₁ : custody w₁ = (custody w).issue.place x (.object n) false := by
      rw [custody_modChip, custody_setUp, custody_pwmchipAlloc, Custody.use_of_live hlive]
      exact congrArg ((custody w).issue.place x (.object n)) hx
    have hx₁ : (w₁.nchip x).added = false := by
      simpa [w₁, World.setUp, World.modObject, World.pwmchipAlloc] using hx
    cases o.add with
    | some e =>
      show (custody ((w₁.pwmchipPut (.obj n)).modChip x fun c => { c with chip := .null })).Sound
      rw [custody_modChip, custody_pwmchipPut, h₁, Custody.release_place, Custody.place_place]
      have hput : (w₁.pwmchipPut (.obj n)).nchip = w₁.nchip := rfl
      rw [hput, hx₁]
      exact h.attempt hx
    | none =>
      show (custody ((w₁.pwmchipAdd (.obj n)).modChip x fun c => { c with added := true })).Sound
      have hptr : ((w₁.pwmchipAdd (.obj n)).nchip x).chip = .obj n := by
        simp [w₁, World.pwmchipAdd, World.modObject]
      rw [custody_modChip, hptr, custody_pwmchipAdd, h₁, Custody.use_place,
        Custody.use_of_live hlive, Custody.place_place]
      exact h.take hx

/-- The error pointer of a failed `pwmchip_alloc` is not NULL, and is written through. -/
theorem setUp_of_alloc_failed {w : World σ} {x parent npwm : ℕ} {o : Outcomes} {e : Errno}
    (ho : o.alloc = .err e) :
    .setUp (.err e) false ∈ (chipRegisterChecked w x parent npwm o).1.calls := by
  cases hadd : o.add with
  | some e' =>
    simp [chipRegisterChecked, ho, hadd, World.pwmchipAlloc, World.setUp, World.pwmchipPut,
      World.modObject, World.live]
  | none =>
    simp [chipRegisterChecked, ho, hadd, World.pwmchipAlloc, World.setUp, World.pwmchipAdd,
      World.modObject, World.live]

/-- A registration that passes the checks goes on to `pwmchip_alloc`. -/
theorem chipRegister_accepted {w : World σ} {a : Args} {parent x : ℕ}
    (h : accepted w a = some (parent, x)) (o : Outcomes) :
    chipRegister w a o = chipRegisterChecked w x parent a.npwm o := by
  unfold accepted at h
  split at h
  · rename_i hparent hx
    split at h
    · cases h
    · rename_i ops hops
      split at h
      · cases h
      · rename_i hc
        obtain ⟨rfl, rfl⟩ := Prod.mk.inj (Option.some.inj h)
        simp only [Bool.or_eq_true, not_or, Bool.not_eq_true] at hc
        simp only [chipRegister, hparent, hx, hops, hc.1.1.1, hc.1.1.2, hc.1.2, hc.2,
          Bool.or_self, Bool.false_eq_true, if_false]
  · cases h

theorem chipRegister_rejected {w : World σ} {a : Args} (h : accepted w a = none) (o : Outcomes) :
    ∃ e, chipRegister w a o = (w, .error e) := by
  unfold accepted at h
  unfold chipRegister
  split
  · rename_i hparent hx
    simp only [hparent, hx] at h
    split
    · exact ⟨_, rfl⟩
    · rename_i hops
      simp only [hops] at h
      split
      · exact ⟨_, rfl⟩
      · split
        · exact ⟨_, rfl⟩
        · rename_i hc hadded
          simp [hc, hadded] at h
  · exact ⟨_, rfl⟩

theorem accepted_not_added {w : World σ} {a : Args} {parent x : ℕ}
    (h : accepted w a = some (parent, x)) : (w.nchip x).added = false := by
  unfold accepted at h
  split at h
  · split at h
    · cases h
    · split at h
      · cases h
      · rename_i hc
        obtain ⟨rfl, rfl⟩ := Prod.mk.inj (Option.some.inj h)
        simp only [Bool.or_eq_true, not_or, Bool.not_eq_true] at hc
        exact hc.2
  · cases h

theorem sound_chipUnregister {w : World σ} (h : (custody w).Sound) (nchip : Option ℕ) :
    (custody (chipUnregister w nchip)).Sound := by
  cases nchip with
  | none => exact h
  | some x =>
    cases hx : (w.nchip x).added with
    | false => simpa [chipUnregister, hx] using h
    | true =>
      obtain ⟨n, hn, -⟩ := h.held_of_marked hx
      simp only [chipUnregister, hx, ptr_of_held hn, Bool.true_and]
      rw [if_pos (show (ChipPtr.obj n != .null) = true from rfl), custody_modChip, custody_pwmchipPut, custody_pwmchipRemove]
      exact h.drop hn

/-- A registration that passes the checks and gets an error pointer from `pwmchip_alloc`. -/
def allocFails (w : World σ) : Call → Bool
  | .register a o => (accepted w a).isSome && o.alloc.isErr
  | _ => false

theorem sound_step {w w' : World σ} {c : Call} (h : (custody w).Sound)
    (hc : allocFails w c = false) (hs : step w c = some w') : (custody w').Sound := by
  obtain rfl : (exec w c).1 = w' := Option.some.inj hs
  cases c with
  | register a o =>
    cases ha : accepted w a with
    | none =>
      obtain ⟨e, he⟩ := chipRegister_rejected ha o
      rw [exec, he]
      exact h
    | some p =>
      obtain ⟨parent, x⟩ := p
      rw [exec, chipRegister_accepted ha o]
      refine sound_chipRegisterChecked h (accepted_not_added ha) parent a.npwm o fun e he => ?_
      simp [allocFails, ha, he, AllocOutcome.isErr] at hc
  | unregister nchip => exact sound_chipUnregister h nchip

theorem not_sound_step {w : World σ} {c : Call} (hc : allocFails w c = true) :
    ¬ (custody (exec w c).1).Sound := by
  cases c with
  | register a o =>
    simp only [allocFails, Bool.and_eq_true, Option.isSome_iff_exists] at hc
    obtain ⟨⟨p, ha⟩, herr⟩ := hc
    obtain ⟨e, ho⟩ : ∃ e, o.alloc = .err e := by
      cases halloc : o.alloc with
      | err e => exact ⟨e, rfl⟩
      | _ => simp [halloc, AllocOutcome.isErr] at herr
    rw [exec, chipRegister_accepted ha o]
    exact Reading.not_sound_of_misuse (setUp_of_alloc_failed ho) rfl
  | unregister nchip => cases hc

/-- The runs in which `pwmchip_alloc` returns no error pointer are the ones that keep the custody
sound. -/
theorem sound_throughout_iff (ops : ℕ → Option (ChipOps σ)) (calls : List Call) :
    Throughout step (fun w => (custody w).Sound) (init ops) calls ↔
      Along step (fun w c => allocFails w c = false) (init ops) calls := by
  refine throughout_iff_along (I := fun w => (custody w).Sound) (D := fun _ _ => True)
    (fun _ h => h) (fun _ _ _ h _ hc hs => sound_step h hc hs) (fun w c _ _ hc => ?_) calls
    (init ops) ?_ (along_true calls (init ops))
  · exact ⟨(exec w c).1, rfl, not_sound_step (by simpa using hc)⟩
  · exact Custody.sound_initial rfl (fun _ => rfl) (fun _ => rfl) (fun _ => rfl) (fun _ => rfl) rfl

end LinuxDriverFramework.NvPwm.Registration
