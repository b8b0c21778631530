import LinuxDriverFramework.Foundations.Custody
import LinuxDriverFramework.Foundations.Runs
import LinuxDriverFramework.NvBlock.Slots

/-! # The `gendisk`s of `nv_block`

`custody w` reads out of a world who holds which `gendisk`: the holders are the `nv_block_dev`s,
their pointer is `dev->disk` and their mark `dev->registered`. A failed `blk_alloc_disk` leaves its
error pointer behind, and nothing else upsets the custody.

A store through a NULL table is not counted here as misuse: it concerns no `gendisk`. The run goes
on behind it with the table as it was, where the kernel would have faulted; `SlotStores` says when
there is none. -/

namespace LinuxDriverFramework.NvBlock
open Foundations SlotProgram
set_option autoImplicit false

def DiskPtr.pointer : DiskPtr → Pointer
  | .null => .null
  | .err _ => .stray
  | .obj n => .object n

/-- `put_disk` gives a `gendisk` back; it and `del_gendisk` need one that is there. -/
def reading : Reading NvBlockDev KCall where
  pointer d := d.disk.pointer
  mark d := d.registered
  gives
    | .putDisk p _, n => .obj n = p
    | _, _ => false
  misuse
    | .delGendisk _ live => !live
    | .putDisk _ live => !live
    | _ => false

def custody (w : World) : Custody ℕ := reading.custody w.dev w.disks w.nextDisk w.calls

theorem ptr_of_held {w : World} {x n : ℕ} (h : (custody w).held x = .object n) :
    (w.dev x).disk = .obj n := by
  change (w.dev x).disk.pointer = .object n at h
  cases hp : (w.dev x).disk with
  | null => simp [hp, DiskPtr.pointer] at h
  | err e => simp [hp, DiskPtr.pointer] at h
  | obj m => simpa [hp, DiskPtr.pointer] using h

/-! ## The functions of the kernel and the assignments -/

theorem custody_modDev (w : World) (x : ℕ) (f : NvBlockDev → NvBlockDev) :
    custody (w.modDev x f) =
      (custody w).place x (f (w.dev x)).disk.pointer (f (w.dev x)).registered :=
  reading.custody_update w.dev w.disks w.nextDisk w.calls x (f (w.dev x))

theorem custody_note (w : World) (id : ℕ) (there inRange : Bool) :
    custody (program.note w id there inRange) = custody w :=
  Reading.custody_skip _ _ _ _ (fun _ => rfl) rfl

theorem custody_slotWrite (w : World) (id i : ℕ) (v : Option ℕ) :
    custody (w.slotWrite id i v) = custody w := by
  rw [slotWrite_eq]
  exact store_keeps (I := fun w' => custody w' = custody w) (fun _ _ _ h => h)
    (fun w' id there inRange h => (custody_note w' id there inRange).trans h) rfl id i v

theorem custody_allocDisk (w : World) (d : Gendisk) :
    custody (w.allocDisk d) = (custody w).issue :=
  (Reading.custody_skip _ _ _ _ (fun _ => rfl) rfl).trans
    (reading.custody_issue w.dev w.disks w.nextDisk w.calls d)

theorem custody_addDisk (w : World) (n : ℕ) : custody (w.addDisk n) = custody w :=
  (Reading.custody_skip _ _ _ _ (fun _ => rfl) rfl).trans
    (reading.custody_modify w.dev w.disks w.nextDisk w.calls n _)

theorem custody_delGendisk (w : World) (n : ℕ) :
    custody (w.delGendisk (.obj n)) = (custody w).use n :=
  (reading.custody_modify _ _ _ _ n _).trans
    (Reading.custody_use w.dev w.disks w.nextDisk w.calls (fun _ => rfl) rfl)

theorem custody_putDisk (w : World) (n : ℕ) :
    custody (w.putDisk (.obj n)) = (custody w).release n :=
  Reading.custody_release w.dev w.disks w.nextDisk w.calls
    (fun _ => by simp [reading]) rfl

theorem custody_dropDisk {w : World} {x n : ℕ} (hx : (w.dev x).disk = .obj n) :
    custody (w.dropDisk x) = ((custody w).release n).place x .null (w.dev x).registered := by
  rw [World.dropDisk, custody_modDev, hx, custody_putDisk]
  rfl

theorem custody_clearSlot (w : World) (x : ℕ) : custody (w.clearSlot x) = custody w := by
  rw [clearSlot_eq]
  exact clearSlot_keeps (I := fun w' => custody w' = custody w) (fun _ _ _ h => h)
    (fun w' id there inRange h => (custody_note w' id there inRange).trans h) rfl x

/-! ## The functions of the source -/

theorem sound_deviceRegisterDisk {w : World} {x : ℕ} (h : (custody w).Sound)
    (hx : (w.dev x).registered = false) (id : ℕ) (name : String) (a : DeviceArgs)
    (o : DeviceOutcomes) (ho : o.blkAllocDisk = none) :
    (custody (deviceRegisterDisk w id x name a o).1).Sound := by
  let n := w.nextDisk
  let w₁ := (w.allocDisk (a.gendisk x name)).modDev x fun d => { d with disk := .obj n }
  have hptr : (w₁.dev x).disk = .obj n := by simp [w₁]
  have h₁ : custody w₁ = (custody w).issue.place x (.object n) false := by
    rw [custody_modDev, custody_allocDisk]
    exact congrArg ((custody w).issue.place x (.object n)) hx
  unfold deviceRegisterDisk
  rw [ho]
  cases o.addDisk with
  | some e =>
    show (custody (w₁.dropDisk x)).Sound
    have hx₁ : (w₁.dev x).registered = false := by simpa [w₁] using hx
    rw [custody_dropDisk hptr, hx₁, h₁, Custody.release_place, Custody.place_place]
    exact h.attempt hx
  | none =>
    show (custody (((w₁.addDisk n).slotWrite id a.index (some x)).modDev x
      fun d => { d with registered := true })).Sound
    have hptr₂ : (((w₁.addDisk n).slotWrite id a.index (some x)).dev x).disk = .obj n := by
      rw [slotWrite_dev]
      exact hptr
    rw [custody_modDev, hptr₂, custody_slotWrite, custody_addDisk, h₁, Custody.place_place]
    exact h.take hx

theorem sound_deviceRegister {w : World} (h : (custody w).Sound) (a : DeviceArgs)
    (o : DeviceOutcomes) (ho : (accepted w a).isSome = true → o.blkAllocDisk = none) :
    (custody (deviceRegister w a o).1).Sound := by
  cases ha : accepted w a with
  | none =>
    obtain ⟨e, he⟩ := deviceRegister_rejected ha o
    rw [he]
    exact h
  | some p =>
    obtain ⟨id, x⟩ := p
    obtain ⟨-, -, hr⟩ := accepted_some ha
    obtain ⟨name, hname⟩ := deviceRegister_accepted ha o
    have hstore : custody (w.storeArgs id x a) = custody w :=
      reading.custody_update_same w.dev w.disks w.nextDisk w.calls x _ ⟨rfl, rfl⟩
    rw [hname]
    exact sound_deviceRegisterDisk (by rwa [hstore]) (by simpa using hr) id name a o
      (ho (by rw [ha]; rfl))

theorem held_of_alloc_failed {w : World} {a : DeviceArgs} {id x : ℕ} {o : DeviceOutcomes} {e : Errno}
    (ha : accepted w a = some (id, x)) (ho : o.blkAllocDisk = some e) :
    (custody (deviceRegister w a o).1).held x = .stray := by
  obtain ⟨name, hname⟩ := deviceRegister_accepted ha o
  rw [hname]
  simp [deviceRegisterDisk, ho, custody, Reading.custody, reading, DiskPtr.pointer]

theorem sound_deviceUnregister {w : World} (h : (custody w).Sound) (x : ℕ) :
    (custody (deviceUnregister w x)).Sound := by
  cases hx : (w.dev x).registered with
  | false => simpa only [deviceUnregister, hx, Bool.false_eq_true, if_false] using h
  | true =>
    obtain ⟨n, hn, -⟩ := h.held_of_marked hx
    have hptr : ((w.clearSlot x).dev x).disk = .obj n := by
      rw [clearSlot_dev]
      exact ptr_of_held hn
    have hptr₂ : (((w.clearSlot x).delGendisk (.obj n)).dev x).disk = .obj n := hptr
    simp only [deviceUnregister, hx, if_true, hptr, ne_eq, reduceCtorEq, not_false_eq_true]
    rw [custody_modDev, custody_dropDisk hptr₂, custody_delGendisk, custody_clearSlot,
      Custody.place_place]
    simpa [World.dropDisk, DiskPtr.pointer] using h.drop hn

theorem sound_driverRegister {w : World} (h : (custody w).Sound) (drv : Option ℕ)
    (kcalloc : Bool) : (custody (driverRegister w drv kcalloc).1).Sound := by
  unfold driverRegister
  split
  · exact h
  · split
    · exact h
    · split <;> exact h

theorem sound_driverUnregister {w : World} (h : (custody w).Sound) (drv : Option ℕ) :
    (custody (driverUnregister w drv)).Sound := by
  cases drv with
  | none => exact h
  | some id =>
    rw [driverUnregister_eq]
    exact closeTable_keeps (I := fun w => (custody w).Sound) (fun _ _ _ h => h)
      (fun _ x h => sound_deviceUnregister h x) h id

/-- A registration that gets to `blk_alloc_disk` and fails there. -/
def allocFails (w : World) : Call → Bool
  | .deviceRegister a o => (accepted w a).isSome && o.blkAllocDisk.isSome
  | _ => false

theorem sound_step {w w' : World} {c : Call} (h : (custody w).Sound) (hc : allocFails w c = false)
    (hs : step w c = some w') : (custody w').Sound := by
  obtain rfl : (exec w c).1 = w' := Option.some.inj hs
  cases c with
  | driverRegister drv kcalloc => exact sound_driverRegister h drv kcalloc
  | driverUnregister drv => exact sound_driverUnregister h drv
  | deviceRegister a o =>
    refine sound_deviceRegister h a o fun hacc => ?_
    simpa [allocFails, hacc] using hc
  | deviceUnregister dev =>
    cases dev with
    | none => exact h
    | some x => exact sound_deviceUnregister h x

theorem not_sound_step {w : World} {c : Call} (hc : allocFails w c = true) :
    ¬ (custody (exec w c).1).Sound := by
  cases c with
  | deviceRegister a o =>
    simp only [allocFails, Bool.and_eq_true, Option.isSome_iff_exists] at hc
    obtain ⟨⟨p, ha⟩, e, ho⟩ := hc
    exact Custody.not_sound_of_stray (held_of_alloc_failed ha ho)
  | _ => cases hc

theorem sound_init (cfg : ℕ → DriverConfig) : (custody (init cfg)).Sound :=
  Custody.sound_initial rfl (fun _ => rfl) (fun _ => rfl) (fun _ => rfl) (fun _ => rfl) rfl

/-- The runs in which `blk_alloc_disk` does not fail are the ones that keep the custody sound. -/
theorem sound_throughout_iff (cfg : ℕ → DriverConfig) (calls : List Call) :
    Throughout step (fun w => (custody w).Sound) (init cfg) calls ↔
      Along step (fun w c => allocFails w c = false) (init cfg) calls := by
  refine throughout_iff_along (I := fun w => (custody w).Sound) (D := fun _ _ => True)
    (fun _ h => h) (fun _ _ _ h _ hc hs => sound_step h hc hs) (fun w c _ _ hc => ?_) calls
    (init cfg) (sound_init cfg) (along_true calls (init cfg))
  exact ⟨(exec w c).1, rfl, not_sound_step (by simpa using hc)⟩

end LinuxDriverFramework.NvBlock
