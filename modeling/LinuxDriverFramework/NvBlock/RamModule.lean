import LinuxDriverFramework.Foundations.Runs
import LinuxDriverFramework.NvBlock.RamHistory
import LinuxDriverFramework.NvBlock.Registration

/-! # `nv_block_ram` from load to unload

`ram_init` and `ram_exit` of `nv_block_ram.c`, any number of times, with bios in between. The
module's `ram_driver` and `ram_dev` are the driver `id` and the device `x` of a machine that may
have other disks.

* `RamModule`: the machine, `ram_data`, and the bios answered since the load, the newest first.
* `RamModule.ramInit`, `RamModule.ramExit`: the two functions. A bio reaches the module through the
  `gendisk` that `nv_block_device_register` has added.
* `Gendisk.lets`: the block layer compares the whole of a bio with the capacity; it does not look
  at the lengths of the segments.
* `Up`, `Down`: what holds while the module is loaded and while it is not. -/

namespace LinuxDriverFramework.NvBlock
open Foundations
set_option autoImplicit false

structure Answer where
  bio : Bio
  status : BlkStatus
  bytes : List UInt8

structure RamModule where
  w : World
  /-- `ram_data`, between `kzalloc` and `kfree` -/
  data : Option RamPriv
  loaded : Bool
  answers : List Answer
  /-- a bio has run on memory that was freed -/
  faulted : Bool

/-- What the kernel functions that `ram_init` calls return. `kzalloc` brings what lies beyond the
memory it gives. -/
structure LoadOutcomes where
  kzalloc : Option (ℕ → UInt8)
  kcalloc : Bool
  device : DeviceOutcomes

def LoadOutcomes.allSucceed (o : LoadOutcomes) : Bool :=
  o.kzalloc.isSome && o.kcalloc && o.device.allSucceed

section Module

variable (id x : ℕ)

/-- The `.bss` of a module that is just inserted. -/
def World.insmod (w : World) : World :=
  (w.modDrv id fun _ => { name := none, owner := none, count := 0, devices := none }).modDev x
    fun _ =>
      { driver := none
        index := 0
        name := none
        ops := none
        priv := none
        capacity := 0
        logicalBlockSize := 0
        disk := .null
        registered := false }

def ramOps : Ops
  | .submitBio => true
  | _ => false

def ramArgs (sectors : ℕ) : DeviceArgs where
  drv := some id
  dev := some x
  index := 0
  name := some "nv_ram"
  ops := some ramOps
  priv := some x
  capacitySectors := sectors
  logicalBlockSize := ramBlockSize

/-- The fields of `ram_driver` that `ram_init` sets. -/
def World.fillRam (w : World) : World :=
  w.modDrv id fun d => { d with name := some "nv_block_ram", owner := some id, count := 1 }

/-- `ram_init`. The memory is freed again on both error labels. -/
def RamModule.ramInit (s : RamModule) (ramSizeMb : ℕ) (o : LoadOutcomes) : RamModule × Ret :=
  if ramSectors ramSizeMb = 0 then (s, .error .EINVAL)
  else
    match o.kzalloc with
    | none => (s, .error .ENOMEM)
    | some beyond =>
      match driverRegister (s.w.fillRam id) (some id) o.kcalloc with
      | (w, .error e) => ({ s with w := w, data := none }, .error e)
      | (w, .ok ()) =>
        match deviceRegister w (ramArgs id x (ramSectors ramSizeMb)) o.device with
        | (w, .error e) => ({ s with w := driverUnregister w (some id), data := none }, .error e)
        | (w, .ok ()) =>
          ({ s with w := w, data := some (NvBlock.ramInit ramSizeMb beyond) }, .ok ())

/-- `ram_exit`. -/
def RamModule.ramExit (s : RamModule) : RamModule :=
  { s with w := driverUnregister (deviceUnregister s.w x) (some id), data := none }

/-- `submit_bio` lets through what lies inside the capacity, whatever the segments are. -/
def Gendisk.lets (d : Gendisk) (b : Bio) : Bool := d.visible && decide (b.Inside d.capacity)

/-- A bio for the disk, answered by `ram_submit_bio`. -/
def RamModule.serve (s : RamModule) (b : Bio) : RamModule :=
  match s.data with
  | some p =>
    let r := submitRam p b
    { s with data := some r.priv, answers := ⟨b, r.status, r.segs.flatten⟩ :: s.answers }
  | none => { s with faulted := true }

inductive ModuleEvent
  | load (ramSizeMb : ℕ) (o : LoadOutcomes)
  | unload
  | bio (n : ℕ) (b : Bio)

def moduleStep (s : RamModule) : ModuleEvent → Option RamModule
  | .load ramSizeMb o =>
    if s.loaded then none
    else
      let r := RamModule.ramInit id x { s with w := s.w.insmod id x, answers := [] } ramSizeMb o
      some { r.1 with loaded := r.2.isOk }
  | .unload => if s.loaded then some { s.ramExit id x with loaded := false } else none
  | .bio n b =>
    match s.w.disks n with
    | some d => if d.privateData = x ∧ d.lets b then some (s.serve b) else none
    | none => none

/-- Before the first load, in the machine `w`. -/
def RamModule.start (w : World) : RamModule := ⟨w.insmod id x, none, false, [], false⟩

/-! ## What is there while the module is loaded -/

/-- `del_gendisk`, `put_disk` and the stores find what they are about. -/
def KCall.sane : KCall → Bool
  | .delGendisk _ live => live
  | .putDisk _ live => live
  | .slotWrite _ tableLive inRange => tableLive && inRange
  | _ => true

/-- The numbers from `nextDisk` on are free, and no disk is the module's. -/
structure Machine (w : World) : Prop where
  free : ∀ n, w.nextDisk ≤ n → w.disks n = none
  foreign : ∀ n d, w.disks n = some d → d.privateData ≠ x

/-- Everything but the module's own structures and disks, and the calls made since `w₀`. -/
structure Beside (w₀ w : World) : Prop where
  drv : ∀ id', id' ≠ id → w.drv id' = w₀.drv id'
  dev : ∀ y, y ≠ x → w.dev y = w₀.dev y
  next : w₀.nextDisk ≤ w.nextDisk
  calls : ∃ new, w.calls = new ++ w₀.calls ∧ ∀ k ∈ new, k.sane = true

/-- No memory, no table, no device and no disk. -/
structure Down (w₀ : World) (s : RamModule) : Prop where
  data : s.data = none
  disks : s.w.disks = w₀.disks
  table : (s.w.drv id).devices = none
  registered : (s.w.dev x).registered = false

/-- The `gendisk` of the module: its capacity is that of the memory. -/
def ramGendisk (sectors : ℕ) : Gendisk where
  privateData := x
  diskName := strscpy "nv_ram" diskNameLen
  capacity := sectors
  logicalBlockSize := ramBlockSize
  physicalBlockSize := ramBlockSize
  visible := true

/-- One new disk, over memory of its capacity that holds what the bios since the load have put
there. -/
structure Up (w₀ : World) (s : RamModule) (n ramSizeMb : ℕ) (beyond : ℕ → UInt8) : Prop where
  data : s.data = some (diskAfter (ramInit ramSizeMb beyond) (s.answers.map Answer.bio).reverse)
  inside : ∀ a ∈ s.answers, a.bio.Inside (ramSectors ramSizeMb)
  new : w₀.disks n = none
  disks : s.w.disks = Function.update w₀.disks n (some (ramGendisk x (ramSectors ramSizeMb)))
  disk : (s.w.dev x).disk = .obj n
  registered : (s.w.dev x).registered = true
  driver : (s.w.dev x).driver = some id
  index : (s.w.dev x).index = 0
  count : (s.w.drv id).count = 1
  table : (s.w.drv id).devices = some (Function.update (fun _ => none) 0 (some x))

/-- Every bio succeeded, and every read brought what was last written before it, zeros where
nothing was. -/
def Answered : List Answer → Prop
  | [] => True
  | a :: older =>
    (a.status = .ok ∧ (a.bio.dir = .read →
      a.bytes = fetch (lastWritten (older.map Answer.bio)) a.bio.offset a.bio.payload.length)) ∧
    Answered older

variable {id x}
variable {w w₀ w₁ w₂ : World} {s s' : RamModule} {n ramSizeMb : ℕ} {beyond : ℕ → UInt8}

/-! ## Beside the module -/

theorem Beside.refl (w : World) : Beside id x w w :=
  ⟨fun _ _ => rfl, fun _ _ => rfl, Nat.le_refl _, [], rfl, fun _ h => absurd h List.not_mem_nil⟩

theorem Beside.trans (h : Beside id x w w₁) (h' : Beside id x w₁ w₂) : Beside id x w w₂ where
  drv id' hid := (h'.drv id' hid).trans (h.drv id' hid)
  dev y hy := (h'.dev y hy).trans (h.dev y hy)
  next := h.next.trans h'.next
  calls := by
    obtain ⟨new, hnew, hsane⟩ := h.calls
    obtain ⟨new', hnew', hsane'⟩ := h'.calls
    refine ⟨new' ++ new, ?_, fun k hk => ?_⟩
    · rw [hnew', hnew, List.append_assoc]
    · rcases List.mem_append.mp hk with hk | hk
      · exact hsane' k hk
      · exact hsane k hk

theorem beside_modDrv (w : World) (f : NvBlockDriver → NvBlockDriver) :
    Beside id x w (w.modDrv id f) :=
  ⟨fun _ hid => Function.update_of_ne hid _ _, fun _ _ => rfl, Nat.le_refl _, [], rfl,
    fun _ h => absurd h List.not_mem_nil⟩

theorem beside_insmod (w : World) : Beside id x w (w.insmod id x) :=
  ⟨fun _ hid => Function.update_of_ne hid _ _, fun _ hy => Function.update_of_ne hy _ _,
    Nat.le_refl _, [], rfl, fun _ h => absurd h List.not_mem_nil⟩

/-! ## The functions of the framework, for this module -/

theorem slotWrite_table {t : ℕ → Option ℕ} (hcount : (w.drv id).count = 1)
    (htable : (w.drv id).devices = some t) (v : Option ℕ) :
    w.slotWrite id 0 v = { w with calls := .slotWrite id true true :: w.calls }.modDrv id
      fun d => { d with devices := some (Function.update t 0 v) } := by
  simp [World.slotWrite, htable, hcount]

theorem dropDisk_live {d : Gendisk} (hdisk : (w.dev x).disk = .obj n) (hlive : w.disks n = some d) :
    w.dropDisk x = { w with
      disks := Function.update w.disks n none
      calls := .putDisk (.obj n) true :: w.calls }.modDev x fun d => { d with disk := .null } := by
  simp only [World.dropDisk, hdisk, World.putDisk, World.setDisk, World.disk, hlive,
    Option.isSome_some]

/-- What a registered device leaves: its disk, its own fields and the table of its driver. -/
structure Added (id x sectors : ℕ) (w w' : World) : Prop where
  disks : w'.disks = Function.update w.disks w.nextDisk (some (ramGendisk x sectors))
  disk : (w'.dev x).disk = .obj w.nextDisk
  registered : (w'.dev x).registered = true
  driver : (w'.dev x).driver = some id
  index : (w'.dev x).index = 0
  count : (w'.drv id).count = 1
  table : (w'.drv id).devices = some (Function.update (fun _ => none) 0 (some x))

theorem deviceRegister_ram {sectors : ℕ} (hs : sectors ≠ 0) (hfree : w.disks w.nextDisk = none)
    (hcount : (w.drv id).count = 1) (htable : (w.drv id).devices = some fun _ => none)
    (hr : (w.dev x).registered = false) (o : DeviceOutcomes) :
    Beside id x w (deviceRegister w (ramArgs id x sectors) o).1 ∧
    ((∃ e, o.allSucceed = false ∧
        (deviceRegister w (ramArgs id x sectors) o).2 = .error e ∧
        (deviceRegister w (ramArgs id x sectors) o).1.disks = w.disks ∧
        (deviceRegister w (ramArgs id x sectors) o).1.drv = w.drv ∧
        ((deviceRegister w (ramArgs id x sectors) o).1.dev x).registered = false) ∨
      (o.allSucceed = true ∧ (deviceRegister w (ramArgs id x sectors) o).2 = .ok () ∧
        Added id x sectors w (deviceRegister w (ramArgs id x sectors) o).1)) := by
  have heq : deviceRegister w (ramArgs id x sectors) o =
      deviceRegisterDisk (w.storeArgs id x (ramArgs id x sectors)) id x "nv_ram"
        (ramArgs id x sectors) o := by
    simp [deviceRegister, ramArgs, ramOps, hcount, hs, hr, World.storeArgs]
  rw [heq]
  cases halloc : o.blkAllocDisk with
  | some e =>
    simp only [deviceRegisterDisk, halloc]
    refine ⟨⟨fun _ _ => rfl, fun y hy => ?_, Nat.le_refl _, [], rfl, by simp⟩,
      .inl ⟨e, by simp [DeviceOutcomes.allSucceed, halloc], rfl, rfl, rfl, ?_⟩⟩
    · simp [World.storeArgs, Function.update_of_ne hy]
    · simpa [World.storeArgs] using hr
  | none =>
    let w₁ := ((w.storeArgs id x (ramArgs id x sectors)).allocDisk
      ((ramArgs id x sectors).gendisk x "nv_ram")).modDev x
        fun d => { d with disk := .obj w.nextDisk }
    have hbeside : Beside id x w w₁ := by
      refine ⟨fun _ _ => rfl, fun y hy => ?_, Nat.le_succ _, [.allocDisk w.nextDisk], rfl, ?_⟩
      · simp [w₁, World.storeArgs, Function.update_of_ne hy]
      · simp [KCall.sane]
    have hptr : (w₁.dev x).disk = .obj w.nextDisk := by simp [w₁]
    have hr₁ : (w₁.dev x).registered = false := by simpa [w₁, World.storeArgs] using hr
    have hdisk₁ : w₁.disks = Function.update w.disks w.nextDisk
        (some ((ramArgs id x sectors).gendisk x "nv_ram")) := rfl
    cases hadd : o.addDisk with
    | some e =>
      have hlive : w₁.disks w.nextDisk = some ((ramArgs id x sectors).gendisk x "nv_ram") := by
        rw [hdisk₁, Function.update_self]
      have hback : Function.update w₁.disks w.nextDisk none = w.disks := by
        rw [hdisk₁, Function.update_idem, Function.update_eq_self_iff, hfree]
      have hres : deviceRegisterDisk (w.storeArgs id x (ramArgs id x sectors)) id x "nv_ram"
          (ramArgs id x sectors) o = (w₁.dropDisk x, .error e) := by
        simp only [deviceRegisterDisk, halloc, hadd]
        rfl
      rw [hres, dropDisk_live hptr hlive, hback]
      refine ⟨hbeside.trans ⟨fun _ _ => rfl, fun y hy => Function.update_of_ne hy _ _,
        Nat.le_refl _, [.putDisk (.obj w.nextDisk) true], rfl, by simp [KCall.sane]⟩,
        .inl ⟨e, by simp [DeviceOutcomes.allSucceed, hadd], rfl, rfl, rfl, ?_⟩⟩
      simpa using hr₁
    | none =>
      have hres : deviceRegisterDisk (w.storeArgs id x (ramArgs id x sectors)) id x "nv_ram"
          (ramArgs id x sectors) o = (((w₁.addDisk w.nextDisk).slotWrite id 0 (some x)).modDev x
            fun d => { d with registered := true }, .ok ()) := by
        simp only [deviceRegisterDisk, halloc, hadd]
        rfl
      rw [hres, slotWrite_table (w := w₁.addDisk w.nextDisk) hcount htable (some x)]
      refine ⟨hbeside.trans ⟨fun _ hid => Function.update_of_ne hid _ _,
        fun y hy => Function.update_of_ne hy _ _, Nat.le_refl _,
        [.slotWrite id true true, .addDisk w.nextDisk], rfl, by simp [KCall.sane]⟩,
        .inr ⟨by simp [DeviceOutcomes.allSucceed, halloc, hadd], rfl, ?_⟩⟩
      exact
        { disks := by
            change Function.update w₁.disks w.nextDisk
              ((w₁.disks w.nextDisk).map fun d => { d with visible := true }) = _
            rw [hdisk₁, Function.update_idem, Function.update_self]
            rfl
          disk := by simpa using hptr
          registered := by simp
          driver := by simp [w₁, World.storeArgs]
          index := by simp [w₁, World.storeArgs, ramArgs]
          count := by simpa [w₁, World.storeArgs] using hcount
          table := by simp }

theorem deviceUnregister_ram {d : Gendisk} (hreg : (w.dev x).registered = true)
    (hdriver : (w.dev x).driver = some id) (hindex : (w.dev x).index = 0)
    (hcount : (w.drv id).count = 1)
    (htable : (w.drv id).devices = some (Function.update (fun _ => none) 0 (some x)))
    (hdisk : (w.dev x).disk = .obj n) (hlive : w.disks n = some d) :
    Beside id x w (deviceUnregister w x) ∧
    (deviceUnregister w x).disks = Function.update w.disks n none ∧
    ((deviceUnregister w x).drv id).devices = some (fun _ => none) ∧
    ((deviceUnregister w x).dev x).registered = false := by
  have hempty : Function.update (Function.update (fun _ => none) 0 (some x)) 0 none =
      (fun _ => none : ℕ → Option ℕ) := by
    rw [Function.update_idem]
    exact Function.update_eq_self 0 (fun _ => none)
  have hclear : w.clearSlot x = { w with calls := .slotWrite id true true :: w.calls }.modDrv id
      fun d => { d with devices := some fun _ => none } := by
    simp only [World.clearSlot, hdriver, htable, Option.isSome_some, if_true, hindex]
    rw [slotWrite_table hcount htable none, hempty]
  -- the disk is found by both calls
  have hdel : (w.clearSlot x).delGendisk (.obj n) = { w.clearSlot x with
      disks := Function.update w.disks n (some { d with visible := false })
      calls := .delGendisk (.obj n) true :: (w.clearSlot x).calls } := by
    have hdisks : (w.clearSlot x).disks = w.disks := by
      rw [hclear]
      rfl
    simp only [World.delGendisk, World.setDisk, World.disk, hdisks, hlive, Option.map_some,
      Option.isSome_some]
  have hdisk₁ : ((w.clearSlot x).dev x).disk = .obj n := by rw [clearSlot_dev, hdisk]
  have hdrop := dropDisk_live (w := (w.clearSlot x).delGendisk (.obj n)) (x := x)
    (d := { d with visible := false }) (n := n) (by rw [hdel]; exact hdisk₁)
    (by rw [hdel]; exact Function.update_self _ _ _)
  have heq : deviceUnregister w x = { w.clearSlot x with
      disks := Function.update w.disks n none
      calls := .putDisk (.obj n) true :: .delGendisk (.obj n) true :: (w.clearSlot x).calls }.modDev
        x fun d => { d with disk := .null, registered := false } := by
    simp only [deviceUnregister, hreg, if_true, hdisk₁, ne_eq, reduceCtorEq, not_false_eq_true,
      hdrop]
    simp [hdel, World.modDev]
  rw [heq, hclear]
  refine ⟨⟨fun _ hid => Function.update_of_ne hid _ _, fun y hy => Function.update_of_ne hy _ _,
    Nat.le_refl _, [.putDisk (.obj n) true, .delGendisk (.obj n) true, .slotWrite id true true],
    rfl, by simp [KCall.sane]⟩, rfl, by simp, by simp⟩

theorem driverUnregister_empty (htable : (w.drv id).devices = some fun _ => none) :
    driverUnregister w (some id) = w.modDrv id fun d => { d with devices := none } := by
  have hslot : ∀ i, unregisterSlot id w i = w := fun i => by simp [unregisterSlot, htable]
  have hloop : ∀ slots : List ℕ, slots.foldl (unregisterSlot id) w = w := by
    intro slots
    induction slots with
    | nil => rfl
    | cons i slots ih => rw [List.foldl_cons, hslot, ih]
  simp [driverUnregister, htable, hloop]

/-! ## One event -/

theorem ramSectors_ne_zero (ramSizeMb : ℕ) : ramSectors ramSizeMb ≠ 0 := by
  simp only [ramSectors, wordSize, ramBlockSize]
  split <;> omega

/-- A load from a machine that has nothing of the module comes to all of it or to nothing. -/
theorem ramInit_spec (hm : Machine x w₀) (hb : Beside id x w₀ s.w) (hs : s.w.disks = w₀.disks)
    (hdata : s.data = none) (hanswers : s.answers = []) (htable : (s.w.drv id).devices = none)
    (hr : (s.w.dev x).registered = false) (ramSizeMb : ℕ) (o : LoadOutcomes) :
    Beside id x w₀ (s.ramInit id x ramSizeMb o).1.w ∧
    (s.ramInit id x ramSizeMb o).1.answers = [] ∧
    (s.ramInit id x ramSizeMb o).1.faulted = s.faulted ∧
    (s.ramInit id x ramSizeMb o).2.isOk = o.allSucceed ∧
    (o.allSucceed = false ∧ Down id x w₀ (s.ramInit id x ramSizeMb o).1 ∨
      o.allSucceed = true ∧
        ∃ n beyond, Up id x w₀ (s.ramInit id x ramSizeMb o).1 n ramSizeMb beyond) := by
  unfold RamModule.ramInit
  have hz := ramSectors_ne_zero ramSizeMb
  rw [if_neg hz]
  cases hk : o.kzalloc with
  | none =>
    have hfail : o.allSucceed = false := by simp [LoadOutcomes.allSucceed, hk]
    exact ⟨hb, hanswers, rfl, hfail.symm, .inl ⟨hfail, hdata, hs, htable, hr⟩⟩
  | some beyond =>
    let w := s.w.fillRam id
    have hbw : Beside id x w₀ w := hb.trans (beside_modDrv s.w _)
    have hvalid : ((s.w.fillRam id).drv id).invalid = false := by
      simp [World.fillRam, NvBlockDriver.invalid]
    cases hc : o.kcalloc with
    | false =>
      have hreg : driverRegister (s.w.fillRam id) (some id) false =
          (w.modDrv id fun d => { d with devices := none }, .error .ENOMEM) := by
        simp [driverRegister, hvalid, w]
      simp only [hreg]
      have hfail : o.allSucceed = false := by simp [LoadOutcomes.allSucceed, hk, hc]
      refine ⟨hbw.trans (beside_modDrv w _), hanswers, trivial, hfail.symm,
        .inl ⟨hfail, rfl, hs, ?_, hr⟩⟩
      simp
    | true =>
      let w' := w.modDrv id fun d => { d with devices := some fun _ => none }
      have hbw' : Beside id x w₀ w' := hbw.trans (beside_modDrv w _)
      have hreg : driverRegister (s.w.fillRam id) (some id) true = (w', .ok ()) := by
        simp [driverRegister, hvalid, w, w']
      have htable' : (w'.drv id).devices = some fun _ => none := by simp [w']
      have hcount' : (w'.drv id).count = 1 := by simp [w', w, World.fillRam]
      have hnew : w₀.disks w'.nextDisk = none := hm.free _ hbw'.next
      have hfree : w'.disks w'.nextDisk = none := (congrFun hs _).trans hnew
      obtain ⟨hbeside, hspec⟩ := deviceRegister_ram hz hfree hcount' htable' hr o.device
      simp only [hreg]
      generalize deviceRegister w' (ramArgs id x (ramSectors ramSizeMb)) o.device = r
        at hbeside hspec
      obtain ⟨w'', ret⟩ := r
      have hall : o.allSucceed = o.device.allSucceed := by simp [LoadOutcomes.allSucceed, hk, hc]
      rw [← hall] at hspec
      rcases hspec with ⟨e, hfail, rfl, hdisks, hdrv, hr'⟩ | ⟨hok, rfl, hadd⟩
      · have htable'' : (w''.drv id).devices = some fun _ => none := by
          rw [show w''.drv = w'.drv from hdrv]
          exact htable'
        simp only [driverUnregister_empty htable'']
        refine ⟨(hbw'.trans hbeside).trans (beside_modDrv w'' _), hanswers, trivial, hfail.symm,
          .inl ⟨hfail, rfl, hdisks.trans hs, ?_, hr'⟩⟩
        simp
      · refine ⟨hbw'.trans hbeside, hanswers, rfl, hok.symm,
          .inr ⟨hok, w'.nextDisk, beyond, ?_⟩⟩
        exact
          { data := by rw [hanswers]; rfl
            inside := by simp [hanswers]
            new := hnew
            disks := hadd.disks.trans (congrArg (Function.update · _ _) hs)
            disk := hadd.disk
            registered := hadd.registered
            driver := hadd.driver
            index := hadd.index
            count := hadd.count
            table := hadd.table }

theorem ramExit_spec (hb : Beside id x w₀ s.w) (hu : Up id x w₀ s n ramSizeMb beyond) :
    Beside id x w₀ (s.ramExit id x).w ∧ Down id x w₀ (s.ramExit id x) := by
  have hlive : s.w.disks n = some (ramGendisk x (ramSectors ramSizeMb)) := by
    rw [hu.disks, Function.update_self]
  obtain ⟨hbeside, hdisks, htable, hr⟩ := deviceUnregister_ram hu.registered hu.driver hu.index
    hu.count hu.table hu.disk hlive
  have hback : Function.update s.w.disks n none = w₀.disks := by
    rw [hu.disks, Function.update_idem, Function.update_eq_self_iff, hu.new]
  unfold RamModule.ramExit
  rw [driverUnregister_empty htable]
  refine ⟨(hb.trans hbeside).trans (beside_modDrv _ fun d => { d with devices := none }),
    ⟨rfl, hdisks.trans hback, ?_, hr⟩⟩
  simp

@[simp] theorem ramGendisk_lets {sectors : ℕ} {b : Bio} :
    (ramGendisk x sectors).lets b = true ↔ b.Inside sectors := decide_eq_true_iff

theorem Up.aligned_inside (hu : Up id x w₀ s n ramSizeMb beyond)
    (ha : ∀ a ∈ s.answers, a.bio.Aligned) : ∀ b ∈ (s.answers.map Answer.bio).reverse,
    b.Aligned ∧ b.Inside (ramSectors ramSizeMb) := by
  intro b hb
  obtain ⟨a, hmem, rfl⟩ := List.mem_map.mp (List.mem_reverse.mp hb)
  exact ⟨ha a hmem, hu.inside a hmem⟩

theorem Up.data_beyond (hu : Up id x w₀ s n ramSizeMb beyond)
    (ha : ∀ a ∈ s.answers, a.bio.Aligned) {p : RamPriv} (hp : s.data = some p) {i : ℕ}
    (hi : ramSectors ramSizeMb * ramBlockSize ≤ i) : p.data i = beyond i := by
  have hbios := hu.aligned_inside ha
  rw [← Option.some.inj (hu.data.symm.trans hp)]
  exact NvBlock.data_beyond (fun b hb => (hbios b hb).1) (fun b hb => (hbios b hb).2) hi

/-- A bio inside the disk runs on the memory, which goes on holding what was written. As long as
all segments are whole sectors, the answers are right. -/
theorem serve_spec {b : Bio} (hu : Up id x w₀ s n ramSizeMb beyond)
    (hb : b.Inside (ramSectors ramSizeMb))
    (ha : (∀ a ∈ s.answers, a.bio.Aligned) → Answered s.answers) :
    (s.serve b).w = s.w ∧ (s.serve b).loaded = s.loaded ∧ (s.serve b).faulted = s.faulted ∧
    Up id x w₀ (s.serve b) n ramSizeMb beyond ∧
    ((∀ a ∈ (s.serve b).answers, a.bio.Aligned) → Answered (s.serve b).answers) := by
  let bios := s.answers.map Answer.bio
  let before := diskAfter (ramInit ramSizeMb beyond) bios.reverse
  have hserve : s.serve b = { s with
      data := some (submitRam before b).priv
      answers := ⟨b, (submitRam before b).status, (submitRam before b).segs.flatten⟩ ::
        s.answers } := by
    simp only [RamModule.serve, hu.data]
    rfl
  rw [hserve]
  refine ⟨rfl, rfl, rfl, ?_, fun haligned => ?_⟩
  · exact
      { data := by
          rw [List.map_cons, List.reverse_cons, diskAfter_concat]
        inside := List.forall_mem_cons.mpr ⟨hb, hu.inside⟩
        new := hu.new
        disks := hu.disks
        disk := hu.disk
        registered := hu.registered
        driver := hu.driver
        index := hu.index
        count := hu.count
        table := hu.table }
  · obtain ⟨hbio, holder⟩ := List.forall_mem_cons.mp haligned
    have hbefore := hu.aligned_inside holder
    have hanswer : (submitRam before b).status = .ok ∧ (b.dir = .read →
        (submitRam before b).segs.flatten =
          fetch (lastWritten bios.reverse.reverse) b.offset b.payload.length) :=
      answered_bio (fun b' hb' => (hbefore b' hb').1) (fun b' hb' => (hbefore b' hb').2) hbio hb
    rw [List.reverse_reverse] at hanswer
    exact ⟨hanswer, ha holder⟩

/-! ## Runs -/

/-- What holds in every state: the module is all there or not at all. -/
structure Settled (id x : ℕ) (w₀ : World) (s : RamModule) : Prop where
  beside : Beside id x w₀ s.w
  faulted : s.faulted = false
  answered : (∀ a ∈ s.answers, a.bio.Aligned) → Answered s.answers
  down : s.loaded = false → Down id x w₀ s
  up : s.loaded = true → ∃ n ramSizeMb beyond, Up id x w₀ s n ramSizeMb beyond

/-- A module that is not loaded can be loaded, and is when no kernel function fails. -/
theorem settled_load (hm : Machine x w₀) (hs : Settled id x w₀ s) (hl : s.loaded = false)
    (ramSizeMb : ℕ) (o : LoadOutcomes) : ∃ s', moduleStep id x s (.load ramSizeMb o) = some s' ∧
      s'.loaded = o.allSucceed ∧ Settled id x w₀ s' := by
  have hd := hs.down hl
  obtain ⟨hb, ha, hf, hret, hphase⟩ := ramInit_spec
    (s := { s with w := s.w.insmod id x, answers := [] }) hm
    (hs.beside.trans (beside_insmod s.w)) hd.disks hd.data rfl (by simp [World.insmod])
    (by simp [World.insmod]) ramSizeMb o
  simp only [moduleStep]
  rw [if_neg (by rw [hl]; exact Bool.false_ne_true)]
  refine ⟨_, rfl, hret, hb, hf.trans hs.faulted, fun _ => ?_, fun hl' => ?_, fun hl' => ?_⟩
  · change Answered (RamModule.ramInit id x _ ramSizeMb o).1.answers
    rw [ha]
    trivial
  · obtain ⟨-, hdown⟩ | ⟨hok, -⟩ := hphase
    · exact ⟨hdown.data, hdown.disks, hdown.table, hdown.registered⟩
    · cases (hret.trans hok).symm.trans hl'
  · obtain ⟨hfail, -⟩ | ⟨-, n, beyond, hup⟩ := hphase
    · cases (hret.trans hfail).symm.trans hl'
    · exact ⟨n, ramSizeMb, beyond, ⟨hup.data, hup.inside, hup.new, hup.disks, hup.disk,
        hup.registered, hup.driver, hup.index, hup.count, hup.table⟩⟩

theorem settled_unload (hs : Settled id x w₀ s) (hl : s.loaded = true)
    (h : moduleStep id x s .unload = some s') : Settled id x w₀ s' := by
  obtain ⟨n, ramSizeMb, beyond, hu⟩ := hs.up hl
  obtain ⟨hb, hd⟩ := ramExit_spec hs.beside hu
  simp only [moduleStep, hl, if_true, Option.some.injEq] at h
  rw [← h]
  exact ⟨hb, hs.faulted, hs.answered, fun _ => ⟨hd.data, hd.disks, hd.table, hd.registered⟩,
    fun hl' => by cases hl'⟩

theorem settled_bio (hm : Machine x w₀) (hs : Settled id x w₀ s) {k : ℕ} {b : Bio}
    (h : moduleStep id x s (.bio k b) = some s') : Settled id x w₀ s' := by
  cases hk : s.w.disks k with
  | none => simp only [moduleStep, hk, reduceCtorEq] at h
  | some d =>
    simp only [moduleStep, hk] at h
    by_cases hd : d.privateData = x ∧ d.lets b = true
    · rw [if_pos hd, Option.some.injEq] at h
      cases hl : s.loaded with
      | false =>
        -- the module has no disk
        rw [(hs.down hl).disks] at hk
        exact absurd hd.1 (hm.foreign k d hk)
      | true =>
        obtain ⟨n, ramSizeMb, beyond, hu⟩ := hs.up hl
        have hkn : k = n := by
          by_contra hne
          rw [hu.disks, Function.update_of_ne hne] at hk
          exact hm.foreign k d hk hd.1
        rw [hkn, hu.disks, Function.update_self, Option.some.injEq] at hk
        subst hk
        obtain ⟨hw, hl', hf, hup, ha⟩ := serve_spec hu (ramGendisk_lets.mp hd.2) hs.answered
        rw [← h]
        refine ⟨by rw [hw]; exact hs.beside, hf.trans hs.faulted, ha, fun hno => ?_,
          fun _ => ⟨n, ramSizeMb, beyond, hup⟩⟩
        rw [hl', hl] at hno
        cases hno
    · rw [if_neg hd] at h
      cases h

theorem settled_step (hm : Machine x w₀) (s : RamModule) (e : ModuleEvent) (s' : RamModule)
    (hs : Settled id x w₀ s) (h : moduleStep id x s e = some s') : Settled id x w₀ s' := by
  cases e with
  | load ramSizeMb o =>
    cases hl : s.loaded with
    | false =>
      obtain ⟨s'', hs'', -, hset⟩ := settled_load hm hs hl ramSizeMb o
      obtain rfl := Option.some.inj (h.symm.trans hs'')
      exact hset
    | true =>
      simp only [moduleStep, hl, if_true] at h
      cases h
  | unload =>
    cases hl : s.loaded with
    | false =>
      simp only [moduleStep, hl, Bool.false_eq_true, if_false] at h
      cases h
    | true => exact settled_unload hs hl h
  | bio k b => exact settled_bio hm hs h

theorem settled_start (w : World) : Settled id x w (.start id x w) where
  beside := beside_insmod w
  faulted := rfl
  answered _ := trivial
  down _ := ⟨rfl, rfl, by simp [RamModule.start, World.insmod],
    by simp [RamModule.start, World.insmod]⟩
  up h := by cases h

end Module

/-! ## Loaded, written to, and loaded again -/

def emptyMachine : World := init fun _ => ⟨none, none, 0⟩

def allGranted : LoadOutcomes := ⟨some fun _ => 9, true, ⟨none, none⟩⟩

/-- A load, a write to sector 5, an unload, a load whose `add_disk` fails, and one that succeeds,
with two bios. -/
def loadedTwice : List ModuleEvent :=
  [.load 1 allGranted, .bio 0 ⟨.write, 5, [oneSector 7]⟩, .unload,
    .load 0 ⟨some fun _ => 9, true, ⟨none, some .ENOMEM⟩⟩, .load 2 allGranted,
    .bio 2 writeTwo, .bio 2 readSecond]

end LinuxDriverFramework.NvBlock
