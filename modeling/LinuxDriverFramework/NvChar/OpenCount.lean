import LinuxDriverFramework.NvChar.Calls
import LinuxDriverFramework.NvChar.DriverFacts

/-! # The open count and the module references over whole runs

`OpensBalanced` is the documented meaning of `opens`, "number of active file descriptors", together
with the matching statement for module references. Opens and closes keep it, and everything else
leaves the counted fields alone (`OpensFrame`), except that a registration resets `opens` and
replaces the owner (`rebinds`). A run is balanced throughout exactly when no registration resets a
device that still has an open descriptor. -/

namespace LinuxDriverFramework.NvChar
open Foundations
set_option autoImplicit false

def liveOn (w : World) (x : DevId) : ℕ := w.files.countP fun f => f.dev = x

def liveFor (w : World) (m : Module) : ℕ := w.files.countP fun f => f.owner = m

/-- `opens` counts the open descriptors of each device, and the references that
`nv_char_acquire_open` holds on each module are those of the descriptors opened under it. -/
def OpensBalanced (w : World) : Prop :=
  (∀ x, (w.dev x).opens = liveOn w x) ∧ ∀ m, w.k.refs m = liveFor w m

/-- Every descriptor's reference is on the module that the device names as its owner now. -/
def FilesOwned (w : World) : Prop :=
  ∀ f ∈ w.files, w.devOwner f.dev = some f.owner

/-! ## Calls that leave the counted fields alone -/

structure OpensFrame (w w' : World) : Prop where
  files : w'.files = w.files
  refs : w'.k.refs = w.k.refs
  opens : ∀ x, (w'.dev x).opens = (w.dev x).opens
  owner : ∀ x, (w'.dev x).owner = (w.dev x).owner
  driver : ∀ x, (w'.dev x).driver = (w.dev x).driver
  drvOwner : ∀ id, (w'.drv id).owner = (w.drv id).owner

theorem OpensFrame.refl (w : World) : OpensFrame w w := by constructor <;> intros <;> rfl

theorem OpensFrame.trans {w₁ w₂ w₃ : World} (h : OpensFrame w₁ w₂) (h' : OpensFrame w₂ w₃) :
    OpensFrame w₁ w₃ where
  files := h'.files.trans h.files
  refs := h'.refs.trans h.refs
  opens := fun x => (h'.opens x).trans (h.opens x)
  owner := fun x => (h'.owner x).trans (h.owner x)
  driver := fun x => (h'.driver x).trans (h.driver x)
  drvOwner := fun id => (h'.drvOwner id).trans (h.drvOwner id)

theorem OpensFrame.devOwner {w w' : World} (h : OpensFrame w w') (x : DevId) :
    w'.devOwner x = w.devOwner x := by
  simp only [World.devOwner, h.owner x, h.driver x, h.drvOwner]

theorem OpensFrame.balanced {w w' : World} (h : OpensFrame w w') (hb : OpensBalanced w) :
    OpensBalanced w' := by
  refine ⟨fun x => ?_, fun m => ?_⟩
  · rw [h.opens x, hb.1 x, liveOn, liveOn, h.files]
  · rw [h.refs, hb.2 m, liveFor, liveFor, h.files]

theorem OpensFrame.owned {w w' : World} (h : OpensFrame w w') (ho : FilesOwned w) :
    FilesOwned w' := by
  intro f hf
  rw [h.files] at hf
  rw [h.devOwner, ho f hf]

theorem opens_modDrv (w : World) (id : DrvId) (f : NvCharDriver → NvCharDriver)
    (hf : ∀ d, (f d).owner = d.owner) : OpensFrame w (w.modDrv id f) := by
  constructor
  case drvOwner =>
    intro id'
    by_cases h : id' = id
    · subst h; simp [hf]
    · simp [Function.update_of_ne h]
  all_goals intros; rfl

theorem opens_modDev (w : World) (x : DevId) (f : NvCharDev → NvCharDev)
    (hf : ∀ d, (f d).opens = d.opens ∧ (f d).owner = d.owner ∧ (f d).driver = d.driver) :
    OpensFrame w (w.modDev x f) := by
  have hdev : ∀ y, (w.modDev x f).dev y = w.dev y ∨ (w.modDev x f).dev y = f (w.dev y) := by
    intro y
    by_cases h : y = x
    · subst h; exact .inr (by simp)
    · exact .inl (by simp [Function.update_of_ne h])
  constructor
  case opens => intro y; rcases hdev y with h | h <;> rw [h]; exact (hf _).1
  case owner => intro y; rcases hdev y with h | h <;> rw [h]; exact (hf _).2.1
  case driver => intro y; rcases hdev y with h | h <;> rw [h]; exact (hf _).2.2
  all_goals intros; rfl

theorem opens_setK (w : World) (k : Kernel) (h : k.refs = w.k.refs) : OpensFrame w (w.setK k) := by
  constructor <;> first | exact h | (intros; rfl)

theorem opens_withDfs (w : World) (f : Debugfs) : OpensFrame w { w with dfs := f } := by
  constructor <;> intros <;> rfl

/-- The device operations leave the counted fields of every other device alone. -/
theorem DeviceFrame.opens {x : DevId} {w w' : World} (h : DeviceFrame x w w')
    (hx : (w'.dev x).opens = (w.dev x).opens ∧ (w'.dev x).owner = (w.dev x).owner ∧
      (w'.dev x).driver = (w.dev x).driver) : OpensFrame w w' where
  files := h.files
  refs := h.refs
  opens := fun y => if hy : y = x then hy ▸ hx.1 else by rw [h.dev y hy]
  owner := fun y => if hy : y = x then hy ▸ hx.2.1 else by rw [h.dev y hy]
  driver := fun y => if hy : y = x then hy ▸ hx.2.2 else by rw [h.dev y hy]
  drvOwner := fun id => by rw [h.drv id]

theorem opens_deviceUnregister (w : World) (x : DevId) : OpensFrame w (deviceUnregister w x) := by
  obtain ⟨h₁, h₂, h₃, -⟩ := deviceUnregister_keeps w x x
  exact (deviceUnregister_frame x w).opens ⟨h₁, h₂, h₃⟩

theorem opens_touchTable (w : World) (id : DrvId) : OpensFrame w (w.touchTable id) := by
  constructor <;> intros <;> rfl

theorem opens_freeTables (w : World) (dev : DeviceId) : OpensFrame w (w.freeTables dev) := by
  constructor <;> intros <;> rfl

theorem opens_dropTable (w : World) (id : DrvId) : OpensFrame w (w.dropTable id) := by
  unfold World.dropTable
  split
  · exact (unregisterSlots_rel .refl .trans opens_touchTable opens_deviceUnregister w id).trans
      (opens_modDrv _ id _ fun _ => rfl)
  · exact .refl w

theorem DriverFrame.opens {id : DrvId} {w w' : World} (h : DriverFrame id w w') :
    OpensFrame w w' where
  files := h.files
  refs := h.kernel.refs
  opens := fun x => by rw [h.dev]
  owner := fun x => by rw [h.dev]
  driver := fun x => by rw [h.dev]
  drvOwner := fun id' => if hid : id' = id then hid ▸ h.config.2.1 else by rw [h.other id' hid]

theorem opens_driverUnregister (w : World) (id : DrvId) :
    OpensFrame w (driverUnregister w (some id)) := by
  have hdfs := (opens_dropTable w id).trans (opens_withDfs _ (w.dropTable id).dfs.exit)
  simp only [driverUnregister]
  split
  · exact hdfs.trans (opens_modDrv _ id _ fun _ => rfl)
  · exact hdfs.trans <| (opens_setK _ _ (frame_dropDriver _ id _).refs).trans <|
      opens_modDrv _ id _ fun _ => rfl

theorem opens_driverUnregisterDevm (w : World) (id : DrvId) :
    OpensFrame w (driverUnregisterDevm w (some id)) :=
  (opens_dropTable w id).trans <| (opens_withDfs _ (w.dropTable id).dfs.exit).trans <|
    opens_modDrv _ id _ fun _ => rfl

theorem opens_devmDetach (w : World) (dev : DeviceId) : OpensFrame w (devmDetach w dev) := by
  refine devmDetach_rel .refl .trans (fun w f => opens_setK w { w.k with devm := f } rfl)
    (fun w a => ?_) opens_freeTables w dev
  cases a with
  | chrdevRelease dr => exact (chrdevRelease_frame 0 w dr).opens
  | classRelease id => exact (classRelease_frame id w).opens

theorem opens_debugfsAddDevice (w : World) (x : DevId) (ok : Bool) :
    OpensFrame w (w.debugfsAddDevice x ok) := by
  unfold World.debugfsAddDevice
  split
  · exact opens_modDev w x _ fun _ => ⟨rfl, rfl, rfl⟩
  · exact .refl w

theorem opens_miscUnregister (w : World) (n : ℕ) : OpensFrame w (miscUnregister w n) := by
  have hdir : ∀ w : World, OpensFrame w (w.debugfsRemoveDevice (.misc n)) := fun w =>
    (frame_debugfsRemoveDevice (.misc n) w).opens (by simp [debugfsRemoveDevice_dev_self])
  have hwait : ∀ w : World, OpensFrame w (w.waitOpens (.misc n)) := fun w =>
    (frame_waitOpens (.misc n) w).opens (by simp)
  unfold miscUnregister
  split
  · refine (opens_modDev w (.misc n) (fun d => { d with removing := true })
      fun _ => ⟨rfl, rfl, rfl⟩).trans <| (hdir _).trans <| (hwait _).trans ?_
    constructor <;> intros <;> rfl
  · exact .refl w

/-! ## Calls that reset a device -/

/-- The device whose `opens` a call sets to 0: the call is a registration that passes the checks
before `atomic_set`. -/
def rebinds (w : World) : Call → Option DevId
  | .deviceRegister a _ =>
    match a.drv, a.dev, a.name with
    | some id, some n, some _ =>
      if (w.drv id).count ≤ a.index ∨ (w.dev (.cdev n)).registered = true then none
      else some (.cdev n)
    | _, _, _ => none
  | .miscRegister a _ =>
    match a.misc, a.name, a.owner with
    | some n, some _, some _ => if w.miscRegistered n then none else some (.misc n)
    | _, _, _ => none
  | _ => none

/-- The effect of such a call on the counted fields. -/
structure RebindFrame (x : DevId) (w w' : World) : Prop where
  files : w'.files = w.files
  refs : w'.k.refs = w.k.refs
  reset : (w'.dev x).opens = 0
  dev : ∀ y, y ≠ x → w'.dev y = w.dev y
  drvOwner : ∀ id, (w'.drv id).owner = (w.drv id).owner

theorem deviceRegisterNode_opens (w : World) (id : DrvId) (x : DevId) (o : DeviceOutcomes) :
    ((deviceRegisterNode w id x o).1.dev x).opens = (w.dev x).opens := by
  rw [deviceRegisterNode_dev]
  cases (deviceRegisterNode w id x o).2 <;> rfl

theorem rebind_deviceRegister {w : World} {a : DeviceArgs} {o : DeviceOutcomes} {x : DevId}
    (h : rebinds w (.deviceRegister a o) = some x) :
    RebindFrame x w (deviceRegisterParent w a o).1 := by
  simp only [rebinds] at h
  split at h
  · rename_i id n s hid hn hs
    split at h
    · cases h
    · rename_i hc
      rw [not_or] at hc
      obtain rfl := Option.some.inj h
      have hframe := deviceRegisterParent_frame n w a o hn
      refine ⟨hframe.files, hframe.refs, ?_, hframe.dev, fun id' => by rw [hframe.drv id']⟩
      simp only [deviceRegisterParent, hid, hn, hs, if_neg hc.1, if_neg hc.2]
      split
      · simp [NvCharDev.bind]
      · rw [deviceRegisterNode_opens]
        simp [NvCharDev.bind]
  · cases h

theorem rebind_miscRegister {w : World} {a : MiscArgs} {o : MiscOutcomes} {x : DevId}
    (h : rebinds w (.miscRegister a o) = some x) : RebindFrame x w (miscRegister w a o).1 := by
  simp only [rebinds] at h
  split at h
  · rename_i n s m hn hs hm
    split at h
    · cases h
    · rename_i hr
      obtain rfl := Option.some.inj h
      have hdir := fun w : World => frame_debugfsAddDevice (.misc n) w o.debugfsDir
      have hopens := fun w : World => opens_debugfsAddDevice w (.misc n) o.debugfsDir
      simp only [miscRegister, hn, hs, hm, if_neg hr]
      cases o.miscRegister with
      | some e =>
        constructor
        case dev => intro y hy; simp [Function.update_of_ne hy]
        all_goals intros; simp [NvCharDev.miscBind]
      | none =>
        constructor
        case files => exact (hdir _).files
        case refs => exact (hdir _).refs
        case reset =>
          rw [(hopens _).opens]
          simp [NvCharDev.miscBind]
        case dev =>
          intro y hy
          rw [(hdir _).dev y hy]
          simp [Function.update_of_ne hy]
        case drvOwner =>
          intro id
          rw [(hdir _).drv id]
          simp
  · cases h

/-! ## Opening and closing -/

theorem acquireOpen_ok {w w' : World} {x : DevId} {get : Bool} {m : Module}
    (h : acquireOpen w x get = (w', .ok m)) :
    (w.dev x).removing = false ∧ w.devOwner x = some m ∧
    w' = (w.setK (w.k.addRef m 1)).modDev x fun d => { d with opens := d.opens + 1 } := by
  unfold acquireOpen at h
  split at h
  · cases h
  · rename_i hr
    split at h
    · cases h
    · rename_i m' hm
      split at h
      · cases h
      · simp only [World.setK_dev, if_neg hr, Prod.mk.injEq, Except.ok.injEq] at h
        obtain ⟨rfl, rfl⟩ := h
        exact ⟨by simpa using hr, hm, rfl⟩

theorem acquireOpen_error {w w' : World} {x : DevId} {get : Bool} {e : Errno}
    (h : acquireOpen w x get = (w', .error e)) : w' = w := by
  unfold acquireOpen at h
  split at h
  · exact (Prod.mk.inj h).1.symm
  · rename_i hr
    split at h
    · exact (Prod.mk.inj h).1.symm
    · split at h
      · exact (Prod.mk.inj h).1.symm
      · simp only [World.setK_dev, if_neg hr] at h
        cases h

/-- The world with `opens` of `x` and the references on `m` moved by `n`. -/
def World.shift (w : World) (x : DevId) (m : Module) (n : ℤ) : World :=
  (w.setK (w.k.addRef m n)).modDev x fun d => { d with opens := d.opens + n }

theorem shift_opens (w : World) (x y : DevId) (m : Module) (n : ℤ) :
    ((w.shift x m n).dev y).opens = (w.dev y).opens + if y = x then n else 0 := by
  by_cases h : y = x
  · subst h; simp [World.shift]
  · simp [World.shift, h]

theorem shift_refs (w : World) (x : DevId) (m m' : Module) (n : ℤ) :
    (w.shift x m n).k.refs m' = w.k.refs m' + if m' = m then n else 0 := by
  by_cases h : m' = m
  · subst h; simp [World.shift, Kernel.addRef]
  · simp [World.shift, Kernel.addRef, h]

@[simp] theorem shift_devOwner (w : World) (x y : DevId) (m : Module) (n : ℤ) :
    (w.shift x m n).devOwner y = w.devOwner y := by
  by_cases h : y = x
  · subst h; simp [World.shift, World.devOwner]
  · simp [World.shift, World.devOwner, Function.update_of_ne h]

theorem releaseOpen_eq {w : World} {x : DevId} {m : Module} (h : w.devOwner x = some m) :
    releaseOpen w x = w.shift x m (-1) := by
  simp only [releaseOpen, h, World.shift]
  rfl

/-- A balanced world stays balanced when a descriptor and its weight come or go together. -/
theorem balanced_of_shift {w w' : World} {f : File} {n : ℤ} (hb : OpensBalanced w)
    (hdev : ∀ x, (w'.dev x).opens = (w.dev x).opens + if x = f.dev then n else 0)
    (hrefs : ∀ m, w'.k.refs m = w.k.refs m + if m = f.owner then n else 0)
    (hlive : ∀ p : File → Bool, (w'.files.countP p : ℤ) = w.files.countP p + if p f then n else 0) :
    OpensBalanced w' := by
  constructor
  · intro x
    rw [hdev, hb.1 x, liveOn, liveOn, hlive]
    simp only [decide_eq_true_eq, eq_comm (a := x)]
  · intro m
    rw [hrefs, hb.2 m, liveFor, liveFor, hlive]
    simp only [decide_eq_true_eq, eq_comm (a := m)]

theorem countP_cons_int (p : File → Bool) (f : File) (l : List File) :
    ((f :: l).countP p : ℤ) = l.countP p + if p f then 1 else 0 := by
  rw [List.countP_cons]
  split <;> simp

theorem countP_erase_int {f : File} {l : List File} (h : f ∈ l) (p : File → Bool) :
    ((l.erase f).countP p : ℤ) = l.countP p + if p f then -1 else 0 := by
  have hperm := (List.perm_cons_erase h).countP_eq p
  rw [List.countP_cons] at hperm
  by_cases hp : p f = true
  · simp only [hp, if_true] at hperm ⊢
    omega
  · simp only [hp] at hperm ⊢
    simp only [Bool.false_eq_true, if_false] at hperm ⊢
    omega

theorem charOpen_balanced (w : World) (x : DevId) (o : OpenOutcomes) (hb : OpensBalanced w)
    (ho : FilesOwned w) :
    OpensBalanced (charOpen w x o).1 ∧ FilesOwned (charOpen w x o).1 := by
  unfold charOpen
  split
  · rename_i w' e h
    rw [acquireOpen_error h]
    exact ⟨hb, ho⟩
  · rename_i w' m h
    obtain ⟨-, hm, hw'⟩ := acquireOpen_ok h
    have hshift : w' = w.shift x m 1 := hw'
    subst hshift
    split
    · -- `ops->open` failed: the release takes back what the acquire took
      have howner : (w.shift x m 1).devOwner x = some m := by rw [shift_devOwner, hm]
      have hsame : OpensFrame w (releaseOpen (w.shift x m 1) x) := by
        rw [releaseOpen_eq howner]
        constructor
        case refs =>
          funext m'
          rw [shift_refs, shift_refs]
          split <;> omega
        case opens => intro y; rw [shift_opens, shift_opens]; split <;> omega
        case owner =>
          intro y
          by_cases hy : y = x
          · subst hy; simp [World.shift]
          · simp [World.shift, Function.update_of_ne hy]
        case driver =>
          intro y
          by_cases hy : y = x
          · subst hy; simp [World.shift]
          · simp [World.shift, Function.update_of_ne hy]
        all_goals intros; rfl
      exact ⟨hsame.balanced hb, hsame.owned ho⟩
    · constructor
      · exact balanced_of_shift (f := ⟨x, m⟩) hb (fun y => shift_opens w x y m 1)
          (fun m' => shift_refs w x m m' 1) (fun p => countP_cons_int p _ _)
      · intro f hf
        change (w.shift x m 1).devOwner f.dev = some f.owner
        rw [shift_devOwner]
        rcases List.mem_cons.mp hf with rfl | hf
        · exact hm
        · exact ho f hf

theorem charRelease_balanced (w : World) (f : File) (r : Ret) (hf : f ∈ w.files)
    (hb : OpensBalanced w) (ho : FilesOwned w) :
    OpensBalanced (charRelease w f r).1 ∧ FilesOwned (charRelease w f r).1 := by
  have howner : ({ w with files := w.files.erase f } : World).devOwner f.dev = some f.owner :=
    ho f hf
  simp only [charRelease, releaseOpen_eq howner]
  constructor
  · exact balanced_of_shift (f := f) hb (fun y => shift_opens _ f.dev y f.owner (-1))
      (fun m' => shift_refs _ f.dev f.owner m' (-1)) (fun p => countP_erase_int hf p)
  · intro g hg
    rw [shift_devOwner]
    exact ho g (List.mem_of_mem_erase hg)

/-! ## Every call -/

theorem Binds.rebinds {w : World} {id : DrvId} {i n : ℕ} {a : DeviceArgs} (h : Binds w id i n a)
    (o : DeviceOutcomes) : rebinds w (.deviceRegister a o) = some (.cdev n) := by
  obtain ⟨s, hs⟩ := Option.isSome_iff_exists.mp h.name
  have hcount : a.index < (w.drv id).count := h.index ▸ h.count
  simp only [NvChar.rebinds, h.drv, h.dev, hs, h.free, Bool.false_eq_true, or_false]
  rw [if_neg (by omega)]

theorem rebinds_none_deviceRegister {w : World} {a : DeviceArgs} {o : DeviceOutcomes}
    (h : rebinds w (.deviceRegister a o) = none) : (deviceRegisterParent w a o).1 = w := by
  obtain ⟨heq, -⟩ | ⟨id, n, hbinds, -⟩ := deviceRegisterParent_inv w a o
  · exact heq
  · rw [hbinds.rebinds] at h
    cases h

theorem rebinds_none_miscRegister {w : World} {a : MiscArgs} {o : MiscOutcomes}
    (h : rebinds w (.miscRegister a o) = none) : (miscRegister w a o).1 = w := by
  simp only [rebinds] at h
  unfold miscRegister
  split
  · rename_i n s m hn hs hm
    simp only [hn, hs, hm] at h
    split at h
    · rename_i hr
      rw [if_pos hr]
    · cases h
  · rfl

theorem exec_opens {w : World} {c : Call} (hr : rebinds w c = none)
    (ho : ∀ x o, c ≠ .charOpen x o) (hc : ∀ f r, c ≠ .charRelease f r) :
    OpensFrame w (exec w c).1 := by
  cases c with
  | driverRegister drv o =>
    cases drv with
    | none => exact .refl w
    | some id => exact (driverRegister_frame w id o).opens
  | driverUnregister drv =>
    cases drv with
    | none => exact .refl w
    | some id => exact opens_driverUnregister w id
  | driverRegisterDevm dev drv o others =>
    cases drv with
    | none => cases dev <;> exact .refl w
    | some id => exact (driverRegisterDevm_frame w dev id o others).opens
  | driverUnregisterDevm drv =>
    cases drv with
    | none => exact .refl w
    | some id => exact opens_driverUnregisterDevm w id
  | devmDetach dev => exact opens_devmDetach w dev
  | deviceRegister a o =>
    rw [exec, rebinds_none_deviceRegister hr]
    exact .refl w
  | deviceUnregister dev =>
    cases dev with
    | none => exact .refl w
    | some n => exact opens_deviceUnregister w (.cdev n)
  | charOpen x o => exact absurd rfl (ho x o)
  | charRelease f r => exact absurd rfl (hc f r)
  | miscRegister a o =>
    rw [exec, rebinds_none_miscRegister hr]
    exact .refl w
  | miscUnregister misc =>
    cases misc with
    | none => exact .refl w
    | some n => exact opens_miscUnregister w n
  | otherAcquire a => exact (interfere_frame 0 w [a]).opens

theorem exec_rebind {w : World} {c : Call} {x : DevId} (h : rebinds w c = some x) :
    RebindFrame x w (exec w c).1 := by
  cases c with
  | deviceRegister a o => exact rebind_deviceRegister h
  | miscRegister a o => exact rebind_miscRegister h
  | _ => cases h

theorem liveOn_eq_zero {w : World} {x : DevId} : liveOn w x = 0 ↔ ∀ f ∈ w.files, f.dev ≠ x := by
  simp [liveOn, List.countP_eq_zero]

theorem RebindFrame.balanced {x : DevId} {w w' : World} (h : RebindFrame x w w')
    (hx : liveOn w x = 0) (hb : OpensBalanced w) (ho : FilesOwned w) :
    OpensBalanced w' ∧ FilesOwned w' := by
  refine ⟨⟨fun y => ?_, fun m => ?_⟩, fun f hf => ?_⟩
  · rw [liveOn, h.files, ← liveOn]
    by_cases hy : y = x
    · subst hy
      rw [h.reset, hx]
      rfl
    · rw [h.dev y hy, hb.1 y]
  · rw [h.refs, hb.2 m, liveFor, liveFor, h.files]
  · rw [h.files] at hf
    have hne := liveOn_eq_zero.mp hx f hf
    have hsame := ho f hf
    simp only [World.devOwner, h.dev f.dev hne, h.drvOwner] at hsame ⊢
    exact hsame

theorem RebindFrame.unbalanced {x : DevId} {w w' : World} (h : RebindFrame x w w')
    (hx : liveOn w x ≠ 0) : ¬ OpensBalanced w' := by
  intro hb
  have hopens := hb.1 x
  rw [h.reset, liveOn, h.files, ← liveOn] at hopens
  omega

/-- A registration that reaches the reset finds no open descriptor of its device. -/
def IdleRebind (w : World) (c : Call) : Prop := ∀ x ∈ rebinds w c, liveOn w x = 0

instance (w : World) (c : Call) : Decidable (IdleRebind w c) :=
  inferInstanceAs (Decidable (∀ x ∈ rebinds w c, liveOn w x = 0))

theorem step_balanced {w w' : World} {c : Call} (hi : OpensBalanced w ∧ FilesOwned w)
    (hg : IdleRebind w c) (hs : step w c = some w') : OpensBalanced w' ∧ FilesOwned w' := by
  have hexec : OpensBalanced (exec w c).1 ∧ FilesOwned (exec w c).1 := by
    cases hr : rebinds w c with
    | some x => exact (exec_rebind hr).balanced (hg x hr) hi.1 hi.2
    | none =>
      cases c with
      | charOpen x o => exact charOpen_balanced w x o hi.1 hi.2
      | charRelease f r =>
        have hf : f ∈ w.files := by
          by_contra hn
          simp [step, hn] at hs
        exact charRelease_balanced w f r hf hi.1 hi.2
      | _ =>
        have hframe := exec_opens hr (by simp) (by simp)
        exact ⟨hframe.balanced hi.1, hframe.owned hi.2⟩
  rw [step_eq_some hs]
  exact hexec

theorem step_unbalanced {w : World} {c : Call} (hg : ¬ IdleRebind w c) :
    ∃ w', step w c = some w' ∧ ¬ OpensBalanced w' := by
  simp only [IdleRebind, not_forall] at hg
  obtain ⟨x, hx, hlive⟩ := hg
  have hstep : step w c = some (call w c) := by
    cases c with
    | charRelease f r => cases hx
    | _ => rfl
  exact ⟨call w c, hstep, (exec_rebind hx).unbalanced hlive⟩

theorem init_balanced (cfg : DrvId → DriverConfig) :
    OpensBalanced (init cfg) ∧ FilesOwned (init cfg) :=
  ⟨⟨fun _ => rfl, fun _ => rfl⟩, fun f hf => by cases hf⟩

/-- Exactly the runs in which no registration resets a device with open descriptors are balanced
in all their states. -/
theorem balanced_iff_idleRebind (cfg : DrvId → DriverConfig) (calls : List Call) :
    Throughout step OpensBalanced (init cfg) calls ↔ Along step IdleRebind (init cfg) calls :=
  throughout_iff_along (D := fun _ _ => True) (fun _ hi => hi.1)
    (fun _ _ _ hi _ hg hs => step_balanced hi hg hs) (fun _ _ _ _ hg => step_unbalanced hg)
    calls (init cfg) (init_balanced cfg) (along_true calls (init cfg))

/-! ## A late close -/

def lateDriver : DrvId → DriverConfig := fun _ =>
  { name := some "nv_char", owner := some 0, count := 1, major := 0, devMode := 0 }

def lateDevice : Call :=
  .deviceRegister
    { drv := some 0, dev := some 0, index := 0, name := some "echo", ops := none, priv := none }
    { cdevAdd := none, deviceCreate := none, deviceCreateFile := none, debugfsDir := true }

/-- The device is unregistered by timeout under an open descriptor, and registered again. -/
def lateClose : List Call :=
  [ .driverRegister (some 0)
      { kcalloc := true, region := none, dynMajor := 511, classCreate := none, debugfsRoot := true },
    lateDevice,
    .charOpen (.cdev 0) { tryModuleGet := true, opsOpen := none },
    .deviceUnregister (some 0),
    lateDevice,
    .charRelease ⟨.cdev 0, 0⟩ (.ok ()) ]

/-- The second registration forgets the descriptor, and its close makes `opens` negative. -/
theorem opens_negative_after_late_close :
    ∃ w, run step (init lateDriver) lateClose = some w ∧ (w.dev (.cdev 0)).registered = true ∧
      (w.dev (.cdev 0)).opens = -1 ∧ ¬ OpensBalanced w := by
  have hend : (run step (init lateDriver) lateClose).map (fun w =>
      ((w.dev (.cdev 0)).registered, (w.dev (.cdev 0)).opens)) = some (true, -1) := by decide
  obtain ⟨w, hrun, hw⟩ := Option.map_eq_some_iff.mp hend
  obtain ⟨hreg, hopens⟩ := Prod.mk.inj hw
  refine ⟨w, hrun, hreg, hopens, fun hb => ?_⟩
  have hlive := hb.1 (.cdev 0)
  rw [hopens] at hlive
  omega

end LinuxDriverFramework.NvChar
