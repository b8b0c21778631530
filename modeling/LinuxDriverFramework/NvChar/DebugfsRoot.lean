import LinuxDriverFramework.NvChar.SlotRuns

/-! # The debugfs root shared by drivers and misc devices

The root directory is created by the registration that finds the counter at 0 and removed by the
unregistration that takes it back to 0. `Debugfs.Counts` says that the counter is the number of
outstanding registrations, or 0 with no root; `DirsOk` says that every device directory belongs to a
live device and lies below the present root.

A failed creation leaves the counter at 0 under a registration that is still outstanding. As long as
a later creation never succeeds before such registrations are gone (`rootFresh`), the counter is
right again when there is a root to protect. -/

namespace LinuxDriverFramework.NvChar
open Foundations
set_option autoImplicit false

/-- A device between its registration and its unregistration. -/
def World.live (w : World) : DevId → Bool
  | .cdev n => (w.dev (.cdev n)).registered
  | .misc n => w.miscRegistered n

/-! ## The counter -/

/-- With `n` registrations outstanding: they are all counted, or there is no root. -/
structure Debugfs.Counts (f : Debugfs) (n : ℕ) : Prop where
  removed : ∀ r ∈ f.removed, r < f.nextRoot
  count : (f.refcnt = 0 ∧ f.root = none) ∨
    (f.refcnt = n ∧ 0 < n ∧ ∃ r, f.root = some r ∧ r < f.nextRoot ∧ r ∉ f.removed)

theorem Debugfs.Counts.root_none {f : Debugfs} {n : ℕ} (h : f.Counts n) (hz : f.refcnt = 0) :
    f.root = none := by
  rcases h.count with ⟨-, hr⟩ | ⟨hn, hpos, -⟩
  · exact hr
  · omega

theorem Debugfs.Counts.alive {f : Debugfs} {n : ℕ} (h : f.Counts n) (r : ℕ) (hr : f.root = some r) :
    r ∉ f.removed := by
  rcases h.count with ⟨-, hn⟩ | ⟨-, -, r', hr', -, hmem⟩
  · rw [hn] at hr
    cases hr
  · rw [hr] at hr'
    obtain rfl := Option.some.inj hr'
    exact hmem

/-- One registration more. A root is created only when none is outstanding. -/
theorem Debugfs.Counts.init {f : Debugfs} {n : ℕ} (h : f.Counts n) {ok : Bool}
    (hfresh : f.refcnt = 0 → ok = true → n = 0) : (f.init ok).Counts (n + 1) := by
  unfold Debugfs.init
  by_cases hz : f.refcnt = 0
  · rw [if_neg (by simpa using hz)]
    cases ok with
    | false => exact ⟨h.removed, .inl ⟨rfl, rfl⟩⟩
    | true =>
      have hn := hfresh hz rfl
      refine ⟨fun r hr => Nat.lt_succ_of_lt (h.removed r hr), .inr ⟨by simp [hn], by omega, ?_⟩⟩
      refine ⟨f.nextRoot, rfl, Nat.lt_succ_self _, fun hr => ?_⟩
      exact absurd (h.removed _ hr) (lt_irrefl _)
  · rw [if_pos hz]
    refine ⟨h.removed, .inr ?_⟩
    rcases h.count with ⟨hz', -⟩ | ⟨hc, -, hr⟩
    · exact absurd hz' hz
    · exact ⟨congrArg (· + 1) hc, by omega, hr⟩

theorem Debugfs.Counts.exit {f : Debugfs} {n : ℕ} (h : f.Counts (n + 1)) : f.exit.Counts n := by
  unfold Debugfs.exit
  rcases h.count with ⟨hz, hr⟩ | ⟨hc, -, r, hr, hlt, hmem⟩
  · rw [if_pos hz]
    exact ⟨h.removed, .inl ⟨hz, hr⟩⟩
  · rw [if_neg (by omega)]
    split
    · refine ⟨?_, .inl ⟨rfl, rfl⟩⟩
      rw [hr]
      intro r' hr'
      rcases Finset.mem_insert.mp hr' with rfl | hr'
      · exact hlt
      · exact h.removed r' hr'
    · rename_i hne
      have hn : f.refcnt - 1 = n := by omega
      exact ⟨h.removed, .inr ⟨hn, by omega, r, hr, hlt, hmem⟩⟩

theorem Debugfs.Counts.exit_root {f : Debugfs} {n : ℕ} (h : f.Counts (n + 1)) (hn : n ≠ 0) :
    f.exit.root = f.root := by
  unfold Debugfs.exit
  rcases h.count with ⟨hz, -⟩ | ⟨hc, -⟩
  · rw [if_pos hz]
  · rw [if_neg (by omega), if_neg (by omega)]

theorem Debugfs.Counts.init_root {f : Debugfs} {n : ℕ} (h : f.Counts n) (ok : Bool) :
    (f.init ok).root = f.root ∨ f.root = none := by
  unfold Debugfs.init
  by_cases hz : f.refcnt = 0
  · exact .inr (h.root_none hz)
  · rw [if_pos hz]
    exact .inl rfl

theorem Debugfs.Counts.init_exit_root {f : Debugfs} {n : ℕ} (h : f.Counts n) (ok : Bool) :
    (f.init ok).exit.root = f.root := by
  unfold Debugfs.init
  by_cases hz : f.refcnt = 0
  · rw [if_neg (by simpa using hz), h.root_none hz]
    cases ok <;> rfl
  · rw [if_pos hz]
    simp [Debugfs.exit, hz]

/-! ## The directories -/

structure DirsOk (w : World) : Prop where
  dirs : ∀ x, (w.dev x).debugfsDir = none ∨
    (w.live x = true ∧ (w.dev x).debugfsDir = w.dfs.root)
  alive : ∀ r, w.dfs.root = some r → r ∉ w.dfs.removed
  removes : ∀ c ∈ w.k.dirCalls, ∃ x, c = .dirRemove x true

structure DirFrame (w w' : World) : Prop where
  live : ∀ x, w'.live x = w.live x
  dir : ∀ x, (w'.dev x).debugfsDir = (w.dev x).debugfsDir
  dirCalls : w'.k.dirCalls = w.k.dirCalls

theorem DirFrame.trans {w₁ w₂ w₃ : World} (h : DirFrame w₁ w₂) (h' : DirFrame w₂ w₃) :
    DirFrame w₁ w₃ :=
  ⟨fun x => (h'.live x).trans (h.live x), fun x => (h'.dir x).trans (h.dir x),
    h'.dirCalls.trans h.dirCalls⟩

/-- The root may be replaced while no device has a directory. -/
theorem DirFrame.ok {w w' : World} (h : DirFrame w w') (hd : DirsOk w)
    (halive : ∀ r, w'.dfs.root = some r → r ∉ w'.dfs.removed)
    (hroot : w'.dfs.root = w.dfs.root ∨ ∀ x, (w.dev x).debugfsDir = none) : DirsOk w' := by
  refine ⟨fun x => ?_, halive, ?_⟩
  · rw [h.dir, h.live]
    rcases hroot with hr | hnone
    · rw [hr]
      exact hd.dirs x
    · exact .inl (hnone x)
  · rw [h.dirCalls]
    exact hd.removes

theorem DirFrame.same {w w' : World} (h : DirFrame w w') (hd : DirsOk w) (hdfs : w'.dfs = w.dfs) :
    DirsOk w' := by
  refine h.ok hd ?_ (.inl (by rw [hdfs]))
  rw [hdfs]
  exact hd.alive

theorem DriverFrame.dir {id : DrvId} {w w' : World} (h : DriverFrame id w w') : DirFrame w w' where
  live := fun x => by cases x <;> simp [World.live, h.dev, h.miscRegistered]
  dir := fun x => by rw [h.dev]
  dirCalls := h.kernel.dirCalls

theorem dirFrame_withOpens (w : World) (x : DevId) (n : ℤ) (r : Module → ℤ) (l : List File) :
    DirFrame w (w.withOpens x n r l) := by
  have hdev : ∀ y, ((w.withOpens x n r l).dev y).registered = (w.dev y).registered ∧
      ((w.withOpens x n r l).dev y).debugfsDir = (w.dev y).debugfsDir := by
    intro y
    by_cases hy : y = x
    · subst hy; simp [World.withOpens]
    · simp [World.withOpens, Function.update_of_ne hy]
  refine ⟨fun y => ?_, fun y => (hdev y).2, rfl⟩
  cases y with
  | cdev m => exact (hdev (.cdev m)).1
  | misc m => rfl

/-! ### Removing a directory -/

theorem debugfsRemoveDevice_dirs {w : World} {x : DevId} {r : Option ℕ}
    (hdir : (w.dev x).debugfsDir = none ∨ (w.dev x).debugfsDir = r)
    (halive : ∀ n, r = some n → n ∉ w.dfs.removed) :
    (w.debugfsRemoveDevice x).k.dirCalls = w.k.dirCalls ∨
    (w.debugfsRemoveDevice x).k.dirCalls = .dirRemove x true :: w.k.dirCalls := by
  unfold World.debugfsRemoveDevice
  split
  · rename_i n hn
    refine .inr ?_
    have hr : r = some n := by
      rcases hdir with h | h
      · rw [h] at hn; cases hn
      · rw [← h, hn]
    simp [Kernel.dirCalls, List.filter_cons, KCall.ofDir, halive n hr]
  · exact .inl rfl

theorem dirCalls_clearSlot (w : World) (x : DevId) :
    (w.clearSlot x).k.dirCalls = w.k.dirCalls := by
  unfold World.clearSlot
  split
  · split
    · rw [slotWrite_k]
      rfl
    · rfl
  · rfl

theorem dirCalls_deviceDestroy (k : Kernel) (x : DevId) (cls : ClassPtr) (devt : ℕ) :
    (k.deviceDestroy x cls devt).dirCalls = k.dirCalls := by
  cases cls <;> rfl

theorem dirCalls_destroyNode (w : World) (x : DevId) :
    (w.destroyNode x).k.dirCalls = w.k.dirCalls := by
  unfold World.destroyNode
  split
  · exact dirCalls_deviceDestroy _ x _ _
  · rfl

theorem dirCalls_waitOpens (w : World) (x : DevId) :
    (w.waitOpens x).k.dirCalls = w.k.dirCalls := by
  unfold World.waitOpens
  split <;> rfl

theorem DirsOk.deviceUnregister {w : World} (h : DirsOk w) (x : DevId) :
    DirsOk (deviceUnregister w x) := by
  have hf := deviceUnregister_frame x w
  cases hr : (w.dev x).registered with
  | false => rwa [deviceUnregister_of_not hr]
  | true =>
    refine ⟨fun y => ?_, ?_, ?_⟩
    · by_cases hy : y = x
      · subst hy
        obtain ⟨v, hv⟩ := deviceUnregister_dev_self hr
        exact .inl (by rw [hv])
      · have hlive : (NvChar.deviceUnregister w x).live y = w.live y := by
          cases y <;> simp [World.live, hf.miscRegistered, hf.dev _ hy]
        rw [hf.dev y hy, hlive, hf.dfs]
        exact h.dirs y
    · rw [hf.dfs]
      exact h.alive
    · let w₁ := (w.modDev x fun d => { d with removing := true }).clearSlot x
      have hcalls : (NvChar.deviceUnregister w x).k.dirCalls =
          (w₁.debugfsRemoveDevice x).k.dirCalls := by
        simp only [NvChar.deviceUnregister, hr, if_true]
        change (((w₁.debugfsRemoveDevice x).destroyNode x).waitOpens x).k.dirCalls = _
        rw [dirCalls_waitOpens, dirCalls_destroyNode]
      have hdir₁ : (w₁.dev x).debugfsDir = none ∨ (w₁.dev x).debugfsDir = w.dfs.root := by
        rcases h.dirs x with hx | ⟨-, hx⟩
        · exact .inl (by simp [w₁, hx])
        · exact .inr (by simp [w₁, hx])
      have hdfs₁ : w₁.dfs = w.dfs := ((frame_modDev x w _).trans (frame_clearSlot x _)).dfs
      have hbase : w₁.k.dirCalls = w.k.dirCalls := dirCalls_clearSlot _ x
      rw [hcalls]
      rcases debugfsRemoveDevice_dirs hdir₁ (by rw [hdfs₁]; exact h.alive) with hc | hc
      · rw [hc, hbase]
        exact h.removes
      · rw [hc, hbase]
        intro c hmem
        rcases List.mem_cons.mp hmem with rfl | hmem
        · exact ⟨x, rfl⟩
        · exact h.removes c hmem

/-! ### Adding a directory -/

theorem deviceRegisterNode_dirCalls (w : World) (id : DrvId) (x : DevId) (o : DeviceOutcomes) :
    (deviceRegisterNode w id x o).1.k.dirCalls = w.k.dirCalls := by
  cases hk : w.k.deviceCreate (w.drv id).cls (w.dev x).devt o.deviceCreate with
  | error e =>
    simp only [deviceRegisterNode, hk]
    rfl
  | ok k =>
    obtain ⟨c, -, -, hk'⟩ := deviceCreate_ok hk
    have hcalls : k.dirCalls = w.k.dirCalls := by rw [hk']; rfl
    cases hf : o.deviceCreateFile with
    | some e =>
      simp only [deviceRegisterNode, hk, hf]
      exact (dirCalls_deviceDestroy k x _ _).trans hcalls
    | none =>
      simp only [deviceRegisterNode, hk, hf]
      let w₁ := (w.setK k).modDev x fun d => { d with device := some (w.dev x).devt }
      have hadd : (w₁.debugfsAddDevice x o.debugfsDir).k = k := (debugfsAddDevice_k w₁ x _).1
      change ((w₁.debugfsAddDevice x o.debugfsDir).slotWrite id (w.dev x).index
        (some x)).k.dirCalls = _
      rw [slotWrite_k, hadd, ← hcalls]
      rfl

theorem registerBound_dirCalls (w : World) (id : DrvId) (n : ℕ) (o : DeviceOutcomes) :
    (registerBound w id n o).1.k.dirCalls = w.k.dirCalls := by
  unfold registerBound
  split
  · rfl
  · rename_i k hk
    rw [deviceRegisterNode_dirCalls, World.setK_k, cdevAdd_ok hk]
    rfl

theorem DirsOk.deviceRegister {w : World} (h : DirsOk w) (a : DeviceArgs) (o : DeviceOutcomes) :
    DirsOk (deviceRegisterParent w a o).1 := by
  obtain ⟨heq, -⟩ | ⟨id, n, hbinds, heq⟩ := deviceRegisterParent_inv w a o
  · rwa [heq]
  · have hf := deviceRegisterParent_frame n w a o hbinds.dev
    have hdir := registerBound_dir (w.bound id n a) id n o
    have hcalls := registerBound_dirCalls (w.bound id n a) id n o
    have hbound : ((w.bound id n a).dev (.cdev n)).debugfsDir =
        (w.dev (.cdev n)).debugfsDir := by
      simp [World.bound, NvCharDev.bind]
    rw [← heq, hbound] at hdir
    rw [← heq] at hcalls
    refine ⟨fun y => ?_, by rw [hf.dfs]; exact h.alive, by rw [hcalls]; exact h.removes⟩
    by_cases hy : y = .cdev n
    · subst hy
      rw [hf.dfs]
      rcases hdir with hold | hnone | hnew
      · rcases h.dirs (.cdev n) with hn | ⟨hl, -⟩
        · exact .inl (hold.trans hn)
        · exact absurd hbinds.free (by simpa [World.live] using hl)
      · exact .inl hnone
      · exact .inr hnew
    · have hlive : (deviceRegisterParent w a o).1.live y = w.live y := by
        cases y <;> simp [World.live, hf.miscRegistered, hf.dev _ hy]
      rw [hf.dev y hy, hlive, hf.dfs]
      exact h.dirs y

/-! ### Misc devices -/

theorem debugfsAddDevice_misc (w : World) (x : DevId) (ok : Bool) :
    (w.debugfsAddDevice x ok).miscRegistered = w.miscRegistered ∧
    (w.debugfsAddDevice x ok).dfs = w.dfs := by
  unfold World.debugfsAddDevice
  split <;> exact ⟨rfl, rfl⟩

/-- What a misc registration does: nothing, or a registration it takes back, or one that stays. -/
theorem miscRegister_cases (w : World) (a : MiscArgs) (o : MiscOutcomes) :
    ((miscRegister w a o).1 = w ∧ ∃ e, (miscRegister w a o).2 = .error e) ∨
    ∃ n, a.misc = some n ∧ w.miscRegistered n = false ∧
      let w₁ : World := { w.modDev (.misc n) fun d => d.miscBind a with
        dfs := w.dfs.init o.debugfsRoot }
      (((∃ e, (miscRegister w a o).2 = .error e) ∧
          (miscRegister w a o).1 = { w₁ with dfs := w₁.dfs.exit }) ∨
        (miscRegister w a o).2 = .ok () ∧
          (miscRegister w a o).1 = { w₁.debugfsAddDevice (.misc n) o.debugfsDir with
            miscRegistered := Function.update w.miscRegistered n true }) := by
  cases hn : a.misc with
  | none => exact .inl (by simp [miscRegister, hn])
  | some n =>
    cases hs : a.name with
    | none => exact .inl (by simp [miscRegister, hn, hs])
    | some s =>
      cases hm : a.owner with
      | none => exact .inl (by simp [miscRegister, hn, hs, hm])
      | some m =>
        cases hr : w.miscRegistered n with
        | true => exact .inl (by simp [miscRegister, hn, hs, hm, hr])
        | false =>
          refine .inr ⟨n, rfl, hr, ?_⟩
          simp only [miscRegister, hn, hs, hm, hr, Bool.false_eq_true, if_false]
          cases o.miscRegister with
          | some e => exact .inl ⟨⟨e, rfl⟩, rfl⟩
          | none =>
            refine .inr ⟨rfl, ?_⟩
            simp only [(debugfsAddDevice_misc _ (.misc n) o.debugfsDir).1]
            rfl

/-! ## The counter across driver calls -/

/-- The counter after a registration call with result `r`. -/
def Debugfs.after (f : Debugfs) (r : Ret) (ok : Bool) : Debugfs :=
  match r with
  | .ok () => f.init ok
  | .error _ => f

theorem driverRegister_dfs (w : World) (id : DrvId) (o : RegisterOutcomes) :
    (driverRegister w (some id) o).1.dfs =
      w.dfs.after (driverRegister w (some id) o).2 o.debugfsRoot := by
  have hclass : ∀ w : World, (driverRegisterClass w id o).1.dfs =
      w.dfs.after (driverRegisterClass w id o).2 o.debugfsRoot := by
    intro w
    unfold driverRegisterClass
    split <;> rfl
  obtain heq | ⟨e, heq⟩ | ⟨k, devt, -, heq⟩ := driverRegister_cases w id o
  · rw [heq]
    rfl
  · rw [heq]
    rfl
  · rw [heq]
    exact hclass _

theorem chrdevRelease_dfs (w : World) (dr : ChrdevDr) : (w.chrdevRelease dr).dfs = w.dfs := by
  unfold World.chrdevRelease
  split
  · rfl
  · split <;> rfl

theorem cleanupChrdev_dfs (w : World) (dev : DeviceId) (dr : ChrdevDr) (others : Others) :
    (w.cleanupChrdev dev dr others).dfs = w.dfs := by
  have hrelease : ∀ w : World, (w.devmReleaseAction dev (.chrdevRelease dr)).dfs = w.dfs :=
    fun w => chrdevRelease_dfs _ dr
  simp only [World.cleanupChrdev]
  rw [chrdevRelease_dfs]
  exact hrelease (w.interfere (others .beforeCleanup))

theorem driverRegisterDevm_dfs (w : World) (dev : Option DeviceId) (id : DrvId) (o : DevmOutcomes)
    (others : Others) : (driverRegisterDevm w dev (some id) o others).1.dfs =
      w.dfs.after (driverRegisterDevm w dev (some id) o others).2 o.debugfsRoot := by
  have hclass : ∀ (w : World) (dev : DeviceId) (dr : ChrdevDr),
      (driverRegisterDevmClass w dev id dr o others).1.dfs =
        w.dfs.after (driverRegisterDevmClass w dev id dr o others).2 o.debugfsRoot := by
    intro w dev dr
    unfold driverRegisterDevmClass
    simp only
    split
    · exact cleanupChrdev_dfs _ dev dr others
    · split
      · exact cleanupChrdev_dfs _ dev dr others
      · rfl
  have hregion : ∀ (w : World) (dev : DeviceId) (n : ℕ),
      (driverRegisterDevmRegion w dev id n o others).1.dfs =
        w.dfs.after (driverRegisterDevmRegion w dev id n o others).2 o.debugfsRoot := by
    intro w dev n
    unfold driverRegisterDevmRegion
    simp only
    split
    · rfl
    · split
      · exact chrdevRelease_dfs _ _
      · exact hclass _ dev _
  cases dev with
  | none => rfl
  | some dev =>
    simp only [driverRegisterDevm]
    split
    · rfl
    · split
      · rfl
      · split
        · rfl
        · exact hregion _ dev _

theorem unregisterSlots_dfs (w : World) (id : DrvId) : (unregisterSlots w id).dfs = w.dfs :=
  unregisterSlots_rel (R := fun w w' => w'.dfs = w.dfs) (fun _ => rfl) (fun h h' => h'.trans h)
    (fun _ _ => rfl) (fun w x => (deviceUnregister_frame x w).dfs) w id

theorem unregisterSlots_misc (w : World) (id : DrvId) :
    (unregisterSlots w id).miscRegistered = w.miscRegistered :=
  unregisterSlots_rel (R := fun w w' => w'.miscRegistered = w.miscRegistered) (fun _ => rfl)
    (fun h h' => h'.trans h) (fun _ _ => rfl)
    (fun w x => (deviceUnregister_frame x w).miscRegistered) w id

theorem devmDetach_dirs (w : World) (dev : DeviceId) : DirFrame w (devmDetach w dev) ∧
    (devmDetach w dev).dfs = w.dfs ∧ (devmDetach w dev).miscRegistered = w.miscRegistered := by
  refine devmDetach_rel (R := fun w w' => DirFrame w w' ∧ w'.dfs = w.dfs ∧
    w'.miscRegistered = w.miscRegistered) (fun w => ⟨(DriverFrame.refl 0 w).dir, rfl, rfl⟩)
    (fun h h' => ⟨h.1.trans h'.1, h'.2.1.trans h.2.1, h'.2.2.trans h.2.2⟩)
    (fun w f => ⟨(drvFrame_setK 0 w _ (frame_setDevm w.k f)).dir, rfl, rfl⟩) (fun w a => ?_)
    (fun w _ => ⟨⟨fun _ => rfl, fun _ => rfl, rfl⟩, rfl, rfl⟩) w dev
  cases a with
  | chrdevRelease dr =>
    have hf := chrdevRelease_frame 0 w dr
    exact ⟨hf.dir, chrdevRelease_dfs w dr, hf.miscRegistered⟩
  | classRelease id =>
    have hf := classRelease_frame id w
    refine ⟨hf.dir, ?_, hf.miscRegistered⟩
    change (w.classRelease id).dfs = w.dfs
    unfold World.classRelease
    split <;> rfl

theorem driverUnregister_dfs (w : World) (id : DrvId) :
    (driverUnregister w (some id)).dfs = w.dfs.exit := by
  rw [← unregisterSlots_dfs w id]
  simp only [driverUnregister, dropTable_eq]
  split <;> rfl

theorem driverUnregisterDevm_dfs (w : World) (id : DrvId) :
    (driverUnregisterDevm w (some id)).dfs = w.dfs.exit := by
  rw [← unregisterSlots_dfs w id]
  simp only [driverUnregisterDevm, dropTable_eq]
  rfl

theorem DirsOk.unregisterSlots {w : World} (h : DirsOk w) (id : DrvId) :
    DirsOk (unregisterSlots w id) :=
  unregisterSlots_rel (R := fun w w' => DirsOk w → DirsOk w') (fun _ h => h) (fun h h' => h' ∘ h)
    (fun _ _ h => ⟨h.dirs, h.alive, h.removes⟩) (fun _ x h => h.deviceUnregister x) w id h

/-! ## The invariant -/

structure RootOk (w : World) : Prop where
  counts : w.dfs.Counts w.holders.length
  dirs : DirsOk w
  misc : ∀ n, w.holders.count (.misc n) = if w.miscRegistered n then 1 else 0

theorem init_rootOk (cfg : DrvId → DriverConfig) : RootOk (init cfg) where
  counts := ⟨fun r hr => absurd hr (Finset.notMem_empty r), .inl ⟨rfl, rfl⟩⟩
  dirs := ⟨fun _ => .inl rfl, (fun r hr => by cases hr), fun c hc => by cases hc⟩
  misc := fun _ => rfl

theorem DirsOk.none_of_root {w : World} (h : DirsOk w) (hr : w.dfs.root = none) (x : DevId) :
    (w.dev x).debugfsDir = none := by
  rcases h.dirs x with hn | ⟨-, hn⟩
  · exact hn
  · rw [hn, hr]

theorem live_held {w : World} (ht : Tabled w) (hh : ClassHeld w)
    (hm : ∀ n, w.holders.count (.misc n) = if w.miscRegistered n then 1 else 0) {x : DevId}
    (hl : w.live x = true) : w.holders ≠ [] := by
  cases x with
  | cdev n =>
    obtain ⟨id, -, hhome⟩ := ht.home hl
    obtain ⟨-, -, c, hc, -⟩ := ht.homed _ id _ hhome
    have hreg := hh id c hc
    intro hnil
    simp [World.driverRegistered, registeredIn, hnil] at hreg
  | misc n =>
    have hcount := hm n
    intro hnil
    rw [hnil, show w.miscRegistered n = true from hl] at hcount
    cases hcount

/-- One registration fewer: the directories stay below the root, which goes only with the last. -/
theorem DirFrame.exit {w w' : World} {n : ℕ} (h : DirFrame w w') (hd : DirsOk w)
    (hc : w.dfs.Counts (n + 1)) (hdfs : w'.dfs = w.dfs.exit)
    (hlast : n = 0 → ∀ x, w'.live x = false) : DirsOk w' := by
  refine h.ok hd (by rw [hdfs]; exact hc.exit.alive) ?_
  rw [hdfs]
  by_cases hn : n = 0
  · refine .inr fun x => ?_
    rcases hd.dirs x with hx | ⟨hx, -⟩
    · exact hx
    · rw [← h.live, hlast hn x] at hx
      cases hx
  · exact .inl (hc.exit_root hn)

/-- A matching unregister call: the driver is registered, in the same way. -/
def matched (w : World) : Call → Bool
  | .driverUnregister (some id) => decide (.driver id ∈ w.holders)
  | .driverUnregisterDevm (some id) => decide (.devm id ∈ w.holders)
  | _ => true

/-- The root directory can be created by the call only if no registration is outstanding. -/
def rootFresh (w : World) : Call → Bool
  | .driverRegister _ o => w.dfs.refcnt != 0 || !o.debugfsRoot || w.holders.isEmpty
  | .driverRegisterDevm _ _ o _ => w.dfs.refcnt != 0 || !o.debugfsRoot || w.holders.isEmpty
  | .miscRegister _ o => w.dfs.refcnt != 0 || !o.debugfsRoot || w.holders.isEmpty
  | _ => true

theorem fresh_of {w : World} {ok : Bool}
    (h : (w.dfs.refcnt != 0 || !ok || w.holders.isEmpty) = true) :
    w.dfs.refcnt = 0 → ok = true → w.holders.length = 0 := by
  intro hz hok
  simpa [hz, hok] using h

/-- A registration call of a driver, with or without devm. -/
theorem RootOk.register {w w' : World} (h : RootOk w) {c : Call} {id : DrvId} {r : Ret} {ok : Bool}
    {d : Holder} (hc : c.acquires = some d ∧ c.drops = none) (hd : ∀ n, d ≠ .misc n)
    (hf : DriverFrame id w w') (hdfs : w'.dfs = w.dfs.after r ok)
    (hfresh : w.dfs.refcnt = 0 → ok = true → w.holders.length = 0) :
    RootOk { w' with holders := holdersAfter w.holders c r } := by
  cases r with
  | error e =>
    have hdirs := hf.dir.same h.dirs hdfs
    have hholders : holdersAfter w.holders c (.error e) = w.holders := by
      simp [holdersAfter, hc.1, hc.2]
    rw [hholders]
    refine ⟨by simpa [hdfs, Debugfs.after] using h.counts,
      ⟨hdirs.dirs, hdirs.alive, hdirs.removes⟩, ?_⟩
    simpa [hf.miscRegistered] using h.misc
  | ok u =>
    have hcounts := h.counts.init hfresh
    have hdirs : DirsOk w' := by
      refine hf.dir.ok h.dirs (by rw [hdfs]; exact hcounts.alive) ?_
      rw [hdfs]
      exact (h.counts.init_root ok).imp_right h.dirs.none_of_root
    have hholders : holdersAfter w.holders c (.ok u) = d :: w.holders := by
      simp [holdersAfter, hc.1]
    rw [hholders]
    refine ⟨by simpa [hdfs, Debugfs.after] using hcounts,
      ⟨hdirs.dirs, hdirs.alive, hdirs.removes⟩, fun n => ?_⟩
    rw [List.count_cons_of_ne (hd n), h.misc n, hf.miscRegistered]

/-- An unregistration call of a driver: `w₁` is the world after its loop. -/
theorem RootOk.unregister {w w₁ w' : World} (h : RootOk w) {id : DrvId} {d : Holder}
    (hmem : d ∈ w.holders) (hd : ∀ n, d ≠ .misc n) (hdirs : DirsOk w₁)
    (hmisc : w₁.miscRegistered = w.miscRegistered) (hdfs₁ : w₁.dfs = w.dfs)
    (hf : DriverFrame id w₁ w') (hdfs : w'.dfs = w.dfs.exit)
    (ht : Tabled { w' with holders := w.holders.erase d })
    (hh : ClassHeld { w' with holders := w.holders.erase d }) :
    RootOk { w' with holders := w.holders.erase d } := by
  have hlen : w.holders.length = (w.holders.erase d).length + 1 := by
    rw [List.length_erase_of_mem hmem]
    have hpos := List.length_pos_of_mem hmem
    omega
  have hcounts : w.dfs.Counts ((w.holders.erase d).length + 1) := hlen ▸ h.counts
  have hcount : ∀ n, (w.holders.erase d).count (.misc n) =
      if w'.miscRegistered n then 1 else 0 := by
    intro n
    rw [List.count_erase_of_ne (Ne.symm (hd n)), h.misc n, hf.miscRegistered, hmisc]
  have hdirs' : DirsOk w' := by
    refine hf.dir.exit hdirs (by rw [hdfs₁]; exact hcounts) (by rw [hdfs₁, hdfs]) fun hn x => ?_
    by_contra hx
    have hlive : World.live { w' with holders := w.holders.erase d } x = true := by
      cases x <;> simpa [World.live] using hx
    exact live_held ht hh hcount hlive (List.length_eq_zero_iff.mp hn)
  exact ⟨by rw [hdfs]; exact hcounts.exit, ⟨hdirs'.dirs, hdirs'.alive, hdirs'.removes⟩, hcount⟩

theorem RootOk.same {w w' : World} (h : RootOk w) (hdirs : DirsOk w') (hdfs : w'.dfs = w.dfs)
    (hmisc : w'.miscRegistered = w.miscRegistered) :
    RootOk { w' with holders := w.holders } := by
  refine ⟨by simpa [hdfs] using h.counts, ⟨hdirs.dirs, hdirs.alive, hdirs.removes⟩, fun n => ?_⟩
  rw [hmisc]
  exact h.misc n

/-! ### Misc devices -/

/-- Binding a misc device moves no directory, whatever becomes of the root. -/
theorem dirFrame_miscBind (w : World) (n : ℕ) (a : MiscArgs) (f : Debugfs) :
    DirFrame w { w.modDev (.misc n) fun d => d.miscBind a with dfs := f } := by
  refine ⟨fun x => ?_, fun x => ?_, rfl⟩
  · cases x with
    | cdev m => simp [World.live]
    | misc m => rfl
  · by_cases hx : x = .misc n
    · subst hx
      simp [NvCharDev.miscBind]
    · simp [Function.update_of_ne hx]

theorem DirsOk.addMisc {w : World} (h : DirsOk w) (n : ℕ) (made : Bool) :
    DirsOk { w.debugfsAddDevice (.misc n) made with
      miscRegistered := Function.update w.miscRegistered n true } := by
  let w' : World := { w.debugfsAddDevice (.misc n) made with
    miscRegistered := Function.update w.miscRegistered n true }
  have hdfs : w'.dfs = w.dfs := (debugfsAddDevice_misc w _ _).2
  have hlive : ∀ x, x ≠ .misc n → w'.live x = w.live x := by
    intro x hx
    cases x with
    | cdev m =>
      change ((w.debugfsAddDevice (.misc n) made).dev (.cdev m)).registered = _
      rw [(slotFrame_debugfsAddDevice w _ _).registered]
      rfl
    | misc m =>
      have hm : m ≠ n := fun hm => hx (by rw [hm])
      simp [w', World.live, Function.update_of_ne hm]
  refine ⟨fun x => ?_, ?_, ?_⟩
  · change (w'.dev x).debugfsDir = none ∨ (w'.live x = true ∧ (w'.dev x).debugfsDir = w'.dfs.root)
    rw [hdfs]
    by_cases hx : x = .misc n
    · subst hx
      obtain ⟨v, hv, hdev⟩ := debugfsAddDevice_dev_self w (.misc n) made
      have hl : w'.live (.misc n) = true := by simp [w', World.live]
      have hd : (w'.dev (.misc n)).debugfsDir = v := by simp [w', hdev]
      rw [hd]
      rcases hv with rfl | rfl | rfl
      · exact (h.dirs (.misc n)).imp_right fun h => ⟨hl, h.2⟩
      · exact .inl rfl
      · exact .inr ⟨hl, rfl⟩
    · have hd : w'.dev x = w.dev x := (frame_debugfsAddDevice (.misc n) w _).dev x hx
      rw [hd, hlive x hx]
      exact h.dirs x
  · change ∀ r, w'.dfs.root = some r → r ∉ w'.dfs.removed
    rw [hdfs]
    exact h.alive
  · change ∀ c ∈ w'.k.dirCalls, _
    have hk : w'.k = w.k := (debugfsAddDevice_k w (.misc n) made).1
    rw [hk]
    exact h.removes

/-- A registration that is taken back. -/
theorem RootOk.miscTakenBack {w : World} (h : RootOk w) (n : ℕ) (a : MiscArgs) {root : Bool}
    (hfresh : w.dfs.refcnt = 0 → root = true → w.holders.length = 0) :
    RootOk { w.modDev (.misc n) fun d => d.miscBind a with dfs := (w.dfs.init root).exit } := by
  have hcounts := (h.counts.init hfresh).exit
  have hdirs := (dirFrame_miscBind w n a _).ok h.dirs hcounts.alive
    (.inl (h.counts.init_exit_root _))
  exact ⟨hcounts, hdirs, h.misc⟩

/-- A registration that stays; the device holds a reference to the root from now on. -/
theorem RootOk.miscKept {w : World} (h : RootOk w) {n : ℕ} (hn : w.miscRegistered n = false)
    (a : MiscArgs) {root : Bool} (made : Bool)
    (hfresh : w.dfs.refcnt = 0 → root = true → w.holders.length = 0) :
    let w₁ : World := { w.modDev (.misc n) fun d => d.miscBind a with dfs := w.dfs.init root }
    RootOk { w₁.debugfsAddDevice (.misc n) made with
      miscRegistered := Function.update w.miscRegistered n true
      holders := .misc n :: w.holders } := by
  intro w₁
  have hcounts := h.counts.init hfresh
  have hdfs : (w₁.debugfsAddDevice (.misc n) made).dfs = w.dfs.init root :=
    (debugfsAddDevice_misc w₁ _ _).2
  have hdirs₁ : DirsOk w₁ := (dirFrame_miscBind w n a _).ok h.dirs hcounts.alive
    ((h.counts.init_root root).imp_right h.dirs.none_of_root)
  have hdirs := hdirs₁.addMisc n made
  refine ⟨?_, ⟨hdirs.dirs, hdirs.alive, hdirs.removes⟩, fun m => ?_⟩
  · change (w₁.debugfsAddDevice (.misc n) made).dfs.Counts (w.holders.length + 1)
    rw [hdfs]
    exact hcounts
  · change (Holder.misc n :: w.holders).count (.misc m) =
      if Function.update w.miscRegistered n true m then 1 else 0
    have hm := h.misc m
    by_cases hmn : m = n
    · subst hmn
      rw [hn] at hm
      simpa using hm
    · rw [List.count_cons_of_ne (by simpa using Ne.symm hmn), Function.update_of_ne hmn, hm]

theorem RootOk.miscRegister {w : World} (h : RootOk w) (a : MiscArgs) (o : MiscOutcomes)
    (hfresh : w.dfs.refcnt = 0 → o.debugfsRoot = true → w.holders.length = 0) :
    RootOk (call w (.miscRegister a o)) := by
  have hkeep : ∀ {w' : World}, RootOk { w' with holders := w.holders } →
      (NvChar.miscRegister w a o).1 = w' → (∃ e, (NvChar.miscRegister w a o).2 = .error e) →
      RootOk (call w (.miscRegister a o)) := by
    rintro w' hok rfl ⟨e, he⟩
    have hholders : holdersAfter w.holders (.miscRegister a o) (NvChar.miscRegister w a o).2 =
        w.holders := by
      simp [he, holdersAfter, Call.drops]
    simpa only [call, exec, hholders] using hok
  rcases miscRegister_cases w a o with ⟨hsame, herr⟩ | ⟨n, hn, hr, ⟨herr, hw⟩ | ⟨hok, hw⟩⟩
  · exact hkeep h hsame herr
  · exact hkeep (h.miscTakenBack n a hfresh) hw herr
  · have hcall := h.miscKept hr a o.debugfsDir hfresh
    simp only [call, exec, hok, hw]
    simpa [holdersAfter, Call.acquires, hn] using hcall

/-- The last registration but `n`: the directory of the device goes, and the others stay below the
root, which goes only when there are none. -/
theorem DirsOk.miscUnregister {w : World} (h : DirsOk w) {x n : ℕ} (hc : w.dfs.Counts (n + 1))
    (hlast : n = 0 → ∀ y, y ≠ .misc x → (w.dev y).debugfsDir = none) :
    DirsOk (NvChar.miscUnregister w x) := by
  unfold NvChar.miscUnregister
  split
  case isFalse => exact h
  case isTrue hm =>
    let w₁ := w.modDev (.misc x) fun d => { d with removing := true }
    let w₂ := w₁.debugfsRemoveDevice (.misc x)
    let w₃ := w₂.waitOpens (.misc x)
    have hf : DeviceFrame (.misc x) w w₃ :=
      ((frame_modDev _ w _).trans (frame_debugfsRemoveDevice _ _)).trans (frame_waitOpens _ _)
    have hself : (w₃.dev (.misc x)).debugfsDir = none := by
      simp only [w₃, waitOpens_dev, w₂, debugfsRemoveDevice_dev_self]
    have hcalls : ∀ c ∈ w₃.k.dirCalls, ∃ y, c = .dirRemove y true := by
      have hdir₁ : (w₁.dev (.misc x)).debugfsDir = none ∨
          (w₁.dev (.misc x)).debugfsDir = w.dfs.root := by
        rcases h.dirs (.misc x) with hx | ⟨-, hx⟩
        · exact .inl (by simp [w₁, hx])
        · exact .inr (by simp [w₁, hx])
      rw [dirCalls_waitOpens]
      rcases debugfsRemoveDevice_dirs hdir₁ h.alive with hk | hk
      · rw [hk]
        exact h.removes
      · rw [hk]
        intro c hmem
        rcases List.mem_cons.mp hmem with rfl | hmem
        · exact ⟨_, rfl⟩
        · exact h.removes c hmem
    have hexit : w₃.dfs.exit = w.dfs.exit := by rw [hf.dfs]
    refine ⟨fun y => ?_, ?_, hcalls⟩
    · by_cases hy : y = .misc x
      · subst hy
        exact .inl hself
      · change (w₃.dev y).debugfsDir = none ∨
          World.live { w₃ with
            dfs := w₃.dfs.exit
            miscRegistered := Function.update w₃.miscRegistered x false } y = true ∧
          (w₃.dev y).debugfsDir = w₃.dfs.exit.root
        rw [hf.dev y hy, hexit]
        rcases h.dirs y with hn | ⟨hl, hr⟩
        · exact .inl hn
        · by_cases hn : n = 0
          · exact .inl (hlast hn y hy)
          · refine .inr ⟨?_, hr.trans (hc.exit_root hn).symm⟩
            rw [← hl]
            cases y with
            | cdev m => simp [World.live, hf.dev (.cdev m) hy]
            | misc m =>
              have hmx : m ≠ x := fun hmx => hy (by rw [hmx])
              simp [World.live, Function.update_of_ne hmx, hf.miscRegistered]
    · change ∀ r, w₃.dfs.exit.root = some r → r ∉ w₃.dfs.exit.removed
      rw [hexit]
      exact hc.exit.alive

theorem RootOk.miscUnregister {w : World} (h : RootOk w) (n : ℕ) (hm : w.miscRegistered n = true)
    (ht : Tabled (call w (.miscUnregister (some n))))
    (hh : ClassHeld (call w (.miscUnregister (some n)))) :
    RootOk (call w (.miscUnregister (some n))) := by
  let w₁ := w.modDev (.misc n) fun d => { d with removing := true }
  let w₃ := (w₁.debugfsRemoveDevice (.misc n)).waitOpens (.misc n)
  have hf : DeviceFrame (.misc n) w w₃ :=
    ((frame_modDev _ w _).trans (frame_debugfsRemoveDevice _ _)).trans (frame_waitOpens _ _)
  have hmem : Holder.misc n ∈ w.holders := by
    rw [← List.count_pos_iff, h.misc n, hm]
    decide
  have hcall : call w (.miscUnregister (some n)) =
      { w₃ with
        dfs := w.dfs.exit
        miscRegistered := Function.update w.miscRegistered n false
        holders := w.holders.erase (.misc n) } := by
    simp only [call, exec, NvChar.miscUnregister, hm, if_true]
    rw [← hf.dfs, ← hf.miscRegistered]
    rfl
  have hlen : w.holders.length = (w.holders.erase (.misc n)).length + 1 := by
    rw [List.length_erase_of_mem hmem]
    have hpos := List.length_pos_of_mem hmem
    omega
  have hcounts : w.dfs.Counts ((w.holders.erase (.misc n)).length + 1) := hlen ▸ h.counts
  have hcount : ∀ m, (w.holders.erase (.misc n)).count (.misc m) =
      if Function.update w.miscRegistered n false m then 1 else 0 := by
    intro m
    have hm' := h.misc m
    by_cases hmn : m = n
    · subst hmn
      rw [List.count_erase_self, hm', hm]
      simp
    · rw [List.count_erase_of_ne (by simpa using hmn), Function.update_of_ne hmn, hm']
  have hlive : ∀ x, x ≠ .misc n → (call w (.miscUnregister (some n))).live x = w.live x := by
    intro x hx
    rw [hcall]
    cases x with
    | cdev m => simp [World.live, hf.dev (.cdev m) hx]
    | misc m =>
      have hmn : m ≠ n := fun hmn => hx (by rw [hmn])
      simp [World.live, Function.update_of_ne hmn]
  have hheld := fun x hx => live_held ht hh (by rw [hcall]; exact hcount) (x := x) hx
  have hdirs : DirsOk (NvChar.miscUnregister w n) := by
    refine h.dirs.miscUnregister hcounts fun hlast x hx => ?_
    rcases h.dirs.dirs x with hn | ⟨hl, -⟩
    · exact hn
    · have hnil := List.length_eq_zero_iff.mp hlast
      rw [hcall] at hheld hlive
      exact absurd hnil (hheld x ((hlive x hx).trans hl))
  refine ⟨?_, ⟨hdirs.dirs, hdirs.alive, hdirs.removes⟩, ?_⟩
  · rw [hcall]
    exact hcounts.exit
  · rw [hcall]
    exact hcount

theorem call_rootOk {w : World} {c : Call} (ht : Tabled w) (hh : ClassHeld w) (h : RootOk w)
    (hm : matched w c = true) (ho : orderly w c = true) (hf : rootFresh w c = true) :
    RootOk (call w c) := by
  have ht' := call_tabled ht hh ho
  have hh' := call_classHeld ht hh ho
  cases c with
  | driverRegister drv o =>
    cases drv with
    | none => exact h
    | some id =>
      exact h.register (d := .driver id) ⟨rfl, rfl⟩ (by simp) (driverRegister_frame w id o)
        (driverRegister_dfs w id o) (fresh_of hf)
  | driverUnregister drv =>
    cases drv with
    | none => exact h
    | some id =>
      exact h.unregister (of_decide_eq_true hm) (by simp) (h.dirs.unregisterSlots id)
        (unregisterSlots_misc w id) (unregisterSlots_dfs w id) (driverUnregister_replaced w id).1
        (driverUnregister_dfs w id) ht' hh'
  | driverRegisterDevm dev drv o others =>
    cases drv with
    | none => cases dev <;> exact h
    | some id =>
      exact h.register (d := .devm id) ⟨rfl, rfl⟩ (by simp)
        (driverRegisterDevm_frame w dev id o others) (driverRegisterDevm_dfs w dev id o others)
        (fresh_of hf)
  | driverUnregisterDevm drv =>
    cases drv with
    | none => exact h
    | some id =>
      exact h.unregister (of_decide_eq_true hm) (by simp) (h.dirs.unregisterSlots id)
        (unregisterSlots_misc w id) (unregisterSlots_dfs w id) (driverUnregisterDevm_replaced w id).1
        (driverUnregisterDevm_dfs w id) ht' hh'
  | devmDetach dev =>
    obtain ⟨hdirs, hdfs, hmisc⟩ := devmDetach_dirs w dev
    exact h.same (hdirs.same h.dirs hdfs) hdfs hmisc
  | deviceRegister a o =>
    have hframe : (deviceRegisterParent w a o).1.dfs = w.dfs ∧
        (deviceRegisterParent w a o).1.miscRegistered = w.miscRegistered := by
      cases ha : a.dev with
      | none => simp [deviceRegisterParent, ha]
      | some n =>
        have hf := deviceRegisterParent_frame n w a o ha
        exact ⟨hf.dfs, hf.miscRegistered⟩
    exact h.same (h.dirs.deviceRegister a o) hframe.1 hframe.2
  | deviceUnregister dev =>
    cases dev with
    | none => exact h
    | some n =>
      have hframe := deviceUnregister_frame (.cdev n) w
      exact h.same (h.dirs.deviceUnregister (.cdev n)) hframe.dfs hframe.miscRegistered
  | charOpen x o =>
    obtain ⟨n, r, l, he⟩ := charOpen_effect w x o
    have hdirs := (dirFrame_withOpens w x n r l).same h.dirs rfl
    have hdfs : (charOpen w x o).1.dfs = w.dfs := by rw [he]; rfl
    have hmisc : (charOpen w x o).1.miscRegistered = w.miscRegistered := by rw [he]; rfl
    rw [← he] at hdirs
    exact h.same hdirs hdfs hmisc
  | charRelease f ret =>
    obtain ⟨n, r, l, he⟩ := charRelease_effect w f ret
    have hdirs := (dirFrame_withOpens w f.dev n r l).same h.dirs rfl
    have hdfs : (charRelease w f ret).1.dfs = w.dfs := by rw [he]; rfl
    have hmisc : (charRelease w f ret).1.miscRegistered = w.miscRegistered := by rw [he]; rfl
    rw [← he] at hdirs
    exact h.same hdirs hdfs hmisc
  | miscRegister a o => exact h.miscRegister a o (fresh_of hf)
  | miscUnregister misc =>
    cases misc with
    | none => exact h
    | some n =>
      cases hr : w.miscRegistered n with
      | true => exact h.miscUnregister n hr ht' hh'
      | false =>
        have hcount : w.holders.count (.misc n) = 0 := by rw [h.misc n, hr]; rfl
        have hholders : w.holders.erase (.misc n) = w.holders :=
          List.erase_of_not_mem (List.count_eq_zero.mp hcount)
        have hcall : call w (.miscUnregister (some n)) = w := by
          simp [call, exec, miscUnregister, hr, holdersAfter, Call.acquires, Call.drops, hholders]
        rwa [hcall]
  | otherAcquire a =>
    have hframe := interfere_frame 0 w [a]
    exact h.same (hframe.dir.same h.dirs rfl) rfl rfl

/-! ## The promise over whole runs -/

/-- No live device holds a directory of a root that is gone, and none was ever removed so. -/
structure DirsAlive (w : World) : Prop where
  alive : ∀ x r, w.live x = true → (w.dev x).debugfsDir = some r → r ∉ w.dfs.removed
  removes : ∀ x rootLive, .dirRemove x rootLive ∈ w.k.calls → rootLive = true

theorem DirsOk.dirsAlive {w : World} (h : DirsOk w) : DirsAlive w where
  alive := fun x r _ hr => by
    rcases h.dirs x with hn | ⟨-, hroot⟩
    · rw [hn] at hr; cases hr
    · exact h.alive r (hroot ▸ hr)
  removes := fun x rootLive hc => by
    obtain ⟨y, hy⟩ := h.removes _ (List.mem_filter.mpr ⟨hc, rfl⟩)
    exact (KCall.dirRemove.inj hy).2

/-- A driver is registered only while it is not registered, and the root is created only while no
registration is outstanding. -/
def rootKept (w : World) (c : Call) : Bool := orderly w c && rootFresh w c

/-- In every run of matched calls that keep the root, every state keeps its directories. -/
theorem dirs_alive_of_root_kept (cfg : DrvId → DriverConfig) (calls : List Call)
    (hm : Along step (fun w c => matched w c = true) (init cfg) calls)
    (hk : Along step (fun w c => rootKept w c = true) (init cfg) calls) :
    Throughout step DirsAlive (init cfg) calls := by
  refine throughout_of_along (I := fun w => Tabled w ∧ ClassHeld w ∧ RootOk w)
    (fun w h => h.2.2.dirs.dirsAlive) ?_ calls (init cfg)
    ⟨init_tabled cfg, (fun id c hc => by cases hc), init_rootOk cfg⟩ (hm.and hk)
  rintro w c w' ⟨ht, hh, hr⟩ ⟨hm, hk⟩ hs
  rw [rootKept, Bool.and_eq_true] at hk
  rw [step_eq_some hs]
  exact ⟨call_tabled ht hh hk.1, call_classHeld ht hh hk.1, call_rootOk ht hh hr hm hk.1 hk.2⟩

def twoDrivers : DrvId → DriverConfig := fun id =>
  { name := some (if id = 0 then "nv_a" else "nv_b"), owner := some 0, count := 1, major := 0,
    devMode := 0 }

/-- Two drivers; the root can be created at the first registration or not. The second driver gets a
device, the first driver goes, then the device goes. -/
def sharedRoot (first : Bool) : List Call :=
  let driver (id : DrvId) (ok : Bool) : Call := .driverRegister (some id)
    { kcalloc := true, region := none, dynMajor := 511 - id, classCreate := none,
      debugfsRoot := ok }
  [ driver 0 first, driver 1 true,
    .deviceRegister
      { drv := some 1, dev := some 0, index := 0, name := some "b", ops := none, priv := none }
      { cdevAdd := none, deviceCreate := none, deviceCreateFile := none, debugfsDir := true },
    .driverUnregister (some 0), .deviceUnregister (some 0) ]

theorem dirs_alive_with_first_root :
    Throughout step DirsAlive (init twoDrivers) (sharedRoot true) :=
  dirs_alive_of_root_kept twoDrivers (sharedRoot true) (by decide) (by decide)

/-- If the first creation fails, the first driver takes the second one's root with it, and the
directory of a registered device is removed twice. -/
theorem directory_outlives_root :
    Along step (fun w c => matched w c = true) (init twoDrivers) (sharedRoot false) ∧
    (∃ w, run step (init twoDrivers) ((sharedRoot false).take 4) = some w ∧
      w.live (.cdev 0) = true ∧ ¬ DirsAlive w) ∧
    ∃ w, run step (init twoDrivers) (sharedRoot false) = some w ∧
      .dirRemove (.cdev 0) false ∈ w.k.calls := by
  refine ⟨by decide, ?_, ?_⟩
  · have hend : (run step (init twoDrivers) ((sharedRoot false).take 4)).map (fun w =>
        (w.live (.cdev 0), (w.dev (.cdev 0)).debugfsDir, decide (0 ∈ w.dfs.removed))) =
        some (true, some 0, true) := by decide
    obtain ⟨w, hrun, hw⟩ := Option.map_eq_some_iff.mp hend
    simp only [Prod.mk.injEq, decide_eq_true_eq] at hw
    obtain ⟨hlive, hdir, hremoved⟩ := hw
    exact ⟨w, hrun, hlive, fun h => h.alive (.cdev 0) 0 hlive hdir hremoved⟩
  · have hend : (run step (init twoDrivers) (sharedRoot false)).map (fun w =>
        decide (.dirRemove (.cdev 0) false ∈ w.k.calls)) = some true := by decide
    obtain ⟨w, hrun, hw⟩ := Option.map_eq_some_iff.mp hend
    exact ⟨w, hrun, of_decide_eq_true hw⟩

end LinuxDriverFramework.NvChar
