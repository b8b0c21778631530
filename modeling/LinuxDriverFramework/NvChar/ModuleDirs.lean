import LinuxDriverFramework.NvChar.DebugfsRoot
import LinuxDriverFramework.NvChar.ModuleRuns

/-! # The debugfs directories of the example modules

A module counts once in `nv_char_debugfs_refcnt` while it is loaded, whether or not it got a
directory. If the root cannot be created when the first module is loaded, a later one may create it
and take it away again under the first.

* `Dirs`: the counter, the directories, and whose they are.
* `rootFresh`: the root is created only while no module is loaded.
* `modules_clean`: what holds in any case, and what holds of the directories in such runs. -/

namespace LinuxDriverFramework.NvChar.ModuleLoads
open Foundations
set_option autoImplicit false

/-- With the modules of `L` loaded, which hold `n` references to the root. -/
structure Dirs (n : ℕ) (L : Finset Mod) (w : World) : Prop where
  ok : DirsOk w
  counts : w.dfs.Counts n
  owned : ∀ x, (w.dev x).debugfsDir = none ∨ ∃ m ∈ L, x = m.dev

section

variable {n : ℕ} {L : Finset Mod} {m : Mod} {w w' : World}

theorem Dirs.noDir (h : Dirs n L w) (hL : L = ∅) (x : DevId) : (w.dev x).debugfsDir = none := by
  rcases h.owned x with hx | ⟨m, hm, -⟩
  · exact hx
  · rw [hL] at hm
    exact absurd hm (Finset.notMem_empty m)

theorem Dirs.same (h : Dirs n L w) (hf : DirFrame w w') (hdfs : w'.dfs = w.dfs) : Dirs n L w' := by
  refine ⟨hf.same h.ok hdfs, hdfs ▸ h.counts, fun x => ?_⟩
  rw [hf.dir]
  exact h.owned x

/-! ## The functions of the framework -/

/-- One reference more; the root may be a new one if there was none. -/
theorem Dirs.init (h : Dirs n L w) {root : Bool} (hf : DirFrame w w')
    (hdfs : w'.dfs = w.dfs.init root) (hfresh : w.dfs.refcnt = 0 → root = true → n = 0) :
    Dirs (n + 1) L w' := by
  have hcounts := h.counts.init hfresh
  refine ⟨?_, hdfs ▸ hcounts, fun x => ?_⟩
  · refine hf.ok h.ok (by rw [hdfs]; exact hcounts.alive) ?_
    rw [hdfs]
    exact (h.counts.init_root root).imp_right h.ok.none_of_root
  · rw [hf.dir]
    exact h.owned x

/-- One reference less; the last takes the root away, and then there is no directory below it. -/
theorem Dirs.exit (h : Dirs (n + 1) L w) (hf : DirFrame w w') (hdfs : w'.dfs = w.dfs.exit)
    (hlast : n = 0 → L = ∅) : Dirs n L w' := by
  refine ⟨?_, hdfs ▸ h.counts.exit, fun x => ?_⟩
  · refine hf.ok h.ok (by rw [hdfs]; exact h.counts.exit.alive) ?_
    rw [hdfs]
    by_cases hn : n = 0
    · exact .inr (h.noDir (hlast hn))
    · exact .inl (h.counts.exit_root hn)
  · rw [hf.dir]
    exact h.owned x

theorem Dirs.deviceUnregister (h : Dirs n L w) (x : DevId) : Dirs n L (deviceUnregister w x) := by
  have hf := deviceUnregister_frame x w
  refine ⟨h.ok.deviceUnregister x, by rw [hf.dfs]; exact h.counts, fun y => ?_⟩
  by_cases hy : y = x
  · subst hy
    cases hr : (w.dev y).registered with
    | false =>
      rw [deviceUnregister_of_not hr]
      exact h.owned y
    | true =>
      obtain ⟨v, hv⟩ := deviceUnregister_dev_self hr
      exact .inl (by rw [hv])
  · rw [hf.dev y hy]
    exact h.owned y

/-- A device that is not registered has no directory. -/
theorem Dirs.unregistered (h : Dirs n L w) {i : ℕ} (hdev : m.dev = .cdev i)
    (hr : (w.dev m.dev).registered = false) : Dirs n (L.erase m) w := by
  refine ⟨h.ok, h.counts, fun x => ?_⟩
  by_cases hx : x = m.dev
  · refine (h.ok.dirs x).imp_right fun hlive => ?_
    have hl := hlive.1
    rw [hx, hdev] at hl
    rw [hdev] at hr
    cases hr.symm.trans hl
  · refine (h.owned x).imp_right fun ⟨m', hm', he⟩ => ⟨m', ?_, he⟩
    exact Finset.mem_erase.mpr ⟨fun hmm => hx (he.trans (congrArg Mod.dev hmm)), hm'⟩

theorem registered_deviceUnregister (w : World) (x : DevId) :
    ((NvChar.deviceUnregister w x).dev x).registered = false := by
  cases hr : (w.dev x).registered with
  | false => rw [deviceUnregister_of_not hr, hr]
  | true =>
    obtain ⟨v, hv⟩ := deviceUnregister_dev_self hr
    rw [hv]

theorem Dirs.driverUnregister (h : Dirs (n + 1) L w) (id : DrvId) (hlast : n = 0 → L = ∅) :
    Dirs n L (driverUnregister w (some id)) := by
  have hloop : Dirs (n + 1) L (unregisterSlots w id) :=
    unregisterSlots_rel (R := fun w w' => Dirs (n + 1) L w → Dirs (n + 1) L w') (fun _ h => h)
      (fun h h' => h' ∘ h) (fun _ _ h => ⟨⟨h.ok.dirs, h.ok.alive, h.ok.removes⟩, h.counts, h.owned⟩)
      (fun _ x h => h.deviceUnregister x) w id h
  refine hloop.exit (driverUnregister_replaced w id).1.dir ?_ hlast
  rw [driverUnregister_dfs, unregisterSlots_dfs]

theorem Dirs.unregisterBoth (h : Dirs (n + 1) L w) {i : ℕ} (hdev : m.dev = .cdev i)
    (hlast : n = 0 → L.erase m = ∅) : Dirs n (L.erase m) (unregisterBoth m w) :=
  ((h.deviceUnregister m.dev).unregistered hdev
    (registered_deviceUnregister w m.dev)).driverUnregister m.id hlast

/-- A registration that fails leaves the directories alone. -/
theorem deviceRegister_error_dir {a : DeviceArgs} {o : DeviceOutcomes} {e : Errno}
    (h : (deviceRegisterParent w a o).2 = .error e) (x : DevId) :
    ((deviceRegisterParent w a o).1.dev x).debugfsDir = (w.dev x).debugfsDir := by
  obtain ⟨heq, -⟩ | ⟨id, i, hbinds, heq⟩ := deviceRegisterParent_inv w a o
  · rw [heq]
  · by_cases hx : x = .cdev i
    · subst hx
      have hbound : ((w.bound id i a).dev (.cdev i)).debugfsDir = (w.dev (.cdev i)).debugfsDir := by
        simp [World.bound, NvCharDev.bind]
      rw [heq] at h ⊢
      rw [← hbound]
      unfold registerBound at h ⊢
      split at h
      · rfl
      · rw [deviceRegisterNode_dev, h]
        rfl
    · rw [(deviceRegisterParent_frame i w a o hbinds.dev).dev x hx]

/-- The device of `m` may get a directory, if its registration succeeds. -/
theorem Dirs.deviceRegister (h : Dirs n L w) {v : CdevValues} (hdev : m.dev = .cdev m.id)
    (o : DeviceOutcomes) :
    match deviceRegisterParent w (deviceArgs m v) o with
    | (w', .error _) => Dirs n L w'
    | (w', .ok ()) => Dirs n (insert m L) w' := by
  have hok := h.ok.deviceRegister (deviceArgs m v) o
  have hf := deviceRegisterParent_frame m.id w (deviceArgs m v) o rfl
  have herror : ∀ e, (deviceRegisterParent w (deviceArgs m v) o).2 = .error e →
      ∀ x, ((deviceRegisterParent w (deviceArgs m v) o).1.dev x).debugfsDir =
        (w.dev x).debugfsDir := fun _ => deviceRegister_error_dir
  generalize deviceRegisterParent w (deviceArgs m v) o = r at hok hf herror
  obtain ⟨w', ret⟩ := r
  have hcounts : w'.dfs.Counts n := by
    rw [show w'.dfs = w.dfs from hf.dfs]
    exact h.counts
  cases ret with
  | error e =>
    refine ⟨hok, hcounts, fun x => ?_⟩
    rw [show (w'.dev x).debugfsDir = _ from herror e rfl x]
    exact h.owned x
  | ok u =>
    refine ⟨hok, hcounts, fun x => ?_⟩
    by_cases hx : x = m.dev
    · exact .inr ⟨m, Finset.mem_insert_self m L, hx⟩
    · rw [show w'.dev x = w.dev x from hf.dev x (hdev ▸ hx)]
      exact (h.owned x).imp_right fun ⟨m', hm', he⟩ => ⟨m', Finset.mem_insert_of_mem hm', he⟩

/-! ## Init and exit functions -/

/-- The image of a module that is not loaded has no directory. -/
theorem Dirs.image (h : Dirs n L w) (m : Mod) : Dirs n L (image m w) := by
  have hother : ∀ x, x ≠ m.dev → (ModuleLoads.image m w).dev x = w.dev x :=
    fun x hx => Function.update_of_ne hx _ _
  have hself : ((ModuleLoads.image m w).dev m.dev).debugfsDir = none := by
    rw [(image_fresh m w).dev]
    rfl
  have hlive : ∀ x, x ≠ m.dev → (ModuleLoads.image m w).live x = w.live x := by
    intro x hx
    cases x with
    | cdev i => simp only [World.live, hother _ hx]
    | misc i =>
      cases m with
      | miscEcho =>
        have hi : i ≠ Mod.miscEcho.id := fun hi => hx (by rw [hi]; rfl)
        exact Function.update_of_ne hi _ _
      | _ => rfl
  refine ⟨⟨fun x => ?_, ?_, ?_⟩, by rw [image_dfs]; exact h.counts, fun x => ?_⟩
  · by_cases hx : x = m.dev
    · exact .inl (by rw [hx]; exact hself)
    · rw [hother x hx, hlive x hx, image_dfs]
      exact h.ok.dirs x
  · rw [image_dfs]
    exact h.ok.alive
  · rw [image_k]
    exact h.ok.removes
  · by_cases hx : x = m.dev
    · exact .inl (by rw [hx]; exact hself)
    · rw [hother x hx]
      exact h.owned x

/-- What an init function leaves: a reference and perhaps a directory more, or nothing. -/
def AfterInit (n : ℕ) (L : Finset Mod) (m : Mod) (w : World) : Ret → Prop
  | .error _ => Dirs n L w
  | .ok () => Dirs (n + 1) (insert m L) w

theorem Dirs.registerBoth (h : Dirs n L w) {v : CdevValues} (hdev : m.dev = .cdev m.id)
    (o : InitOutcomes) (hfresh : w.dfs.refcnt = 0 → o.driver.debugfsRoot = true → n = 0)
    (hlast : n = 0 → L = ∅) :
    AfterInit n L m (registerBoth m v w o).1 (registerBoth m v w o).2 := by
  have hfill : Dirs n L (fillDriver m v w) :=
    h.same ⟨fun x => by cases x <;> rfl, fun _ => rfl, rfl⟩ rfl
  have hframe := (driverRegister_frame (fillDriver m v w) m.id o.driver).dir
  have hdfs := driverRegister_dfs (fillDriver m v w) m.id o.driver
  unfold ModuleLoads.registerBoth
  generalize driverRegister (fillDriver m v w) (some m.id) o.driver = r₁ at hframe hdfs
  obtain ⟨w₁, ret₁⟩ := r₁
  cases ret₁ with
  | error e => exact hfill.same hframe hdfs
  | ok u =>
    have h₁ : Dirs (n + 1) L w₁ := hfill.init hframe hdfs hfresh
    have hdevice := h₁.deviceRegister (v := v) hdev o.device
    simp only
    generalize deviceRegisterParent w₁ (deviceArgs m v) o.device = r₂ at hdevice
    obtain ⟨w₂, ret₂⟩ := r₂
    cases ret₂ with
    | error e => exact Dirs.driverUnregister hdevice m.id hlast
    | ok u => exact hdevice

theorem Dirs.miscRegister (h : Dirs n L w) (o : MiscOutcomes)
    (hreg : w.miscRegistered Mod.miscEcho.id = false)
    (hfresh : w.dfs.refcnt = 0 → o.debugfsRoot = true → n = 0) :
    AfterInit n L .miscEcho (miscRegister w miscArgs o).1 (miscRegister w miscArgs o).2 := by
  have hframe : ∀ f, DirFrame w
      { w.modDev Mod.miscEcho.dev fun d => d.miscBind miscArgs with dfs := f } :=
    dirFrame_miscBind w Mod.miscEcho.id miscArgs
  rw [miscRegister_eq hreg]
  cases o.miscRegister with
  | some e =>
    have hcounts := (h.counts.init hfresh).exit
    refine ⟨(hframe _).ok h.ok hcounts.alive (.inl (h.counts.init_exit_root _)), hcounts,
      fun x => ?_⟩
    have hdir : ((w.modDev Mod.miscEcho.dev fun d => d.miscBind miscArgs).dev x).debugfsDir =
        (w.dev x).debugfsDir := (hframe w.dfs).dir x
    change ((w.modDev Mod.miscEcho.dev fun d => d.miscBind miscArgs).dev x).debugfsDir = none ∨ _
    rw [hdir]
    exact h.owned x
  | none =>
    have h₁ : Dirs (n + 1) L (miscBound w o) := h.init (hframe _) rfl hfresh
    obtain ⟨hmisc, hdfs⟩ := debugfsAddDevice_misc (miscBound w o) Mod.miscEcho.dev o.debugfsDir
    have hadd := h₁.ok.addMisc Mod.miscEcho.id o.debugfsDir
    rw [← hmisc] at hadd
    refine ⟨hadd, ?_, fun x => ?_⟩
    · change ((miscBound w o).debugfsAddDevice Mod.miscEcho.dev o.debugfsDir).dfs.Counts (n + 1)
      rw [hdfs]
      exact h₁.counts
    · by_cases hx : x = Mod.miscEcho.dev
      · exact .inr ⟨_, Finset.mem_insert_self _ L, hx⟩
      · have hf := frame_debugfsAddDevice Mod.miscEcho.dev (miscBound w o) o.debugfsDir
        have hsame := hf.dev x hx
        change (((miscBound w o).debugfsAddDevice Mod.miscEcho.dev o.debugfsDir).dev x).debugfsDir =
          none ∨ _
        rw [hsame]
        exact (h₁.owned x).imp_right fun ⟨m', hm', he⟩ => ⟨m', Finset.mem_insert_of_mem hm', he⟩

theorem Dirs.miscUnregister (h : Dirs (n + 1) L w)
    (hreg : w.miscRegistered Mod.miscEcho.id = true) (hlast : n = 0 → L.erase .miscEcho = ∅) :
    Dirs n (L.erase .miscEcho) (miscUnregister w Mod.miscEcho.id) := by
  have hothers : ∀ x, x ≠ Mod.miscEcho.dev → (w.dev x).debugfsDir = none ∨
      ∃ m ∈ L.erase .miscEcho, x = m.dev := fun x hx =>
    (h.owned x).imp_right fun ⟨m', hm', he⟩ =>
      ⟨m', Finset.mem_erase.mpr ⟨fun hm => hx (he.trans (congrArg Mod.dev hm)), hm'⟩, he⟩
  have hok : DirsOk (NvChar.miscUnregister w Mod.miscEcho.id) := by
    refine h.ok.miscUnregister h.counts fun hn x hx => ?_
    rcases hothers x hx with hdir | ⟨m', hm', -⟩
    · exact hdir
    · rw [hlast hn] at hm'
      exact absurd hm' (Finset.notMem_empty m')
  have hgone : (NvChar.miscUnregister w Mod.miscEcho.id).dfs = w.dfs.exit ∧
      ((NvChar.miscUnregister w Mod.miscEcho.id).dev Mod.miscEcho.dev).debugfsDir = none ∧
      ∀ x, x ≠ Mod.miscEcho.dev →
        (NvChar.miscUnregister w Mod.miscEcho.id).dev x = w.dev x := by
    let w₁ := w.modDev Mod.miscEcho.dev fun d => { d with removing := true }
    let w₃ := (w₁.debugfsRemoveDevice Mod.miscEcho.dev).waitOpens Mod.miscEcho.dev
    have hf : DeviceFrame Mod.miscEcho.dev w w₃ :=
      ((frame_modDev _ w _).trans (frame_debugfsRemoveDevice _ _)).trans (frame_waitOpens _ _)
    have hself : (w₃.dev Mod.miscEcho.dev).debugfsDir = none := by
      simp only [w₃, waitOpens_dev, debugfsRemoveDevice_dev_self]
    unfold NvChar.miscUnregister
    rw [if_pos hreg]
    refine ⟨?_, hself, fun x hx => hf.dev x hx⟩
    change w₃.dfs.exit = w.dfs.exit
    rw [hf.dfs]
  refine ⟨hok, by rw [hgone.1]; exact h.counts.exit, fun x => ?_⟩
  by_cases hx : x = Mod.miscEcho.dev
  · exact .inl (by rw [hx]; exact hgone.2.1)
  · rw [hgone.2.2 x hx]
    exact hothers x hx

theorem moduleInit_loaded (configCompat : Bool) (m : Mod) (s : Loads) (o : InitOutcomes) :
    (moduleInit configCompat m s o).1.loaded = s.loaded := by
  have hbuffer : ∀ m v, (bufferInit m v s o).1.loaded = s.loaded := by
    intro m v
    unfold bufferInit
    split
    · rfl
    · split <;> rfl
  cases m with
  | echo => exact hbuffer .echo echoValues
  | demo => exact hbuffer .demo (demoValues configCompat)
  | selftest =>
    change (selftestInit s o).1.loaded = s.loaded
    unfold selftestInit
    split
    · rfl
    · simp only
      split <;> rfl
  | miscEcho =>
    change (miscEchoInit s o).1.loaded = s.loaded
    unfold miscEchoInit
    split
    · rfl
    · split <;> rfl

/-- Whether `debugfs_create_dir` succeeds for the root, if the init function comes to it. -/
def Mod.createsRoot : Mod → InitOutcomes → Bool
  | .miscEcho, o => o.misc.debugfsRoot
  | _, o => o.driver.debugfsRoot

theorem Dirs.bufferInit {s : Loads} (h : Dirs n L s.w) {v : CdevValues} (hdev : m.dev = .cdev m.id)
    (o : InitOutcomes) (hfresh : s.w.dfs.refcnt = 0 → o.driver.debugfsRoot = true → n = 0)
    (hlast : n = 0 → L = ∅) :
    AfterInit n L m (bufferInit m v s o).1.w (bufferInit m v s o).2 := by
  have hboth := h.registerBoth (v := v) hdev o hfresh hlast
  unfold ModuleLoads.bufferInit
  split
  · exact h
  · generalize ModuleLoads.registerBoth m v s.w o = r at hboth
    obtain ⟨w', ret⟩ := r
    cases ret <;> exact hboth

theorem Dirs.selftestInit {s : Loads} (h : Dirs n L s.w) (hout : .selftest ∉ L) (o : InitOutcomes)
    (hfresh : s.w.dfs.refcnt = 0 → o.driver.debugfsRoot = true → n = 0) (hlast : n = 0 → L = ∅) :
    AfterInit n L .selftest (selftestInit s o).1.w (selftestInit s o).2 := by
  have hboth := h.registerBoth (m := .selftest) (v := selftestValues) rfl o hfresh hlast
  unfold ModuleLoads.selftestInit
  generalize ModuleLoads.registerBoth .selftest selftestValues s.w o = r at hboth
  obtain ⟨w', ret⟩ := r
  cases ret with
  | error e => exact hboth
  | ok u =>
    simp only
    split
    · have hback : (insert Mod.selftest L).erase .selftest = L := Finset.erase_insert hout
      have hgone := Dirs.unregisterBoth (m := .selftest) hboth rfl fun hn => by rw [hback, hlast hn]
      rw [hback] at hgone
      exact hgone
    · exact hboth

theorem Dirs.miscEchoInit {s : Loads} (h : Dirs n L s.w)
    (hreg : s.w.miscRegistered Mod.miscEcho.id = false) (o : InitOutcomes)
    (hfresh : s.w.dfs.refcnt = 0 → o.misc.debugfsRoot = true → n = 0) :
    AfterInit n L .miscEcho (miscEchoInit s o).1.w (miscEchoInit s o).2 := by
  have hmisc := h.miscRegister o.misc hreg hfresh
  unfold ModuleLoads.miscEchoInit
  split
  · exact h
  · generalize NvChar.miscRegister s.w miscArgs o.misc = r at hmisc
    obtain ⟨w', ret⟩ := r
    cases ret <;> exact hmisc

theorem Dirs.moduleInit {s : Loads} (h : Dirs n L s.w) (hout : m ∉ L) (configCompat : Bool)
    (o : InitOutcomes) (hf : Fresh m s.w)
    (hfresh : s.w.dfs.refcnt = 0 → m.createsRoot o = true → n = 0) (hlast : n = 0 → L = ∅) :
    AfterInit n L m (moduleInit configCompat m s o).1.w (moduleInit configCompat m s o).2 := by
  cases m with
  | echo => exact h.bufferInit rfl o hfresh hlast
  | demo => exact h.bufferInit rfl o hfresh hlast
  | selftest => exact h.selftestInit hout o hfresh hlast
  | miscEcho => exact h.miscEchoInit (hf.misc rfl) o hfresh

end

/-! ## Runs -/

/-- An init function that finds the counter at 0 can create the root only while no module is
loaded. -/
def rootFresh (s : Loads) : Label → Prop
  | .insmod m o => s.w.dfs.refcnt = 0 → m.createsRoot o = true → s.loaded = ∅
  | _ => True

instance (s : Loads) (a : Label) : Decidable (rootFresh s a) := by
  unfold rootFresh
  split <;> infer_instance

section

variable {configCompat : Bool} {s s' : Loads} {m : Mod}

theorem dirs_insmod (h : Dirs s.loaded.card s.loaded s.w) {o : InitOutcomes}
    (hf : rootFresh s (.insmod m o)) (hs : step configCompat s (.insmod m o) = some s') :
    Dirs s'.loaded.card s'.loaded s'.w := by
  simp only [step] at hs
  split at hs
  · cases hs
  · rename_i hout
    have hnone : (image m s.w).dfs.refcnt = 0 → m.createsRoot o = true → s.loaded.card = 0 :=
      fun hz hok => Finset.card_eq_zero.mpr (hf (by rwa [image_dfs] at hz) hok)
    have hinit := Dirs.moduleInit (s := { s with w := image m s.w }) (h.image m) hout configCompat o
      (image_fresh m s.w) hnone Finset.card_eq_zero.mp
    have hloaded := moduleInit_loaded configCompat m { s with w := image m s.w } o
    generalize moduleInit configCompat m { s with w := image m s.w } o = r at hs hinit hloaded
    obtain ⟨s₁, ret⟩ := r
    have hl : s₁.loaded = s.loaded := hloaded
    cases ret with
    | error e =>
      obtain rfl := Option.some.inj hs
      rw [hl]
      exact hinit
    | ok u =>
      obtain rfl := Option.some.inj hs
      change Dirs (insert m s₁.loaded).card (insert m s₁.loaded) s₁.w
      rw [hl, Finset.card_insert_of_notMem hout]
      exact hinit

theorem dirs_rmmod {e : Surroundings} {held : Mod → Option Holding} (hsound : Sound e held s)
    (h : Dirs s.loaded.card s.loaded s.w) (hs : step configCompat s (.rmmod m) = some s') :
    Dirs s'.loaded.card s'.loaded s'.w := by
  simp only [step] at hs
  split at hs
  · rename_i hguard
    obtain rfl := Option.some.inj hs
    have hin := hguard.1
    have hpos : 0 < s.loaded.card := Finset.card_pos.mpr ⟨m, hin⟩
    have hcard : (s.loaded.erase m).card = s.loaded.card - 1 := Finset.card_erase_of_mem hin
    obtain ⟨n, hn⟩ : ∃ n, s.loaded.card = n + 1 := ⟨s.loaded.card - 1, by omega⟩
    rw [hn] at h
    have herase : (s.loaded.erase m).card = n := by omega
    have hlast : n = 0 → s.loaded.erase m = ∅ := fun hz =>
      Finset.card_eq_zero.mp (herase.trans hz)
    have hexit : Dirs n (s.loaded.erase m) (moduleExit m s).w := by
      cases m with
      | echo => exact h.unregisterBoth rfl hlast
      | demo => exact h.unregisterBoth rfl hlast
      | selftest => exact h.unregisterBoth rfl hlast
      | miscEcho => exact h.miscUnregister (((hsound.own .miscEcho).misc_iff rfl).mpr hin) hlast
    have hloaded : (moduleExit m s).loaded = s.loaded := by cases m <;> rfl
    change Dirs ((moduleExit m s).loaded.erase m).card ((moduleExit m s).loaded.erase m)
      (moduleExit m s).w
    rw [hloaded, herase]
    exact hexit
  · cases hs

theorem dirs_step {e : Surroundings} {held : Mod → Option Holding} (hsound : Sound e held s)
    (h : Dirs s.loaded.card s.loaded s.w) {a : Label} (hf : rootFresh s a)
    (hs : step configCompat s a = some s') : Dirs s'.loaded.card s'.loaded s'.w := by
  cases a with
  | insmod m o => exact dirs_insmod h hf hs
  | rmmod m => exact dirs_rmmod hsound h hs
  | openDev m o =>
    simp only [step] at hs
    split at hs
    · obtain rfl := Option.some.inj hs
      obtain ⟨k, r, l, heff⟩ := charOpen_effect s.w m.dev o
      rw [heff]
      exact h.same (dirFrame_withOpens s.w m.dev k r l) rfl
    · cases hs
  | closeFile f r =>
    simp only [step] at hs
    split at hs
    · obtain rfl := Option.some.inj hs
      obtain ⟨k, r, l, heff⟩ := charRelease_effect s.w f r
      rw [heff]
      exact h.same (dirFrame_withOpens s.w f.dev k r l) rfl
    · cases hs

end

theorem dirs_start (e : Surroundings) : Dirs 0 ∅ (start e).w where
  ok := ⟨fun _ => .inl rfl, (fun r hr => by cases hr), fun c hc => by cases hc⟩
  counts := ⟨fun r hr => absurd hr (Finset.notMem_empty r), .inl ⟨rfl, rfl⟩⟩
  owned := fun _ => .inl rfl

def alone : Surroundings where
  regions := []
  classes := []
  nextClass := 0
  nodes := ∅
  packed := packed_nil
  below _ hc := absurd hc List.not_mem_nil
  distinct := List.Pairwise.nil
  nodesBelow _ hn := absurd hn (Finset.notMem_empty _)

/-- `nv_char_echo`, for which the root can be created or not, then `nv_char_demo`; they go in the
same order. -/
def echoThenDemo (first : Bool) : List Label :=
  let outcomes (m : Mod) (ok : Bool) : InitOutcomes :=
    { kzalloc := true
      driver := ⟨true, none, 511 - m.id, none, ok⟩
      device := ⟨none, none, none, true⟩
      misc := ⟨true, none, true⟩ }
  [.insmod .echo (outcomes .echo first), .insmod .demo (outcomes .demo true), .rmmod .echo,
    .rmmod .demo]

/-- Without the first root the directory of `nv_char_demo` goes with `nv_char_echo`, and is removed
again. -/
example : (run (step true) (start alone) (echoThenDemo false)).map (fun s =>
    decide (.dirRemove Mod.demo.dev false ∈ s.w.k.calls)) = some true := by decide

end LinuxDriverFramework.NvChar.ModuleLoads
