import LinuxDriverFramework.NvChar.ModuleCycles

/-! # Modules loaded and unloaded in any order

* `Own`: what is known of one module. `Sound`: the invariant, with the kernel's objects and the
  open descriptors.
* `Sound.replace`: a call of one module's init or exit function keeps what is known of the others.
* `Sound.step`: the step of the invariant, whichever calls fail.
* `Clean`: what it says about every state. -/

namespace LinuxDriverFramework.NvChar.ModuleLoads
open Foundations
set_option autoImplicit false

/-! ## The invariant -/

/-- What is known of a module that holds `v`. -/
structure Own (v : Option Holding) (m : Mod) (s : Loads) : Prop where
  held_iff : v.isSome = true ↔ m ∈ s.loaded ∧ m ≠ .miscEcho
  misc_iff : m = .miscEcho → (s.w.miscRegistered m.id = true ↔ m ∈ s.loaded)
  buf_iff : m ∈ s.bufs ↔ m ∈ s.loaded ∧ m ≠ .selftest
  running : ∀ h, v = some h → Running m h.devt h.cls s.w
  owner : m ∈ s.loaded → (s.w.dev m.dev).owner = some m.id

structure Sound (e : Surroundings) (held : Mod → Option Holding) (s : Loads) : Prop where
  kernel : Held e held s.w.k
  own : ∀ m, Own (held m) m s
  balanced : OpensBalanced s.w
  files : ∀ f ∈ s.w.files, ∃ m ∈ s.loaded, f = ⟨m.dev, m.id⟩
  root : Rooted s.w.dfs
  refcnt : s.w.dfs.refcnt ≤ s.loaded.card

/-- Only the data of one module may change. -/
structure Apart (m : Mod) (s s' : Loads) : Prop where
  files : s'.w.files = s.w.files
  refs : s'.w.k.refs = s.w.k.refs
  dev : ∀ y, y ≠ m.dev → s'.w.dev y = s.w.dev y
  drv : ∀ i, i ≠ m.id → s'.w.drv i = s.w.drv i
  misc : ∀ i, i ≠ m.id → s'.w.miscRegistered i = s.w.miscRegistered i
  loaded : ∀ m', m' ≠ m → (m' ∈ s'.loaded ↔ m' ∈ s.loaded)
  bufs : ∀ m', m' ≠ m → (m' ∈ s'.bufs ↔ m' ∈ s.bufs)

theorem Mod.dev_injective {m m' : Mod} (h : m.dev = m'.dev) : m = m' := by
  cases m <;> cases m' <;> first | rfl | cases h

theorem Mod.dev_eq_cdev {m : Mod} (h : m ≠ .miscEcho) : m.dev = .cdev m.id := by
  cases m <;> first | rfl | exact absurd rfl h

section

variable {e : Surroundings} {held : Mod → Option Holding} {s s' : Loads} {m : Mod}
  {v : Option Holding}

theorem Running.congr {devt c : ℕ} {w w' : World} (h : Running m devt c w)
    (hdrv : w'.drv m.id = w.drv m.id) (hdev : w'.dev (.cdev m.id) = w.dev (.cdev m.id)) :
    Running m devt c w' := by
  constructor
  case devt_ne => exact h.devt_ne
  case registered => rw [hdev]; exact h.registered
  case driver => rw [hdev]; exact h.driver
  case index => rw [hdev]; exact h.index
  case dev_devt => rw [hdev]; exact h.dev_devt
  case device => rw [hdev]; exact h.device
  all_goals rw [hdrv]
  case count => exact h.count
  case major => exact h.major
  case managed => exact h.managed
  case drv_devt => exact h.drv_devt
  case cls => exact h.cls
  case table => exact h.table

theorem Own.ne_miscEcho (h : Own v m s) {a : Holding} (hv : v = some a) : m ≠ .miscEcho :=
  (h.held_iff.mp (hv ▸ rfl)).2

theorem Own.apart {m' : Mod} (h : Own v m' s) (ha : Apart m s s') (hne : m' ≠ m) : Own v m' s' := by
  have hid : m'.id ≠ m.id := fun he => hne (Mod.id_injective he)
  have hdev : m'.dev ≠ m.dev := fun he => hne (Mod.dev_injective he)
  refine ⟨?_, fun hm => ?_, ?_, fun a hv => ?_, fun hin => ?_⟩
  · rw [ha.loaded m' hne]
    exact h.held_iff
  · rw [ha.misc m'.id hid, ha.loaded m' hne]
    exact h.misc_iff hm
  · rw [ha.bufs m' hne, ha.loaded m' hne]
    exact h.buf_iff
  · have hcdev := Mod.dev_eq_cdev (h.ne_miscEcho hv)
    exact (h.running a hv).congr (ha.drv m'.id hid) (ha.dev _ (hcdev ▸ hdev))
  · rw [ha.dev m'.dev hdev]
    exact h.owner ((ha.loaded m' hne).mp hin)

theorem Sound.replace (h : Sound e held s) (ha : Apart m s s')
    (hidle : ∀ f ∈ s.w.files, f.dev ≠ m.dev) (hk : Held e (Function.update held m v) s'.w.k)
    (hown : Own v m s') (hopens : (s'.w.dev m.dev).opens = 0) (hroot : Rooted s'.w.dfs)
    (hcnt : s'.w.dfs.refcnt ≤ s'.loaded.card) : Sound e (Function.update held m v) s' where
  kernel := hk
  own m' := by
    by_cases hne : m' = m
    · rw [hne, Function.update_self]
      exact hown
    · rw [Function.update_of_ne hne]
      exact (h.own m').apart ha hne
  balanced := by
    refine ⟨fun x => ?_, fun i => ?_⟩
    · rw [liveOn, ha.files, ← liveOn]
      by_cases hx : x = m.dev
      · rw [hx, hopens, liveOn_eq_zero.mpr hidle]
        rfl
      · rw [ha.dev x hx]
        exact h.balanced.1 x
    · rw [ha.refs, liveFor, ha.files, ← liveFor]
      exact h.balanced.2 i
  files f hf := by
    rw [ha.files] at hf
    obtain ⟨m', hm', rfl⟩ := h.files f hf
    have hne : m' ≠ m := fun he => hidle _ hf (congrArg Mod.dev he)
    exact ⟨m', (ha.loaded m' hne).mpr hm', rfl⟩
  root := hroot
  refcnt := hcnt

theorem sound_start (e : Surroundings) : Sound e (fun _ => none) (start e) where
  kernel := held_start e
  own m := by
    refine ⟨by simp [start], fun _ => by simp [start], by simp [start], fun a ha => ?_,
      fun hin => absurd hin (Finset.notMem_empty m)⟩
    cases ha
  balanced := ⟨fun _ => rfl, fun _ => rfl⟩
  files f hf := absurd hf List.not_mem_nil
  root := by simp [Rooted, start]
  refcnt := Nat.le_refl 0

/-! ## Opening and closing -/

theorem charOpen_files (w : World) (x : DevId) (o : OpenOutcomes) :
    (charOpen w x o).1.files = w.files ∨
      ∃ m, w.devOwner x = some m ∧ (charOpen w x o).1.files = ⟨x, m⟩ :: w.files := by
  obtain ⟨n, r, hfiles⟩ := acquireOpen_effect w x o.tryModuleGet
  unfold charOpen
  cases hacq : acquireOpen w x o.tryModuleGet with
  | mk w' ret =>
    rw [hacq] at hfiles
    obtain rfl : w' = w.withOpens x n r w.files := hfiles
    cases ret with
    | error e => exact .inl rfl
    | ok m =>
      have howner := (acquireOpen_ok hacq).2.1
      simp only
      split
      · obtain ⟨n', r', heq⟩ := releaseOpen_effect (w.withOpens x n r w.files) x
        rw [heq]
        exact .inl rfl
      · exact .inr ⟨m, howner, rfl⟩

theorem withOpens_dev (w : World) (x y : DevId) (n : ℤ) (r : Module → ℤ) (l : List File) :
    ∃ k, (w.withOpens x n r l).dev y = { w.dev y with opens := k } := by
  by_cases hy : y = x
  · subst hy
    exact ⟨n, Function.update_self _ _ _⟩
  · exact ⟨(w.dev y).opens, Function.update_of_ne hy _ _⟩

theorem Own.withOpens (h : Own v m s) (x : DevId) (n : ℤ) (r : Module → ℤ) (l : List File) :
    Own v m { s with w := s.w.withOpens x n r l } where
  held_iff := h.held_iff
  misc_iff := h.misc_iff
  buf_iff := h.buf_iff
  running a hv := by
    have hr := h.running a hv
    obtain ⟨k, hk⟩ := withOpens_dev s.w x (.cdev m.id) n r l
    exact ⟨hr.count, hr.major, hr.managed, hr.drv_devt, hr.cls, hr.table,
      by rw [hk]; exact hr.registered, by rw [hk]; exact hr.driver, by rw [hk]; exact hr.index,
      by rw [hk]; exact hr.dev_devt, by rw [hk]; exact hr.device, hr.devt_ne⟩
  owner hin := by
    obtain ⟨k, hk⟩ := withOpens_dev s.w x m.dev n r l
    rw [hk]
    exact h.owner hin

theorem Sound.withOpens (h : Sound e held s) {w' : World} {x : DevId} {n : ℤ} {r : Module → ℤ}
    {l : List File} (hw : w' = s.w.withOpens x n r l) (hbal : OpensBalanced w')
    (hfiles : ∀ f ∈ w'.files, ∃ m ∈ s.loaded, f = ⟨m.dev, m.id⟩) :
    Sound e held { s with w := w' } := by
  subst hw
  have hk := h.kernel
  exact ⟨⟨hk.regions, hk.packed, hk.classes, hk.below, hk.distinct, hk.nodes, hk.nodesBelow, hk.cdevs,
    hk.proper⟩, fun m => (h.own m).withOpens x n r l, hbal, hfiles, h.root, h.refcnt⟩

theorem Sound.devOwner (h : Sound e held s) (hm : m ∈ s.loaded) :
    s.w.devOwner m.dev = some m.id := by
  rw [World.devOwner, (h.own m).owner hm]

theorem Sound.owned (h : Sound e held s) : FilesOwned s.w := by
  intro f hf
  obtain ⟨m, hm, rfl⟩ := h.files f hf
  exact h.devOwner hm

theorem Sound.loaded_of_present (h : Sound e held s) (hp : s.present m = true) : m ∈ s.loaded := by
  by_cases hm : m = .miscEcho
  · subst hm
    exact ((h.own .miscEcho).misc_iff rfl).mp hp
  · have hin : m.dev ∈ s.w.k.cdevs := by
      cases m <;> first | exact absurd rfl hm | exact of_decide_eq_true hp
    rw [Mod.dev_eq_cdev hm] at hin
    by_contra hout
    refine h.kernel.cdev_notMem ?_ hin
    by_contra hsome
    exact hout ((h.own m).held_iff.mp (Option.isSome_iff_ne_none.mpr hsome)).1

theorem Sound.open (h : Sound e held s) (hm : m ∈ s.loaded) (o : OpenOutcomes) :
    Sound e held { s with w := (charOpen s.w m.dev o).1 } := by
  obtain ⟨n, r, l, heff⟩ := charOpen_effect s.w m.dev o
  refine h.withOpens heff (charOpen_balanced s.w m.dev o h.balanced h.owned).1 fun f hf => ?_
  rcases charOpen_files s.w m.dev o with hsame | ⟨i, hi, hnew⟩
  · rw [hsame] at hf
    exact h.files f hf
  · rw [h.devOwner hm] at hi
    rw [hnew] at hf
    rcases List.mem_cons.mp hf with rfl | hf
    · exact ⟨m, hm, by rw [Option.some.inj hi]⟩
    · exact h.files f hf

theorem Sound.close (h : Sound e held s) {f : File} (hf : f ∈ s.w.files) (ret : Ret) :
    Sound e held { s with w := (charRelease s.w f ret).1 } := by
  obtain ⟨n, r, heff⟩ := releaseOpen_effect { s.w with files := s.w.files.erase f } f.dev
  refine h.withOpens (l := s.w.files.erase f) heff
    (charRelease_balanced s.w f ret hf h.balanced h.owned).1 fun g hg => ?_
  change g ∈ (releaseOpen { s.w with files := s.w.files.erase f } f.dev).files at hg
  rw [heff] at hg
  exact h.files g (List.mem_of_mem_erase hg)

/-! ## Loading -/

theorem Apart.trans {s₁ s₂ s₃ : Loads} (h : Apart m s₁ s₂) (h' : Apart m s₂ s₃) : Apart m s₁ s₃ where
  files := h'.files.trans h.files
  refs := h'.refs.trans h.refs
  dev y hy := (h'.dev y hy).trans (h.dev y hy)
  drv i hi := (h'.drv i hi).trans (h.drv i hi)
  misc i hi := (h'.misc i hi).trans (h.misc i hi)
  loaded m' hm := (h'.loaded m' hm).trans (h.loaded m' hm)
  bufs m' hm := (h'.bufs m' hm).trans (h.bufs m' hm)

/-- The loaded image of the module, with everything else as it was. -/
structure Fresh (m : Mod) (w : World) : Prop where
  drv : w.drv m.id = drvZero
  dev : w.dev m.dev = .zero
  misc : m = .miscEcho → w.miscRegistered m.id = false

theorem image_fresh (m : Mod) (w : World) : Fresh m (image m w) where
  drv := Function.update_self _ _ _
  dev := Function.update_self _ _ _
  misc hm := by
    subst hm
    exact Function.update_self Mod.miscEcho.id false w.miscRegistered

theorem image_k (m : Mod) (w : World) : (image m w).k = w.k := by
  cases m <;> rfl

theorem image_dfs (m : Mod) (w : World) : (image m w).dfs = w.dfs := by
  cases m <;> rfl

theorem image_apart (m : Mod) (s : Loads) : Apart m s { s with w := image m s.w } where
  files := rfl
  refs := by rw [image_k]
  dev y hy := Function.update_of_ne hy _ _
  drv i hi := Function.update_of_ne hi _ _
  misc i hi := by
    cases m <;> first | rfl | exact Function.update_of_ne hi _ _
  loaded _ _ := Iff.rfl
  bufs _ _ := Iff.rfl

theorem apart_of_outside {w' : World} {bufs : Finset Mod} (hm : m ≠ .miscEcho)
    (h : Outside m.id s.w w') (hrefs : w'.k.refs = s.w.k.refs)
    (hbufs : ∀ m', m' ≠ m → (m' ∈ bufs ↔ m' ∈ s.bufs)) :
    Apart m s { s with w := w', bufs := bufs } where
  files := h.files
  refs := hrefs
  dev y hy := h.dev y fun he => hy (he.trans (Mod.dev_eq_cdev hm).symm)
  drv := h.drv
  misc i _ := congrFun h.miscRegistered i
  loaded _ _ := Iff.rfl
  bufs := hbufs

/-- What the init function of a module with a cdev does. -/
structure InitFailed (m : Mod) (s s' : Loads) : Prop where
  same : Same s.w.k s'.w.k
  bufs : m ∈ s'.bufs ↔ m ∈ s.bufs
  refcnt : s'.w.dfs.refcnt ≤ s.w.dfs.refcnt
  root : Rooted s.w.dfs → Rooted s'.w.dfs

structure InitDone (m : Mod) (s s' : Loads) (root : Bool) (devt : ℕ) : Prop where
  both : Both m m.drvName root s.w s'.w devt
  bufs : m ∈ s'.bufs ↔ m ≠ .selftest

/-- Everything that an init function can do. -/
inductive InitEffect (m : Mod) (s s' : Loads) : Ret → Prop
  | failed (e : Errno) (h : InitFailed m s s') : InitEffect m s s' (.error e)
  | done (root : Bool) (devt : ℕ) (h : InitDone m s s' root devt) : InitEffect m s s' (.ok ())

/-- The module's own data, and whatever it has done. -/
structure InitSpec (m : Mod) (s : Loads) (r : Loads × Ret) : Prop where
  apart : Apart m s r.1
  loaded : r.1.loaded = s.loaded
  opens : (r.1.w.dev m.dev).opens = 0
  effect : InitEffect m s r.1 r.2

theorem bufferInit_spec {val : CdevValues} (o : InitOutcomes) (hm : m ≠ .miscEcho)
    (hbuf : m ≠ .selftest) (hname : m.drvName = some val.drvName) (hf : Fresh m s.w)
    (hcdev : .cdev m.id ∉ s.w.k.cdevs) (hbelow : ∀ c ∈ s.w.k.classes, c.id < s.w.k.nextClass)
    (hnot : m ∉ s.bufs) : InitSpec m s (bufferInit m val s o) := by
  have hdev := Mod.dev_eq_cdev hm
  have hzero := hf.dev
  rw [hdev] at hzero
  unfold bufferInit
  split
  · refine ⟨⟨rfl, rfl, fun _ _ => rfl, fun _ _ => rfl, fun _ _ => rfl, fun _ _ => Iff.rfl,
      fun _ _ => Iff.rfl⟩, rfl, ?_, .failed _ ⟨.refl _, Iff.rfl, Nat.le_refl _, id⟩⟩
    rw [hf.dev]
    rfl
  · obtain ⟨hout, hopens, hspec⟩ := registerBoth_spec (v := val) o hf.drv hzero hcdev hbelow
    rw [← hdev] at hopens
    generalize registerBoth m val s.w o = r at hout hopens hspec
    obtain ⟨w, ret⟩ := r
    rcases hspec with ⟨err, rfl, hsame, hcnt, hroot⟩ | ⟨rfl, devt, hboth⟩
    · have herase : (insert m s.bufs).erase m = s.bufs := Finset.erase_insert hnot
      simp only [herase]
      exact ⟨apart_of_outside hm hout hsame.refs fun _ _ => Iff.rfl, rfl, hopens,
        .failed err ⟨hsame, Iff.rfl, hcnt, hroot⟩⟩
    · refine ⟨apart_of_outside hm hout hboth.refs fun m' hne => ?_, rfl, hopens,
        .done _ devt ⟨hname ▸ hboth, ?_⟩⟩
      · rw [Finset.mem_insert]
        exact or_iff_right hne
      · exact iff_of_true (Finset.mem_insert_self m s.bufs) hbuf

theorem devt_zero_of_parts {devt : ℕ} (hmaj : LinuxDriverFramework.major devt = 0)
    (hmin : minor devt = 0) : devt = 0 := by
  rw [LinuxDriverFramework.major, Nat.shiftRight_eq_div_pow] at hmaj
  rw [minor, Nat.and_two_pow_sub_one_eq_mod] at hmin
  rw [← Nat.div_add_mod devt (2 ^ minorBits), hmaj, hmin, Nat.mul_zero]

/-- The check of the number never fails. -/
theorem selftestInit_spec (o : InitOutcomes) (hf : Fresh .selftest s.w)
    (hcdev : .cdev Mod.selftest.id ∉ s.w.k.cdevs)
    (hbelow : ∀ c ∈ s.w.k.classes, c.id < s.w.k.nextClass) (hnot : .selftest ∉ s.bufs) :
    InitSpec .selftest s (selftestInit s o) := by
  have hm : Mod.selftest ≠ .miscEcho := by decide
  obtain ⟨hout, hopens, hspec⟩ := registerBoth_spec (m := .selftest) (v := selftestValues) o hf.drv
    hf.dev hcdev hbelow
  unfold selftestInit
  generalize registerBoth .selftest selftestValues s.w o = r at hout hopens hspec
  obtain ⟨w, ret⟩ := r
  rcases hspec with ⟨err, rfl, hsame, hcnt, hroot⟩ | ⟨rfl, devt, hboth⟩
  · exact ⟨apart_of_outside hm hout hsame.refs fun _ _ => Iff.rfl, rfl, hopens,
      .failed err ⟨hsame, Iff.rfl, hcnt, hroot⟩⟩
  · have hne : ¬ (LinuxDriverFramework.major (w.dev Mod.selftest.dev).devt = 0 ∧
        minor (w.dev Mod.selftest.dev).devt = 0) := by
      rintro ⟨hmaj, hmin⟩
      have hdevt := hboth.running.dev_devt
      exact hboth.running.devt_ne (hdevt.symm.trans (devt_zero_of_parts hmaj hmin))
    simp only [if_neg hne]
    exact ⟨apart_of_outside hm hout hboth.refs fun _ _ => Iff.rfl, rfl, hopens,
      .done _ devt ⟨hboth, iff_of_false hnot (fun h => h rfl)⟩⟩

theorem Apart.refl (m : Mod) (s : Loads) : Apart m s s :=
  ⟨rfl, rfl, fun _ _ => rfl, fun _ _ => rfl, fun _ _ => rfl, fun _ _ => Iff.rfl, fun _ _ => Iff.rfl⟩

/-- What the init function of the misc module does. -/
structure MiscSpec (s : Loads) (r : Loads × Ret) : Prop where
  apart : Apart .miscEcho s r.1
  loaded : r.1.loaded = s.loaded
  k : r.1.w.k = s.w.k
  opens : (r.1.w.dev Mod.miscEcho.dev).opens = 0
  root : Rooted s.w.dfs → Rooted r.1.w.dfs
  registered : r.1.w.miscRegistered Mod.miscEcho.id = true ↔ r.2 = .ok ()
  bufs : .miscEcho ∈ r.1.bufs ↔ r.2 = .ok ()
  failed : ∀ err, r.2 = .error err → r.1.w.dfs.refcnt ≤ s.w.dfs.refcnt
  done : r.2 = .ok () → r.1.w.dfs.refcnt ≤ s.w.dfs.refcnt + 1 ∧
    (r.1.w.dev Mod.miscEcho.dev).owner = some Mod.miscEcho.id

/-- The device filled in, and the root counted. -/
def miscBound (w : World) (o : MiscOutcomes) : World :=
  { w.modDev Mod.miscEcho.dev fun d => d.miscBind miscArgs with dfs := w.dfs.init o.debugfsRoot }

theorem miscRegister_eq {w : World} {o : MiscOutcomes}
    (h : w.miscRegistered Mod.miscEcho.id = false) :
    miscRegister w miscArgs o =
      match o.miscRegister with
      | some err => ({ miscBound w o with dfs := (w.dfs.init o.debugfsRoot).exit }, .error err)
      | none =>
        let w' := (miscBound w o).debugfsAddDevice Mod.miscEcho.dev o.debugfsDir
        ({ w' with miscRegistered := Function.update w'.miscRegistered Mod.miscEcho.id true },
          .ok ()) := by
  simp only [miscRegister, miscArgs, h, Bool.false_eq_true, if_false]
  rfl

theorem miscBound_dev (w : World) (o : MiscOutcomes) :
    (miscBound w o).dev Mod.miscEcho.dev = (w.dev Mod.miscEcho.dev).miscBind miscArgs := by
  simp [miscBound]

theorem miscEchoInit_spec (o : InitOutcomes) (hf : Fresh .miscEcho s.w) (hnot : .miscEcho ∉ s.bufs) :
    MiscSpec s (miscEchoInit s o) := by
  have hreg := hf.misc rfl
  unfold miscEchoInit
  split
  · refine ⟨.refl _ s, rfl, rfl, ?_, id, ?_, ?_, fun _ _ => Nat.le_refl _, fun h => by cases h⟩
    · rw [hf.dev]
      rfl
    · exact iff_of_false (by rw [hreg]; decide) (by simp)
    · exact iff_of_false hnot (by simp)
  · rw [miscRegister_eq hreg]
    cases hret : o.misc.miscRegister with
    | some err =>
      have herase : (insert Mod.miscEcho s.bufs).erase .miscEcho = s.bufs :=
        Finset.erase_insert hnot
      simp only [herase]
      refine ⟨⟨rfl, rfl, fun y hy => Function.update_of_ne hy _ _, fun _ _ => rfl, fun _ _ => rfl,
        fun _ _ => Iff.rfl, fun _ _ => Iff.rfl⟩, rfl, rfl, ?_, fun h => (h.init _).exit, ?_, ?_,
        fun _ _ => ?_, fun h => by cases h⟩
      · exact congrArg NvCharDev.opens (miscBound_dev s.w o.misc)
      · refine iff_of_false (fun h => ?_) (by simp)
        rw [← Bool.not_eq_true] at hreg
        exact hreg h
      · exact iff_of_false hnot (by simp)
      · change (s.w.dfs.init o.misc.debugfsRoot).exit.refcnt ≤ s.w.dfs.refcnt
        rw [refcnt_exit]
        exact Nat.sub_le_of_le_add (refcnt_init_le s.w.dfs o.misc.debugfsRoot)
    | none =>
      have hframe :=
        frame_debugfsAddDevice Mod.miscEcho.dev (miscBound s.w o.misc) o.misc.debugfsDir
      have hopens :=
        opens_debugfsAddDevice (miscBound s.w o.misc) Mod.miscEcho.dev o.misc.debugfsDir
      obtain ⟨hdrv, hk⟩ :=
        debugfsAddDevice_rest (miscBound s.w o.misc) Mod.miscEcho.dev o.misc.debugfsDir
      simp only
      generalize (miscBound s.w o.misc).debugfsAddDevice Mod.miscEcho.dev o.misc.debugfsDir = w₂
        at hframe hopens hdrv hk
      have hdfs : w₂.dfs = s.w.dfs.init o.misc.debugfsRoot := hframe.dfs
      refine ⟨⟨hframe.files, hframe.refs, fun y hy => ?_, fun i _ => congrFun hdrv i,
        fun i hi => ?_, fun _ _ => Iff.rfl, fun m' hne => ?_⟩, rfl, hk, ?_, fun h => ?_, ?_, ?_,
        (fun _ herr => by cases herr), fun _ => ⟨?_, ?_⟩⟩
      · exact (hframe.dev y hy).trans (Function.update_of_ne hy _ _)
      · change Function.update w₂.miscRegistered _ _ i = _
        rw [Function.update_of_ne hi, hframe.miscRegistered]
        rfl
      · rw [Finset.mem_insert]
        exact or_iff_right hne
      · exact (hopens.opens _).trans (congrArg NvCharDev.opens (miscBound_dev s.w o.misc))
      · change Rooted w₂.dfs
        rw [hdfs]
        exact h.init _
      · exact iff_of_true (Function.update_self Mod.miscEcho.id true w₂.miscRegistered) rfl
      · exact iff_of_true (Finset.mem_insert_self Mod.miscEcho s.bufs) rfl
      · change w₂.dfs.refcnt ≤ _
        rw [hdfs]
        exact refcnt_init_le s.w.dfs o.misc.debugfsRoot
      · exact (hopens.owner _).trans (congrArg NvCharDev.owner (miscBound_dev s.w o.misc))

/-! ## The steps -/

theorem Sound.idle (h : Sound e held s) (hm : m ∉ s.loaded) : ∀ f ∈ s.w.files, f.dev ≠ m.dev := by
  intro f hf hdev
  obtain ⟨m', hm', rfl⟩ := h.files f hf
  exact hm (Mod.dev_injective hdev ▸ hm')

theorem Sound.none_of_notMem (h : Sound e held s) (hm : m ∉ s.loaded) : held m = none := by
  by_contra hsome
  exact hm ((h.own m).held_iff.mp (Option.isSome_iff_ne_none.mpr hsome)).1

theorem Sound.buf_notMem (h : Sound e held s) (hm : m ∉ s.loaded) : m ∉ s.bufs :=
  fun hin => hm ((h.own m).buf_iff.mp hin).1

theorem moduleInit_spec (configCompat : Bool) (o : InitOutcomes) (hm : m ≠ .miscEcho)
    (hf : Fresh m s.w) (hcdev : .cdev m.id ∉ s.w.k.cdevs)
    (hbelow : ∀ c ∈ s.w.k.classes, c.id < s.w.k.nextClass) (hnot : m ∉ s.bufs) :
    InitSpec m s (moduleInit configCompat m s o) := by
  cases m with
  | echo => exact bufferInit_spec o hm (by decide) rfl hf hcdev hbelow hnot
  | demo => exact bufferInit_spec o hm (by decide) rfl hf hcdev hbelow hnot
  | selftest => exact selftestInit_spec o hf hcdev hbelow hnot
  | miscEcho => exact absurd rfl hm

/-- The module has been loaded, or its init function has failed. -/
def afterInit (m : Mod) (r : Loads × Ret) : Loads :=
  match r with
  | (s, .error _) => s
  | (s, .ok ()) => { s with loaded := insert m s.loaded }

theorem apart_afterInit {r : Loads × Ret} (h : Apart m s r.1) : Apart m s (afterInit m r) := by
  obtain ⟨s', ret⟩ := r
  cases ret with
  | error _ => exact h
  | ok =>
    refine ⟨h.files, h.refs, h.dev, h.drv, h.misc, fun m' hne => ?_, h.bufs⟩
    rw [← h.loaded m' hne]
    change m' ∈ insert m s'.loaded ↔ _
    rw [Finset.mem_insert]
    exact or_iff_right hne

theorem Sound.insmod (h : Sound e held s) (hm : m ≠ .miscEcho) (hout : m ∉ s.loaded)
    (configCompat : Bool) (o : InitOutcomes) :
    ∃ held', Sound e held'
      (afterInit m (moduleInit configCompat m { s with w := image m s.w } o)) := by
  have hk := h.kernel
  have hnone := h.none_of_notMem hout
  rw [← image_k m s.w] at hk
  have hspec := moduleInit_spec (s := { s with w := image m s.w }) configCompat o hm
    (image_fresh m s.w) (hk.cdev_notMem hnone) hk.below (h.buf_notMem hout)
  generalize moduleInit configCompat m { s with w := image m s.w } o = r at hspec
  have hapart := apart_afterInit ((image_apart m s).trans hspec.apart)
  have hcnt := h.refcnt
  have hroot := h.root
  rw [← image_dfs m s.w] at hcnt hroot
  obtain ⟨-, hloaded, hopens, heffect⟩ := hspec
  obtain ⟨s', ret⟩ := r
  cases heffect with
  | failed err hfail =>
    have hself : Function.update held m none = held := hnone ▸ Function.update_eq_self m held
    have hout' : m ∉ s'.loaded := hloaded ▸ hout
    refine ⟨_, h.replace (v := none) hapart (h.idle hout) ?_ ?_ hopens (hfail.root hroot) ?_⟩
    · rw [hself]
      exact hk.same hfail.same
    · exact
        { held_iff := iff_of_false (by simp) fun hin => hout' hin.1
          misc_iff := fun he => absurd he hm
          buf_iff := iff_of_false (fun hin => h.buf_notMem hout (hfail.bufs.mp hin))
            fun hin => hout' hin.1
          running := fun a ha => by cases ha
          owner := fun hin => absurd hin hout' }
    · change s'.w.dfs.refcnt ≤ s'.loaded.card
      rw [hloaded]
      exact hfail.refcnt.trans hcnt
  | done root devt hdone =>
    have hboth := hdone.both
    have hin : m ∈ insert m s'.loaded := Finset.mem_insert_self m s'.loaded
    refine ⟨_, h.replace (v := some ⟨devt, _⟩) hapart (h.idle hout) (hk.add hnone hboth) ?_ hopens
      ?_ ?_⟩
    · exact
        { held_iff := iff_of_true rfl ⟨hin, hm⟩
          misc_iff := fun he => absurd he hm
          buf_iff := hdone.bufs.trans (and_iff_right hin).symm
          running := fun a ha => by
            obtain rfl := Option.some.inj ha
            exact hboth.running
          owner := fun _ => by
            rw [Mod.dev_eq_cdev hm]
            exact hboth.owner }
    · change Rooted s'.w.dfs
      rw [hboth.dfs]
      exact hroot.init root
    · change s'.w.dfs.refcnt ≤ (insert m s'.loaded).card
      rw [hboth.dfs, hloaded, Finset.card_insert_of_notMem hout]
      exact (refcnt_init_le _ root).trans (Nat.succ_le_succ hcnt)

theorem Sound.insmodMisc (h : Sound e held s) (hout : .miscEcho ∉ s.loaded) (o : InitOutcomes) :
    Sound e held (afterInit .miscEcho (miscEchoInit { s with w := image .miscEcho s.w } o)) := by
  have hk := h.kernel
  have hnone := h.none_of_notMem hout
  have hspec := miscEchoInit_spec (s := { s with w := image .miscEcho s.w }) o
    (image_fresh .miscEcho s.w) (h.buf_notMem hout)
  generalize miscEchoInit { s with w := image .miscEcho s.w } o = r at hspec
  have hapart := apart_afterInit ((image_apart .miscEcho s).trans hspec.apart)
  have hself : Function.update held .miscEcho none = held :=
    hnone ▸ Function.update_eq_self Mod.miscEcho held
  have hroot := hspec.root h.root
  have hcnt := h.refcnt
  rw [← hself]
  obtain ⟨-, hloaded, hk', hopens, -, hreg, hbufs, hfail, hdone⟩ := hspec
  obtain ⟨s', ret⟩ := r
  have hk'' : Held e (Function.update held .miscEcho none) s'.w.k := by
    rw [hself, hk']
    exact hk
  cases ret with
  | error err =>
    have hout' : .miscEcho ∉ s'.loaded := hloaded ▸ hout
    refine h.replace hapart (h.idle hout) hk'' ?_ hopens hroot ?_
    · exact
        { held_iff := iff_of_false (by simp) fun hin => hin.2 rfl
          misc_iff := fun _ => iff_of_false (fun hr => by cases hreg.mp hr) hout'
          buf_iff := iff_of_false (fun hin => by cases hbufs.mp hin) fun hin => hout' hin.1
          running := fun a ha => by cases ha
          owner := fun hin => absurd hin hout' }
    · change s'.w.dfs.refcnt ≤ s'.loaded.card
      rw [hloaded]
      exact (hfail err rfl).trans hcnt
  | ok =>
    have hin : Mod.miscEcho ∈ insert .miscEcho s'.loaded := Finset.mem_insert_self _ _
    refine h.replace hapart (h.idle hout) hk'' ?_ hopens hroot ?_
    · exact
        { held_iff := iff_of_false (by simp) fun hin => hin.2 rfl
          misc_iff := fun _ => iff_of_true (hreg.mpr rfl) hin
          buf_iff := iff_of_true (hbufs.mpr rfl) ⟨hin, by decide⟩
          running := fun a ha => by cases ha
          owner := fun _ => (hdone rfl).2 }
    · change s'.w.dfs.refcnt ≤ (insert .miscEcho s'.loaded).card
      rw [hloaded]
      refine ((hdone rfl).1).trans ?_
      change s.w.dfs.refcnt + 1 ≤ (insert Mod.miscEcho s.loaded).card
      rw [Finset.card_insert_of_notMem hout]
      exact Nat.succ_le_succ hcnt

theorem Sound.idle_of_refs (h : Sound e held s) (hrefs : s.w.k.refs m.id = 0) :
    ∀ f ∈ s.w.files, f.dev ≠ m.dev := by
  intro f hf hdev
  obtain ⟨m', -, rfl⟩ := h.files f hf
  obtain rfl := Mod.dev_injective hdev
  have hlive := h.balanced.2 m'.id
  rw [hrefs, liveFor] at hlive
  have hpos : 0 < s.w.files.countP fun f => f.owner = m'.id :=
    List.countP_pos_iff.mpr ⟨_, hf, decide_eq_true rfl⟩
  omega

theorem Sound.opens_zero (h : Sound e held s) (hidle : ∀ f ∈ s.w.files, f.dev ≠ m.dev) :
    (s.w.dev m.dev).opens = 0 := by
  rw [h.balanced.1 m.dev, liveOn_eq_zero.mpr hidle]
  rfl

/-- The module is gone. -/
def afterExit (m : Mod) (s : Loads) : Loads := { s with loaded := s.loaded.erase m }

theorem apart_afterExit (h : Apart m s s') : Apart m s (afterExit m s') := by
  refine ⟨h.files, h.refs, h.dev, h.drv, h.misc, fun m' hne => ?_, h.bufs⟩
  rw [← h.loaded m' hne]
  change m' ∈ s'.loaded.erase m ↔ _
  rw [Finset.mem_erase]
  exact and_iff_right hne

theorem Sound.rmmod (h : Sound e held s) (hm : m ≠ .miscEcho) (hin : m ∈ s.loaded)
    (hrefs : s.w.k.refs m.id = 0) : ∃ held', Sound e held' (afterExit m (moduleExit m s)) := by
  have hdev := Mod.dev_eq_cdev hm
  have hidle := h.idle_of_refs hrefs
  have hzero := h.opens_zero hidle
  rw [hdev] at hzero
  obtain ⟨a, ha⟩ := Option.isSome_iff_exists.mp ((h.own m).held_iff.mpr ⟨hin, hm⟩)
  have hclass := h.kernel.classes.mem (map_held ha Holding.classObj)
  obtain ⟨hout, hgone⟩ := unregisterBoth_spec hdev ((h.own m).running a ha) hzero
    (h.kernel.regions.mem (map_held ha Holding.region))
    (List.any_eq_true.mpr ⟨_, hclass, beq_self_eq_true _⟩)
    (h.kernel.nodes.mem (map_held ha fun _ => Holding.node))
    (h.kernel.cdevs.mem (map_held ha fun m _ => DevId.cdev m.id))
  have hexit : moduleExit m s =
      { s with w := unregisterBoth m s.w, bufs := (moduleExit m s).bufs } := by
    cases m <;> first | rfl | exact absurd rfl hm
  have hbufs : ∀ m', m' ≠ m → (m' ∈ (moduleExit m s).bufs ↔ m' ∈ s.bufs) := by
    intro m' hne
    cases m <;> first
      | exact Iff.rfl
      | exact Finset.mem_erase.trans (and_iff_right hne)
  have hown : m ∉ (moduleExit m s).bufs := by
    cases m with
    | selftest => exact fun hb => ((h.own .selftest).buf_iff.mp hb).2 rfl
    | _ => exact Finset.notMem_erase _ _
  rw [hexit]
  have hapart := apart_afterExit (apart_of_outside hm hout hgone.refs hbufs)
  refine ⟨_, h.replace (v := none) hapart hidle (h.kernel.remove ha hgone) ?_ ?_ ?_ ?_⟩
  · have hleft : m ∉ s.loaded.erase m := Finset.notMem_erase m s.loaded
    exact
      { held_iff := iff_of_false (by simp) fun hl => hleft hl.1
        misc_iff := fun he => absurd he hm
        buf_iff := iff_of_false hown fun hl => hleft hl.1
        running := fun a ha => by cases ha
        owner := fun hl => absurd hl hleft }
  · rw [hdev]
    exact hgone.opens.trans hzero
  · change Rooted (unregisterBoth m s.w).dfs
    rw [hgone.dfs]
    exact h.root.exit
  · change (unregisterBoth m s.w).dfs.refcnt ≤ (s.loaded.erase m).card
    rw [hgone.dfs, refcnt_exit, Finset.card_erase_of_mem hin]
    exact Nat.sub_le_sub_right h.refcnt 1

/-- What the exit function of the misc module does when no descriptor is open. -/
structure MiscGone (w w' : World) : Prop where
  files : w'.files = w.files
  drv : w'.drv = w.drv
  dev : ∀ y, y ≠ Mod.miscEcho.dev → w'.dev y = w.dev y
  opens : ∀ y, (w'.dev y).opens = (w.dev y).opens
  misc : w'.miscRegistered = Function.update w.miscRegistered Mod.miscEcho.id false
  k : ∃ l, (∀ c ∈ l, KCall.proper c = true) ∧ w'.k = { w.k with calls := l ++ w.k.calls }
  dfs : w'.dfs = w.dfs.exit

theorem miscUnregister_spec {w : World} (hreg : w.miscRegistered Mod.miscEcho.id = true)
    (hzero : (w.dev Mod.miscEcho.dev).opens = 0) :
    MiscGone w (miscUnregister w Mod.miscEcho.id) := by
  have hopens := (opens_miscUnregister w Mod.miscEcho.id).opens
  simp only [miscUnregister, hreg, if_true] at hopens ⊢
  generalize hw₁ : (w.modDev (.misc Mod.miscEcho.id) fun d => { d with removing := true }) = w₁
    at hopens ⊢
  obtain ⟨l, hl, hk, hdrv⟩ := debugfsRemoveDevice_k w₁ (.misc Mod.miscEcho.id)
  have hframe := frame_debugfsRemoveDevice (.misc Mod.miscEcho.id) w₁
  have hself := debugfsRemoveDevice_dev_self w₁ (.misc Mod.miscEcho.id)
  generalize w₁.debugfsRemoveDevice (.misc Mod.miscEcho.id) = w₂ at *
  subst hw₁
  have hwait : w₂.waitOpens (.misc Mod.miscEcho.id) = w₂ := by
    rw [World.waitOpens, if_pos]
    rw [hself, World.modDev_dev, Function.update_self]
    exact hzero
  rw [hwait] at hopens ⊢
  exact
    { files := hframe.files
      drv := hdrv
      dev := fun y hy => (hframe.dev y hy).trans (Function.update_of_ne hy _ _)
      opens := hopens
      misc := congrArg (Function.update · Mod.miscEcho.id false) hframe.miscRegistered
      k := ⟨l, hl, hk⟩
      dfs := congrArg Debugfs.exit hframe.dfs }

theorem Sound.rmmodMisc (h : Sound e held s) (hin : .miscEcho ∈ s.loaded)
    (hrefs : s.w.k.refs Mod.miscEcho.id = 0) : Sound e held (afterExit .miscEcho (miscEchoExit s)) := by
  have hidle := h.idle_of_refs hrefs
  have hzero := h.opens_zero hidle
  have hgone := miscUnregister_spec (((h.own .miscEcho).misc_iff rfl).mpr hin) hzero
  have hnone : held .miscEcho = none := by
    by_contra hsome
    exact ((h.own .miscEcho).held_iff.mp (Option.isSome_iff_ne_none.mpr hsome)).2 rfl
  have hself : Function.update held .miscEcho none = held :=
    hnone ▸ Function.update_eq_self Mod.miscEcho held
  obtain ⟨l, hl, hk⟩ := hgone.k
  have hheld : Held e held (miscUnregister s.w Mod.miscEcho.id).k := by
    rw [hk]
    have hold := h.kernel
    exact ⟨hold.regions, hold.packed, hold.classes, hold.below, hold.distinct, hold.nodes,
      hold.nodesBelow, hold.cdevs, List.forall_mem_append.mpr ⟨hl, hold.proper⟩⟩
  have hapart : Apart .miscEcho s (miscEchoExit s) := by
    refine ⟨hgone.files, ?_, hgone.dev, fun i _ => congrFun hgone.drv i, fun i hi => ?_,
      fun _ _ => Iff.rfl, fun m' hne => Finset.mem_erase.trans (and_iff_right hne)⟩
    · change (miscUnregister s.w Mod.miscEcho.id).k.refs = _
      rw [hk]
    · change (miscUnregister s.w Mod.miscEcho.id).miscRegistered i = _
      rw [hgone.misc, Function.update_of_ne hi]
  have hleft : Mod.miscEcho ∉ s.loaded.erase .miscEcho := Finset.notMem_erase _ _
  have hreg : (miscUnregister s.w Mod.miscEcho.id).miscRegistered Mod.miscEcho.id = false := by
    rw [hgone.misc, Function.update_self]
  rw [← hself]
  refine h.replace (apart_afterExit hapart) hidle (by rw [hself]; exact hheld) ?_ ?_ ?_ ?_
  · exact
      { held_iff := iff_of_false (by simp) fun hl => hl.2 rfl
        misc_iff := fun _ => iff_of_false (fun hr => by cases hreg.symm.trans hr) hleft
        buf_iff := iff_of_false (Finset.notMem_erase _ _) fun hl => hleft hl.1
        running := fun a ha => by cases ha
        owner := fun hl => absurd hl hleft }
  · exact (hgone.opens _).trans hzero
  · change Rooted (miscUnregister s.w Mod.miscEcho.id).dfs
    rw [hgone.dfs]
    exact h.root.exit
  · change (miscUnregister s.w Mod.miscEcho.id).dfs.refcnt ≤ (s.loaded.erase .miscEcho).card
    rw [hgone.dfs, refcnt_exit, Finset.card_erase_of_mem hin]
    exact Nat.sub_le_sub_right h.refcnt 1

theorem Sound.step {configCompat : Bool} {a : Label} (h : Sound e held s)
    (hs : ModuleLoads.step configCompat s a = some s') : ∃ held', Sound e held' s' := by
  cases a with
  | insmod m o =>
    simp only [ModuleLoads.step] at hs
    split at hs
    · cases hs
    · rename_i hout
      have hafter : s' =
          afterInit m (moduleInit configCompat m { s with w := image m s.w } o) := by
        split at hs <;> rename_i heq <;> rw [heq] <;> exact (Option.some.inj hs).symm
      rw [hafter]
      by_cases hm : m = .miscEcho
      · subst hm
        exact ⟨held, h.insmodMisc hout o⟩
      · exact h.insmod hm hout configCompat o
  | rmmod m =>
    simp only [ModuleLoads.step] at hs
    split at hs
    · rename_i hguard
      have hafter : s' = afterExit m (moduleExit m s) := by
        rw [← Option.some.inj hs]
        cases m <;> rfl
      rw [hafter]
      by_cases hm : m = .miscEcho
      · subst hm
        exact ⟨held, h.rmmodMisc hguard.1 hguard.2⟩
      · exact h.rmmod hm hguard.1 hguard.2
    · cases hs
  | openDev m o =>
    simp only [ModuleLoads.step] at hs
    split at hs
    · rename_i hp
      obtain rfl := Option.some.inj hs
      exact ⟨held, h.open (h.loaded_of_present hp) o⟩
    · cases hs
  | closeFile f r =>
    simp only [ModuleLoads.step] at hs
    split at hs
    · rename_i hf
      obtain rfl := Option.some.inj hs
      exact ⟨held, h.close hf r⟩
    · cases hs

end

/-! ## What holds in every state -/

/-- The kernel has the region, the class, the class device and the cdev of a loaded module. -/
structure Backed (m : Mod) (w : World) (h : Holding) : Prop where
  running : Running m h.devt h.cls w
  region : h.region m ∈ w.k.regions
  classObj : h.classObj m ∈ w.k.classes
  node : h.node ∈ w.k.nodes
  cdev : .cdev m.id ∈ w.k.cdevs

/-- Everything is as it was before the first module was loaded. -/
structure Restored (e : Surroundings) (w : World) : Prop where
  regions : w.k.regions.Perm e.regions
  classes : w.k.classes.Perm e.classes
  nodes : w.k.nodes = e.nodes
  cdevs : w.k.cdevs = ∅
  misc : w.miscRegistered Mod.miscEcho.id = false
  files : w.files = []
  refs : ∀ i, w.k.refs i = 0
  root : w.dfs.root = none

structure Clean (e : Surroundings) (s : Loads) : Prop where
  /-- every release but that of a directory has found what it released, and no wait has timed out -/
  proper : Proper s.w.k
  backed : ∀ m ∈ s.loaded, m ≠ .miscEcho → ∃ h, Backed m s.w h
  bufs : ∀ m, m ∈ s.bufs ↔ m ∈ s.loaded ∧ m ≠ .selftest
  files : ∀ f ∈ s.w.files, ∃ m ∈ s.loaded, f = ⟨m.dev, m.id⟩
  restored : s.loaded = ∅ → Restored e s.w

theorem perm_of_setOf_eq {α : Type} {l l' : List α} (h : l.Nodup) (h' : l'.Nodup)
    (heq : {a | a ∈ l} = {a | a ∈ l'}) : l.Perm l' :=
  (List.perm_ext_iff_of_nodup h h').mpr fun a => Set.ext_iff.mp heq a

theorem nodup_of_distinct {l : List ClassObj} (h : l.Pairwise fun c c' => c.id ≠ c'.id) : l.Nodup :=
  h.imp fun hne he => hne (congrArg ClassObj.id he)

theorem Sound.restored {e : Surroundings} {held : Mod → Option Holding} {s : Loads}
    (h : Sound e held s) (hl : s.loaded = ∅) : Restored e s.w := by
  have hout : ∀ m, m ∉ s.loaded := by simp [hl]
  have hnone : ∀ {β : Type} (f : Mod → Holding → β) m, (held m).map (f m) = none := by
    intro β f m
    rw [h.none_of_notMem (hout m)]
    rfl
  have hk := h.kernel
  have hfiles : s.w.files = [] := by
    refine List.eq_nil_iff_forall_not_mem.mpr fun f hf => ?_
    obtain ⟨m, hm, -⟩ := h.files f hf
    exact hout m hm
  have hcnt := h.refcnt
  rw [hl, Finset.card_empty, Nat.le_zero] at hcnt
  refine ⟨?_, ?_, ?_, ?_, ?_, hfiles, fun i => ?_, ?_⟩
  · exact perm_of_setOf_eq hk.packed.nodup e.packed.nodup (hk.regions.nothing (hnone _))
  · exact perm_of_setOf_eq (nodup_of_distinct hk.distinct) (nodup_of_distinct e.distinct)
      (hk.classes.nothing (hnone _))
  · ext n
    exact Set.ext_iff.mp (hk.nodes.nothing (hnone fun _ => Holding.node)) n
  · ext x
    exact (Set.ext_iff.mp (hk.cdevs.nothing (hnone fun m _ => DevId.cdev m.id)) x).trans (by simp)
  · rw [← Bool.not_eq_true]
    exact fun hr => hout _ (((h.own .miscEcho).misc_iff rfl).mp hr)
  · rw [h.balanced.2 i, liveFor, hfiles]
    rfl
  · have hroot := h.root
    rw [Rooted, hcnt] at hroot
    simpa using hroot

theorem Sound.clean {e : Surroundings} {held : Mod → Option Holding} {s : Loads}
    (h : Sound e held s) : Clean e s where
  proper := h.kernel.proper
  backed m hin hm := by
    obtain ⟨a, ha⟩ := Option.isSome_iff_exists.mp ((h.own m).held_iff.mpr ⟨hin, hm⟩)
    have hk := h.kernel
    exact ⟨a, (h.own m).running a ha, hk.regions.mem (map_held ha _), hk.classes.mem (map_held ha _),
      hk.nodes.mem (map_held ha fun _ => Holding.node), hk.cdevs.mem (map_held ha fun m _ => DevId.cdev m.id)⟩
  bufs m := (h.own m).buf_iff
  files := h.files
  restored := h.restored

end LinuxDriverFramework.NvChar.ModuleLoads
