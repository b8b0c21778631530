import LinuxDriverFramework.NvChar.Calls
import LinuxDriverFramework.NvChar.Slots

/-! # Tables, registered flags, classes and kernel objects stay in step

`Tabled` is the invariant behind the slot tables. A registered device sits in the slot it names, its
driver has a live class and a table, its class device is live under that class, and no two
registered devices share a device number. The last point is what keeps two devices out of one slot:
`nv_char_device_register_parent` does not look at the slot, but `device_create` refuses the number.

It holds along the calls in the order the module authors keep to: a driver is registered only while
it is not registered, and the devm core unwinds a device only after its drivers are unregistered. -/

namespace LinuxDriverFramework.NvChar
open Foundations
set_option autoImplicit false

/-- A cdev, class device or slot that was there when the call needed it. -/
def KCall.clean : KCall → Bool
  | .cdevDel _ added => added
  | .deviceDestroy _ classLive nodeLive => classLive && nodeLive
  | .slotWrite _ tableLive inRange => tableLive && inRange
  | _ => true

structure Tabled (w : World) : Prop where
  coherent : (directory w).Coherent
  driver : ∀ x, (w.dev x).registered = true → (w.dev x).driver.isSome
  misc : ∀ n, (w.dev (.misc n)).registered = false
  index_lt : ∀ x id i, (directory w).home x = some (id, i) → i < (w.drv id).count
  cls : ∀ id c, (w.drv id).cls = .obj c →
    (w.drv id).devices.isSome ∧ c < w.k.nextClass ∧ w.k.classLive c = true
  cls_inj : ∀ id id' c, (w.drv id).cls = .obj c → (w.drv id').cls = .obj c → id = id'
  homed : ∀ x id i, (directory w).home x = some (id, i) →
    (w.dev x).device.isSome ∧ (w.dev x).devt = (w.drv id).slotDevt i ∧
    ∃ c, (w.drv id).cls = .obj c ∧ (c, (w.dev x).devt) ∈ w.k.nodes
  devt_inj : ∀ x y, (w.dev x).registered = true → (w.dev y).registered = true →
    (w.dev x).devt = (w.dev y).devt → x = y
  cdevs : ∀ x, x ∈ w.k.cdevs ↔ (w.dev x).registered = true
  clean : ∀ c ∈ w.k.deviceCalls, c.clean = true
  balance : ∀ x, w.k.deviceCalls.count (.cdevAdd x) =
    w.k.deviceCalls.count (.cdevDel x true) + if (w.dev x).registered then 1 else 0

theorem Tabled.home {w : World} (h : Tabled w) {x : DevId} (hr : (w.dev x).registered = true) :
    ∃ id, (w.dev x).driver = some id ∧ (directory w).home x = some (id, (w.dev x).index) := by
  obtain ⟨id, hd⟩ := Option.isSome_iff_exists.mp (h.driver x hr)
  exact ⟨id, hd, home_eq_some.mpr ⟨hr, hd, rfl⟩⟩

theorem Tabled.slots_none {w : World} (h : Tabled w) {id : DrvId}
    (hv : (directory w).Vacant id) (i : ℕ) : (directory w).at_ id i = none := by
  by_contra hne
  obtain ⟨x, hx⟩ := Option.ne_none_iff_exists'.mp hne
  exact hv x i ((h.coherent x id i).mpr hx)

/-- Whose memory a table is makes no difference. -/
theorem Tabled.freeTables {w : World} (h : Tabled w) (dev : DeviceId) : Tabled (w.freeTables dev) :=
  ⟨h.coherent, h.driver, h.misc, h.index_lt, h.cls, h.cls_inj, h.homed, h.devt_inj, h.cdevs,
    h.clean, h.balance⟩

theorem Tabled.touchTable {w : World} (h : Tabled w) (id : DrvId) : Tabled (w.touchTable id) :=
  ⟨h.coherent, h.driver, h.misc, h.index_lt, h.cls, h.cls_inj, h.homed, h.devt_inj, h.cdevs,
    h.clean, h.balance⟩

theorem init_tabled (cfg : DrvId → DriverConfig) : Tabled (init cfg) where
  coherent := fun x id i => by simp [directory, Directory.ofFlags, Directory.at_, init, NvCharDev.zero]
  driver := fun x h => by cases h
  misc := fun _ => rfl
  index_lt := fun x id i h => by simp [directory, Directory.ofFlags, init, NvCharDev.zero] at h
  cls := fun id c h => by cases h
  cls_inj := fun id id' c h => by cases h
  homed := fun x id i h => by simp [directory, Directory.ofFlags, init, NvCharDev.zero] at h
  devt_inj := fun x y h => by cases h
  cdevs := fun x => by simp [init, NvCharDev.zero]
  clean := fun c h => by cases h
  balance := fun x => rfl

/-! ## Calls that touch none of it -/

structure SlotFrame (w w' : World) : Prop where
  drv : w'.drv = w.drv
  registered : ∀ x, (w'.dev x).registered = (w.dev x).registered
  dev : ∀ x, (w.dev x).registered = true → (w'.dev x).driver = (w.dev x).driver ∧
    (w'.dev x).index = (w.dev x).index ∧ (w'.dev x).devt = (w.dev x).devt ∧
    (w'.dev x).device = (w.dev x).device
  cdevs : w'.k.cdevs = w.k.cdevs
  nodes : w'.k.nodes = w.k.nodes
  deviceCalls : w'.k.deviceCalls = w.k.deviceCalls
  kept : ClassesKept w.k w'.k

theorem SlotFrame.refl (w : World) : SlotFrame w w := by
  constructor <;> intros <;> first | rfl | exact ⟨rfl, rfl, rfl, rfl⟩ | exact .refl _

theorem SlotFrame.trans {w₁ w₂ w₃ : World} (h : SlotFrame w₁ w₂) (h' : SlotFrame w₂ w₃) :
    SlotFrame w₁ w₃ where
  drv := h'.drv.trans h.drv
  registered := fun x => (h'.registered x).trans (h.registered x)
  dev := fun x hr => by
    obtain ⟨h₁, h₂, h₃, h₄⟩ := h.dev x hr
    obtain ⟨h₁', h₂', h₃', h₄'⟩ := h'.dev x ((h.registered x).trans hr)
    exact ⟨h₁'.trans h₁, h₂'.trans h₂, h₃'.trans h₃, h₄'.trans h₄⟩
  cdevs := h'.cdevs.trans h.cdevs
  nodes := h'.nodes.trans h.nodes
  deviceCalls := h'.deviceCalls.trans h.deviceCalls
  kept := h.kept.trans h'.kept

theorem SlotFrame.slots {w w' : World} (h : SlotFrame w w') : directory w' = directory w := by
  refine Directory.ofFlags_congr (by rw [h.drv]) h.registered fun x hr => ?_
  obtain ⟨hd, hi, -⟩ := h.dev x hr
  exact ⟨hd, hi⟩

theorem SlotFrame.tabled {w w' : World} (h : SlotFrame w w') (ht : Tabled w) : Tabled w' := by
  have hreg : ∀ x, (w'.dev x).registered = true → (w.dev x).registered = true := fun x hr =>
    (h.registered x).symm.trans hr
  constructor
  case coherent =>
    rw [h.slots]
    exact ht.coherent
  case driver =>
    intro x hr
    rw [(h.dev x (hreg x hr)).1]
    exact ht.driver x (hreg x hr)
  case misc =>
    intro n
    rw [h.registered]
    exact ht.misc n
  case index_lt =>
    rw [h.slots, h.drv]
    exact ht.index_lt
  case cls =>
    rw [h.drv]
    intro id c hc
    obtain ⟨htable, hlt, hlive⟩ := ht.cls id c hc
    exact ⟨htable, hlt.trans_le h.kept.next, (h.kept.live c hlt).trans hlive⟩
  case cls_inj =>
    rw [h.drv]
    exact ht.cls_inj
  case homed =>
    rw [h.slots, h.drv, h.nodes]
    intro x id i hx
    obtain ⟨-, -, hdevt, hdevice⟩ := h.dev x (home_eq_some.mp hx).1
    rw [hdevt, hdevice]
    exact ht.homed x id i hx
  case devt_inj =>
    intro x y hx hy hxy
    rw [(h.dev x (hreg x hx)).2.2.1, (h.dev y (hreg y hy)).2.2.1] at hxy
    exact ht.devt_inj x y (hreg x hx) (hreg y hy) hxy
  case cdevs =>
    intro x
    rw [h.cdevs, h.registered]
    exact ht.cdevs x
  case clean =>
    rw [h.deviceCalls]
    exact ht.clean
  case balance =>
    intro x
    rw [h.deviceCalls, h.registered]
    exact ht.balance x

theorem slotFrame_setK (w : World) (k : Kernel) (h₁ : k.cdevs = w.k.cdevs)
    (h₂ : k.nodes = w.k.nodes) (h₃ : k.deviceCalls = w.k.deviceCalls)
    (h₄ : ClassesKept w.k k) : SlotFrame w (w.setK k) where
  drv := rfl
  registered := fun _ => rfl
  dev := fun _ _ => ⟨rfl, rfl, rfl, rfl⟩
  cdevs := h₁
  nodes := h₂
  deviceCalls := h₃
  kept := h₄

theorem slotFrame_modDev (w : World) (x : DevId) (f : NvCharDev → NvCharDev)
    (hf : (f (w.dev x)).registered = (w.dev x).registered ∧ ((w.dev x).registered = true →
      (f (w.dev x)).driver = (w.dev x).driver ∧ (f (w.dev x)).index = (w.dev x).index ∧
      (f (w.dev x)).devt = (w.dev x).devt ∧ (f (w.dev x)).device = (w.dev x).device)) :
    SlotFrame w (w.modDev x f) := by
  constructor
  case registered =>
    intro y
    by_cases hy : y = x
    · subst hy; simpa using hf.1
    · simp [Function.update_of_ne hy]
  case dev =>
    intro y hr
    by_cases hy : y = x
    · subst hy; simpa using hf.2 hr
    · simp [Function.update_of_ne hy]
  case kept => exact .refl w.k
  all_goals rfl

theorem slotFrame_dfs (w : World) (f : Debugfs) (m : ℕ → Bool) :
    SlotFrame w { w with dfs := f, miscRegistered := m } := by
  constructor <;> intros <;> first | rfl | exact ⟨rfl, rfl, rfl, rfl⟩ | exact .refl _

theorem slotFrame_withOpens (w : World) (x : DevId) (n : ℤ) (r : Module → ℤ) (l : List File) :
    SlotFrame w (w.withOpens x n r l) := by
  have hopens : SlotFrame w (w.modDev x fun d => { d with opens := n }) :=
    slotFrame_modDev w x _ ⟨rfl, fun _ => ⟨rfl, rfl, rfl, rfl⟩⟩
  exact ⟨rfl, hopens.registered, hopens.dev, rfl, rfl, rfl, SameClasses.kept ⟨rfl, rfl⟩⟩

theorem slotFrame_debugfsAddDevice (w : World) (x : DevId) (ok : Bool) :
    SlotFrame w (w.debugfsAddDevice x ok) := by
  unfold World.debugfsAddDevice
  split
  · exact slotFrame_modDev w x _ ⟨rfl, fun _ => ⟨rfl, rfl, rfl, rfl⟩⟩
  · exact .refl w

theorem slotFrame_debugfsRemoveDevice (w : World) (x : DevId) :
    SlotFrame w (w.debugfsRemoveDevice x) := by
  unfold World.debugfsRemoveDevice
  split
  · rename_i r _
    exact (slotFrame_setK w (w.k.log (.dirRemove x (decide (r ∉ w.dfs.removed))))
      rfl rfl rfl (SameClasses.kept ⟨rfl, rfl⟩)).trans (slotFrame_modDev _ x _ ⟨rfl, fun _ => ⟨rfl, rfl, rfl, rfl⟩⟩)
  · exact .refl w

theorem slotFrame_waitOpens (w : World) (x : DevId) : SlotFrame w (w.waitOpens x) := by
  unfold World.waitOpens
  split
  · exact .refl w
  · exact slotFrame_setK w _ rfl rfl rfl (SameClasses.kept ⟨rfl, rfl⟩)

/-- A misc device has no slot, so filling it in again touches none of this. -/
theorem slotFrame_miscRegister (w : World) (a : MiscArgs) (o : MiscOutcomes)
    (hm : ∀ n, (w.dev (.misc n)).registered = false) : SlotFrame w (miscRegister w a o).1 := by
  unfold miscRegister
  split
  · rename_i n _ _ _ _ _
    split
    · exact .refl w
    · let w₁ := w.modDev (.misc n) fun d => d.miscBind a
      have hbind : SlotFrame w w₁ :=
        slotFrame_modDev w (.misc n) _ ⟨rfl, fun h => absurd h (by simp [hm n])⟩
      simp only
      split
      · exact hbind.trans ((slotFrame_dfs w₁ _ w₁.miscRegistered).trans (slotFrame_dfs _ _ _))
      · exact hbind.trans <| (slotFrame_dfs w₁ _ w₁.miscRegistered).trans <|
          (slotFrame_debugfsAddDevice _ (.misc n) o.debugfsDir).trans (slotFrame_dfs _ _ _)
  · exact .refl w

theorem slotFrame_miscUnregister (w : World) (n : ℕ) : SlotFrame w (miscUnregister w n) := by
  unfold miscUnregister
  split
  · exact (slotFrame_modDev w (.misc n) _ ⟨rfl, fun _ => ⟨rfl, rfl, rfl, rfl⟩⟩).trans <|
      (slotFrame_debugfsRemoveDevice _ _).trans <| (slotFrame_waitOpens _ _).trans <|
      slotFrame_dfs _ _ _
  · exact .refl w

theorem slotFrame_interfere (w : World) (l : List Acquisition) : SlotFrame w (w.interfere l) := by
  have hk := frame_interfere l w.k
  exact slotFrame_setK w _ hk.cdevs hk.nodes hk.deviceCalls (same_interfere l w).kept

theorem slotFrame_chrdevRelease (w : World) (dr : ChrdevDr) : SlotFrame w (w.chrdevRelease dr) := by
  obtain ⟨hdrv, hsame⟩ := chrdevRelease_drv_same w dr
  have hf := chrdevRelease_frame 0 w dr
  exact ⟨hdrv, fun x => by rw [hf.dev], fun x _ => by simp [hf.dev], hf.kernel.cdevs,
    hf.kernel.nodes, hf.kernel.deviceCalls, hsame.kept⟩

/-- Unwinding touches no class as long as the drivers with a pending class action have none. -/
theorem slotFrame_runActions (w : World) (dev : DeviceId)
    (h : ∀ id, .classRelease id ∈ w.k.devm dev → ∀ c, (w.drv id).cls ≠ .obj c) :
    SlotFrame w (w.runActions dev) :=
  runActions_rel .refl .trans (fun h => h.drv)
    (fun w _ => slotFrame_setK w _ rfl rfl rfl (SameClasses.kept ⟨rfl, rfl⟩))
    slotFrame_chrdevRelease w dev h

/-! ## Registering and unregistering a device -/

theorem Tabled.deviceUnregister {w : World} (ht : Tabled w) (x : DevId) :
    Tabled (deviceUnregister w x) ∧
    directory (NvChar.deviceUnregister w x) = (directory w).remove x := by
  cases hr : (w.dev x).registered with
  | false =>
    rw [deviceUnregister_of_not hr]
    exact ⟨ht, by simp [Directory.remove, home_of_not_registered hr]⟩
  | true =>
    obtain ⟨id, hd, hhome⟩ := ht.home hr
    obtain ⟨hdevice, hdevt, c, hc, hnode⟩ := ht.homed x id _ hhome
    obtain ⟨htable, hlt, hlive⟩ := ht.cls id c hc
    have he := deviceUnregister_effect hr hd hdevice htable hc
    have hf := deviceUnregister_frame x w
    have hgone := deviceUnregister_registered w x
    generalize NvChar.deviceUnregister w x = w' at he hf hgone ⊢
    have hother : ∀ y, (w'.dev y).registered = true → y ≠ x ∧ (w.dev y).registered = true := by
      intro y hy
      have hne : y ≠ x := by
        rintro rfl
        rw [hgone] at hy
        cases hy
      exact ⟨hne, by rwa [hf.dev y hne] at hy⟩
    have hcls : ∀ id, (w'.drv id).cls = (w.drv id).cls := fun id => by rw [hf.drv id]
    have hhomes : ∀ y p, (directory w').home y = some p →
        y ≠ x ∧ (directory w).home y = some p := by
      intro y p hy
      rw [he.slots] at hy
      refine ⟨?_, Directory.remove_home_eq_some hy⟩
      rintro rfl
      rw [Directory.remove_home_self] at hy
      cases hy
    refine ⟨?_, he.slots⟩
    constructor
    case coherent =>
      rw [he.slots]
      exact ht.coherent.remove x
    case driver =>
      intro y hy
      obtain ⟨hne, hy⟩ := hother y hy
      rw [hf.dev y hne]
      exact ht.driver y hy
    case misc =>
      intro n
      by_contra hn
      have hn' := (hother (.misc n) (by simpa using hn)).2
      rw [ht.misc n] at hn'
      cases hn'
    case index_lt =>
      intro y id' i hy
      rw [hf.drv id']
      exact ht.index_lt y id' i (hhomes y _ hy).2
    case cls =>
      intro id' c' hc'
      rw [hcls] at hc'
      rw [hf.table, hf.nextClass, Kernel.classLive, hf.classes]
      exact ht.cls id' c' hc'
    case cls_inj =>
      intro id' id'' c' h' h''
      rw [hcls] at h' h''
      exact ht.cls_inj id' id'' c' h' h''
    case homed =>
      intro y id' i hy
      obtain ⟨hne, hy⟩ := hhomes y _ hy
      obtain ⟨h₁, h₂, c', h₃, h₄⟩ := ht.homed y id' i hy
      have hslot : (w'.drv id').slotDevt i = (w.drv id').slotDevt i := by rw [hf.drv id']; rfl
      rw [hf.dev y hne, hslot, hcls, he.nodes]
      refine ⟨h₁, h₂, c', h₃, Finset.mem_erase.mpr ⟨?_, h₄⟩⟩
      -- another registered device has another number
      intro heq
      exact hne (ht.devt_inj y x (home_eq_some.mp hy).1 hr (Prod.mk.inj heq).2)
    case devt_inj =>
      intro y z hy hz hyz
      obtain ⟨hyne, hy⟩ := hother y hy
      obtain ⟨hzne, hz⟩ := hother z hz
      rw [hf.dev y hyne, hf.dev z hzne] at hyz
      exact ht.devt_inj y z hy hz hyz
    case cdevs =>
      intro y
      rw [he.cdevs, Finset.mem_erase, ht.cdevs y]
      constructor
      · rintro ⟨hne, hy⟩
        rwa [hf.dev y hne]
      · exact hother y
    case clean =>
      intro e hmem
      rw [he.calls] at hmem
      simp only [List.mem_cons] at hmem
      rcases hmem with rfl | rfl | rfl | hmem
      · simpa [KCall.clean] using (ht.cdevs x).mpr hr
      · simp [KCall.clean, hlive, hnode]
      · simpa [KCall.clean] using ht.index_lt x id _ hhome
      · exact ht.clean e hmem
    case balance =>
      intro y
      have hcdev : decide (x ∈ w.k.cdevs) = true := by simpa using (ht.cdevs x).mpr hr
      rw [he.calls, hcdev]
      have hb := ht.balance y
      by_cases hy : y = x
      · subst hy
        simpa [List.count_cons, hgone, hr] using hb
      · rw [hf.dev y hy]
        simpa [List.count_cons, Ne.symm hy] using hb

theorem DeviceFailed.tabled {w w' : World} {x : DevId} {id : DrvId} (h : DeviceFailed x id w w')
    (ht : Tabled w) (hr : (w.dev x).registered = false) : Tabled w' := by
  have hdir : directory w' = directory w := by
    refine Directory.ext (by simp only [directory, Directory.ofFlags, h.drv]) (funext fun y => ?_)
    by_cases hy : y = x
    · subst hy
      rw [home_of_not_registered h.registered, home_of_not_registered hr]
    · simp only [directory, Directory.ofFlags, h.frame.dev y hy]
  have hreg : ∀ y, (w'.dev y).registered = (w.dev y).registered := by
    intro y
    by_cases hy : y = x
    · subst hy; rw [h.registered, hr]
    · rw [h.frame.dev y hy]
  have hdev : ∀ y, (w.dev y).registered = true → w'.dev y = w.dev y := by
    intro y hy
    refine h.frame.dev y ?_
    rintro rfl
    rw [hr] at hy
    cases hy
  have hx : x ∉ w.k.cdevs := by
    rw [ht.cdevs, hr]
    simp
  constructor
  case coherent =>
    rw [hdir]
    exact ht.coherent
  case driver =>
    intro y hy
    rw [hreg] at hy
    rw [hdev y hy]
    exact ht.driver y hy
  case misc =>
    intro n
    rw [hreg]
    exact ht.misc n
  case index_lt =>
    rw [hdir, h.drv]
    exact ht.index_lt
  case cls =>
    intro id' c hc
    rw [h.drv] at hc ⊢
    rw [h.frame.nextClass, Kernel.classLive, h.frame.classes]
    exact ht.cls id' c hc
  case cls_inj =>
    rw [h.drv]
    exact ht.cls_inj
  case homed =>
    intro y id' i hy
    rw [hdir] at hy
    rw [hdev y (home_eq_some.mp hy).1, h.drv, h.nodes]
    exact ht.homed y id' i hy
  case devt_inj =>
    intro y z hy hz hyz
    rw [hreg] at hy hz
    rw [hdev y hy, hdev z hz] at hyz
    exact ht.devt_inj y z hy hz hyz
  case cdevs =>
    intro y
    rw [h.cdevs hx, hreg]
    exact ht.cdevs y
  case clean =>
    rcases h.calls with hc | hc | ⟨c, hcls, hc⟩
    · rw [hc]
      exact ht.clean
    · rw [hc]
      simpa [KCall.clean] using ht.clean
    · rw [hc]
      simpa [KCall.clean, (ht.cls id c hcls).2.2] using ht.clean
  case balance =>
    intro y
    rw [hreg]
    have hb := ht.balance y
    rcases h.calls with hc | hc | ⟨c, -, hc⟩
    · rwa [hc]
    · rw [hc]
      by_cases hy : x = y
      · subst hy
        simp
        omega
      · simpa [List.count_cons, hy] using hb
    · rw [hc]
      by_cases hy : x = y
      · subst hy
        simp
        omega
      · simpa [List.count_cons, hy] using hb

/-- The slot a registration takes is free: `device_create` has refused every number in use. -/
theorem DeviceRegistered.slot_free {w w' : World} {x : DevId} {id : DrvId} {i : ℕ}
    (h : DeviceRegistered x id i w w') (ht : Tabled w) : (directory w).at_ id i = none := by
  by_contra hne
  obtain ⟨y, hy⟩ := Option.ne_none_iff_exists'.mp hne
  obtain ⟨-, hdevt, c, -, hnode⟩ := ht.homed y id i ((ht.coherent y id i).mpr hy)
  obtain ⟨-, -, hfresh, -⟩ := h.node
  rw [hdevt] at hnode
  exact hfresh (Finset.mem_image_of_mem Prod.snd hnode)

theorem DeviceRegistered.tabled {w w' : World} {n : ℕ} {id : DrvId} {i : ℕ}
    (h : DeviceRegistered (.cdev n) id i w w') (ht : Tabled w)
    (hr : (w.dev (.cdev n)).registered = false) (hi : i < (w.drv id).count) : Tabled w' := by
  have hf := h.frame
  obtain ⟨hreg, hdriver, hindex, hdevice, hdevt⟩ := h.dev
  obtain ⟨c, hc, hfresh, hnodes⟩ := h.node
  obtain ⟨htable, hlt, hlive⟩ := ht.cls id c hc
  have hcls : ∀ id, (w'.drv id).cls = (w.drv id).cls := fun id => by rw [hf.drv id]
  have hslot : ∀ id i, (w'.drv id).slotDevt i = (w.drv id).slotDevt i := fun id i => by
    rw [hf.drv id]; rfl
  have hhome : ∀ y p, (directory w').home y = some p →
      (y = .cdev n ∧ p = (id, i)) ∨ (y ≠ .cdev n ∧ (directory w).home y = some p) := by
    intro y p hy
    rw [h.slots] at hy
    by_cases hyn : y = .cdev n
    · subst hyn
      exact .inl ⟨rfl, by simpa [Directory.put] using hy.symm⟩
    · exact .inr ⟨hyn, by simpa [Directory.put, Function.update_of_ne hyn] using hy⟩
  have hold : ∀ y, (w.dev y).registered = true → (w.dev y).devt ≠ (w.drv id).slotDevt i := by
    intro y hy heq
    obtain ⟨id', hd, hh⟩ := ht.home hy
    obtain ⟨-, -, c', -, hnode⟩ := ht.homed y id' _ hh
    rw [heq] at hnode
    exact hfresh (Finset.mem_image_of_mem Prod.snd hnode)
  constructor
  case coherent =>
    rw [h.slots]
    exact (Directory.coherent_put_iff ht.coherent (home_of_not_registered hr) htable).mpr
      (h.slot_free ht)
  case driver =>
    intro y hy
    by_cases hyn : y = .cdev n
    · subst hyn; simp [hdriver]
    · rw [hf.dev y hyn] at hy ⊢
      exact ht.driver y hy
  case misc =>
    intro m
    rw [hf.dev (.misc m) (by simp)]
    exact ht.misc m
  case index_lt =>
    intro y id' i' hy
    rw [hf.drv id']
    rcases hhome y _ hy with ⟨-, hp⟩ | ⟨-, hy⟩
    · obtain ⟨rfl, rfl⟩ := Prod.mk.inj hp
      exact hi
    · exact ht.index_lt y id' i' hy
  case cls =>
    intro id' c' hc'
    rw [hcls] at hc'
    rw [hf.table, hf.nextClass, Kernel.classLive, hf.classes]
    exact ht.cls id' c' hc'
  case cls_inj =>
    intro id' id'' c' h' h''
    rw [hcls] at h' h''
    exact ht.cls_inj id' id'' c' h' h''
  case homed =>
    intro y id' i' hy
    rcases hhome y _ hy with ⟨rfl, hp⟩ | ⟨hyn, hy⟩
    · obtain ⟨rfl, rfl⟩ := Prod.mk.inj hp
      refine ⟨hdevice, by rw [hdevt, hslot], c, by rw [hcls, hc], ?_⟩
      rw [hdevt, hnodes]
      exact Finset.mem_insert_self ..
    · obtain ⟨h₁, h₂, c', h₃, h₄⟩ := ht.homed y id' i' hy
      rw [hf.dev y hyn, hslot, hcls, hnodes]
      exact ⟨h₁, h₂, c', h₃, Finset.mem_insert_of_mem h₄⟩
  case devt_inj =>
    intro y z hy hz hyz
    by_cases hyn : y = .cdev n
    · by_cases hzn : z = .cdev n
      · rw [hyn, hzn]
      · rw [hf.dev z hzn] at hz hyz
        rw [hyn, hdevt] at hyz
        exact absurd hyz.symm (hold z hz)
    · rw [hf.dev y hyn] at hy hyz
      by_cases hzn : z = .cdev n
      · rw [hzn, hdevt] at hyz
        exact absurd hyz (hold y hy)
      · rw [hf.dev z hzn] at hz hyz
        exact ht.devt_inj y z hy hz hyz
  case cdevs =>
    intro y
    rw [h.cdevs, Finset.mem_insert, ht.cdevs y]
    by_cases hyn : y = .cdev n
    · subst hyn; simp [hreg]
    · rw [hf.dev y hyn]
      simp [hyn]
  case clean =>
    rw [h.calls]
    simpa [KCall.clean, htable, hi] using ht.clean
  case balance =>
    intro y
    rw [h.calls]
    have hb := ht.balance y
    by_cases hyn : y = .cdev n
    · subst hyn
      simpa [List.count_cons, hreg, hr] using hb
    · rw [hf.dev y hyn]
      simpa [List.count_cons, Ne.symm hyn] using hb

theorem Tabled.deviceRegister {w : World} (ht : Tabled w) (a : DeviceArgs) (o : DeviceOutcomes) :
    Tabled (deviceRegisterParent w a o).1 := by
  rcases deviceRegisterParent_cases w a o with ⟨h, -⟩ | ⟨n, id, hr, hi, ⟨-, h⟩ | ⟨-, h⟩⟩
  · rwa [h]
  · exact h.tabled ht hr
  · exact h.tabled ht hr hi

/-! ## Registering and unregistering a driver -/

theorem Tabled.replace {w w' : World} (ht : Tabled w) {id : DrvId} (hv : (directory w).Vacant id)
    (hf : DriverFrame id w w') (hr : DriverReplaced id w w') : Tabled w' := by
  have hslots : directory w' = (directory w).setTable id (w'.drv id).devices := by
    refine Directory.ext (funext fun id' => ?_) (by simp only [directory, Directory.ofFlags, hf.dev]; rfl)
    by_cases hid : id' = id
    · subst hid; simp [directory, Directory.ofFlags, Directory.setTable]
    · simp [directory, Directory.ofFlags, Directory.setTable, hid, hf.other id' hid]
  have hhome : ∀ x p, (directory w').home x = some p → (directory w).home x = some p := by
    intro x p hx
    rwa [hslots] at hx
  have hne : ∀ x id' i, (directory w').home x = some (id', i) → id' ≠ id := by
    rintro x id' i hx rfl
    exact hv x i (hhome x _ hx)
  constructor
  case coherent =>
    rw [hslots]
    refine ht.coherent.setTable hv fun i => ?_
    rcases hr.table with h | h
    · rw [h]
      exact ht.slots_none hv i
    · exact h i
  case driver =>
    rw [hf.dev]
    exact ht.driver
  case misc =>
    rw [hf.dev]
    exact ht.misc
  case index_lt =>
    intro x id' i hx
    rw [hf.other id' (hne x id' i hx)]
    exact ht.index_lt x id' i (hhome x _ hx)
  case cls =>
    intro id' c hc
    by_cases hid : id' = id
    · subst hid
      obtain ⟨h₁, -, h₃, h₄⟩ := hr.cls c hc
      exact ⟨h₁, h₃, h₄⟩
    · rw [hf.other id' hid] at hc ⊢
      obtain ⟨h₁, h₂, h₃⟩ := ht.cls id' c hc
      refine ⟨h₁, h₂.trans_le hr.next, (hr.live c h₂ fun hown => ?_).trans h₃⟩
      exact hid (ht.cls_inj id' id c hc hown)
  case cls_inj =>
    intro id₁ id₂ c h₁ h₂
    -- a new class is newer than every class of another driver
    have hfresh : ∀ id', id' ≠ id → (w'.drv id').cls = .obj c → (w'.drv id).cls ≠ .obj c := by
      intro id' hid hc hc'
      rw [hf.other id' hid] at hc
      have hlt := (ht.cls id' c hc).2.1
      have hge := (hr.cls c hc').2.1
      omega
    by_cases h₁' : id₁ = id
    · by_cases h₂' : id₂ = id
      · rw [h₁', h₂']
      · exact absurd (h₁' ▸ h₁) (hfresh id₂ h₂' h₂)
    · by_cases h₂' : id₂ = id
      · exact absurd (h₂' ▸ h₂) (hfresh id₁ h₁' h₁)
      · rw [hf.other id₁ h₁'] at h₁
        rw [hf.other id₂ h₂'] at h₂
        exact ht.cls_inj id₁ id₂ c h₁ h₂
  case homed =>
    intro x id' i hx
    rw [hf.other id' (hne x id' i hx), hf.dev, hf.kernel.nodes]
    exact ht.homed x id' i (hhome x _ hx)
  case devt_inj =>
    rw [hf.dev]
    exact ht.devt_inj
  case cdevs =>
    rw [hf.kernel.cdevs, hf.dev]
    exact ht.cdevs
  case clean =>
    rw [hf.kernel.deviceCalls]
    exact ht.clean
  case balance =>
    rw [hf.kernel.deviceCalls, hf.dev]
    exact ht.balance

/-- The unregistration loop is the directory's own removal loop. -/
theorem Tabled.unregisterSlots {w : World} (ht : Tabled w) (id : DrvId) :
    Tabled (unregisterSlots w id) ∧ directory (NvChar.unregisterSlots w id) =
      (directory w).removeBelow id (w.drv id).count := by
  have hslot : ∀ (w : World) (i : ℕ), Tabled w → Tabled (unregisterSlot id w i) ∧
      directory (unregisterSlot id w i) = Directory.removeAt id (directory w) i := by
    intro w i ht
    unfold unregisterSlot Directory.removeAt Directory.at_
    cases htable : (w.drv id).devices with
    | none => exact ⟨ht, by simp [directory, Directory.ofFlags, htable]⟩
    | some t =>
      have hat : ((directory w).table id).bind (fun t => t i) = t i := by simp [directory, Directory.ofFlags, htable]
      rw [hat]
      simp only
      cases t i with
      | none => exact ⟨ht.touchTable id, rfl⟩
      | some x => exact (ht.touchTable id).deviceUnregister x
  exact Directory.foldl_removes directory (unregisterSlot id) hslot ht _

theorem Tabled.unregisterSlots_vacant {w : World} (ht : Tabled w) (id : DrvId) :
    (directory (NvChar.unregisterSlots w id)).Vacant id := by
  rw [(ht.unregisterSlots id).2]
  exact Directory.removeBelow_vacant ht.coherent (ht.index_lt · id)

theorem dropTable_eq (w : World) (id : DrvId) :
    w.dropTable id = (unregisterSlots w id).modDrv id fun d => { d with devices := none } := by
  unfold World.dropTable
  cases htable : (w.drv id).devices with
  | some t => simp
  | none =>
    have hslot : ∀ l : List ℕ, l.foldl (unregisterSlot id) w = w := by
      intro l
      induction l with
      | nil => rfl
      | cons i l ih =>
        have h : unregisterSlot id w i = w := by simp [unregisterSlot, htable]
        rw [List.foldl_cons, h, ih]
    have hsame : Function.update w.drv id { w.drv id with devices := none } = w.drv := by
      rw [Function.update_eq_self_iff, ← htable]
    simp only [unregisterSlots, hslot, World.modDrv, hsame]
    simp

theorem dropDriver_kept (k : Kernel) (id : DrvId) (drv : NvCharDriver) :
    (∀ c, drv.cls ≠ .obj c → (k.dropDriver id drv).classLive c = k.classLive c) ∧
    (k.dropDriver id drv).nextClass = k.nextClass := by
  obtain ⟨k₁, hdrop, hk₁⟩ : ∃ k₁ : Kernel, k.dropDriver id drv =
      (if drv.devt ≠ 0 then k₁.releaseDriverRegion id drv else k₁) ∧
      (∀ c, drv.cls ≠ .obj c → k₁.classLive c = k.classLive c) ∧ k₁.nextClass = k.nextClass := by
    cases hcls : drv.cls with
    | obj c' =>
      refine ⟨k.classDestroy c', by simp [Kernel.dropDriver, hcls], fun c hne => ?_, rfl⟩
      have hcc : c ≠ c' := fun h => hne (by rw [h])
      simp [classLive_classDestroy, hcc]
    | null => exact ⟨k, by simp [Kernel.dropDriver, hcls], fun _ _ => rfl, rfl⟩
    | err e => exact ⟨k, by simp [Kernel.dropDriver, hcls], fun _ _ => rfl, rfl⟩
  have hrelease : (k₁.releaseDriverRegion id drv).classes = k₁.classes ∧
      (k₁.releaseDriverRegion id drv).nextClass = k₁.nextClass := by
    unfold Kernel.releaseDriverRegion
    split <;> exact ⟨rfl, rfl⟩
  rw [hdrop]
  split
  · refine ⟨fun c hne => ?_, hrelease.2.trans hk₁.2⟩
    rw [Kernel.classLive, hrelease.1]
    exact hk₁.1 c hne
  · exact hk₁

theorem driverUnregister_replaced (w : World) (id : DrvId) :
    DriverFrame id (unregisterSlots w id) (driverUnregister w (some id)) ∧
    DriverReplaced id (unregisterSlots w id) (driverUnregister w (some id)) := by
  let w₁ := (unregisterSlots w id).modDrv id fun d => { d with devices := none }
  let w₂ : World := { w₁ with dfs := w₁.dfs.exit }
  have hf : DriverFrame id (unregisterSlots w id) w₂ :=
    (drvFrame_modDrv id _ _ (by simp)).trans (drvFrame_dfs id w₁ _)
  have hcls : (w₂.drv id).cls = ((unregisterSlots w id).drv id).cls := by simp [w₂, w₁]
  simp only [driverUnregister, dropTable_eq]
  change DriverFrame id (unregisterSlots w id) ((if (w₂.drv id).devmManaged then w₂ else
    w₂.setK (w₂.k.dropDriver id (w₂.drv id))).modDrv id NvCharDriver.clear) ∧ _
  split
  · refine ⟨hf.trans (drvFrame_modDrv id _ _ fun _ => ⟨rfl, rfl, rfl, rfl, rfl⟩),
      fun c _ _ => rfl, le_refl _, .inr ?_, ?_⟩
    · simp [NvCharDriver.clear]
    · simp [NvCharDriver.clear]
  · obtain ⟨hlive, hnext⟩ := dropDriver_kept w₂.k id (w₂.drv id)
    refine ⟨(hf.trans (drvFrame_setK id w₂ _ (frame_dropDriver _ id _))).trans
      (drvFrame_modDrv id _ _ fun _ => ⟨rfl, rfl, rfl, rfl, rfl⟩), ?_, hnext.ge, .inr ?_, ?_⟩
    · intro c _ hne
      exact hlive c (by rwa [hcls])
    · simp [NvCharDriver.clear]
    · simp [NvCharDriver.clear]

theorem driverUnregisterDevm_replaced (w : World) (id : DrvId) :
    DriverFrame id (unregisterSlots w id) (driverUnregisterDevm w (some id)) ∧
    DriverReplaced id (unregisterSlots w id) (driverUnregisterDevm w (some id)) := by
  let w₁ := (unregisterSlots w id).modDrv id fun d => { d with devices := none }
  simp only [driverUnregisterDevm, dropTable_eq]
  refine ⟨(drvFrame_modDrv id _ _ (by simp)).trans <| (drvFrame_dfs id w₁ _).trans <|
    drvFrame_modDrv id _ _ fun _ => ⟨rfl, rfl, rfl, rfl, rfl⟩, ?_⟩
  refine replaced_of_kept (SameClasses.kept ⟨rfl, rfl⟩) (.inr (.inl ?_)) ?_
  · simp [NvCharDriver.clear]
  · simp [NvCharDriver.clear]

end LinuxDriverFramework.NvChar
