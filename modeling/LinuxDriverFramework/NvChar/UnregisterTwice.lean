import LinuxDriverFramework.NvChar.AnyOrder

/-! # Unregistering a driver that is not registered

Neither unregistration function looks whether the driver is registered. Table, class and number of
the driver are reset, and so are not given back twice; the shared debugfs counter goes down in every
call, a number that a failed registration has left behind may be another driver's by now, and the
table that a failed `nv_char_driver_register_devm` has left behind may have been freed.

* `OutsideKept`: what no unregistration touches, whatever the order of the calls.
* `spares`: the region that `nv_char_driver_unregister` frees, if any, is the driver's own.
* `walksFreed`: the loop over the table reads memory that the devm core has freed. -/

namespace LinuxDriverFramework.NvChar
open Foundations
set_option autoImplicit false

/-! ## What stays as it is -/

/-- The other drivers with their tables and classes, the devices in no slot of driver `id`, and the
kernel's records of all these. -/
structure OutsideKept (id : DrvId) (w w' : World) : Prop where
  drv : ∀ id', id' ≠ id → w'.drv id' = w.drv id'
  dev : ∀ y, (∀ i, (directory w).at_ id i ≠ some y) → w'.dev y = w.dev y
  cdevs : ∀ y, (∀ i, (directory w).at_ id i ≠ some y) → (y ∈ w'.k.cdevs ↔ y ∈ w.k.cdevs)
  classes : ∀ c, (w.drv id).cls ≠ .obj c → w'.k.classLive c = w.k.classLive c
  nodes : ∀ c devt, (w.drv id).cls ≠ .obj c → ((c, devt) ∈ w'.k.nodes ↔ (c, devt) ∈ w.k.nodes)
  miscRegistered : w'.miscRegistered = w.miscRegistered
  files : w'.files = w.files
  refs : w'.k.refs = w.k.refs
  devm : w'.k.devm = w.k.devm

theorem OutsideKept.refl (id : DrvId) (w : World) : OutsideKept id w w := by
  constructor <;> intros <;> rfl

theorem destroyNode_k (w : World) (x : DevId) {id : DrvId} (hd : (w.dev x).driver = some id) :
    (∀ c devt, (w.drv id).cls ≠ .obj c →
      ((c, devt) ∈ (w.destroyNode x).k.nodes ↔ (c, devt) ∈ w.k.nodes)) ∧
    (w.destroyNode x).k.cdevs = w.k.cdevs := by
  unfold World.destroyNode
  split
  · rename_i id' _ hd'
    obtain rfl : id' = id := Option.some.inj (hd'.symm.trans hd)
    cases hcls : (w.drv id').cls with
    | obj c' =>
      refine ⟨fun c devt hne => ?_, rfl⟩
      have hcc : c ≠ c' := fun h => hne (by rw [h])
      simp [Kernel.deviceDestroy, hcc]
    | null => exact ⟨fun _ _ _ => Iff.rfl, rfl⟩
    | err e => exact ⟨fun _ _ _ => Iff.rfl, rfl⟩
  · exact ⟨fun _ _ _ => Iff.rfl, rfl⟩

theorem clearSlot_k (w : World) (x : DevId) :
    (w.clearSlot x).k.nodes = w.k.nodes ∧ (w.clearSlot x).k.cdevs = w.k.cdevs := by
  unfold World.clearSlot
  split
  · split
    · rw [slotWrite_k]
      exact ⟨rfl, rfl⟩
    · exact ⟨rfl, rfl⟩
  · exact ⟨rfl, rfl⟩

/-- A device leaves `cdevs`, and a class device of its own driver goes. -/
theorem deviceUnregister_k {w : World} {x : DevId} {id : DrvId}
    (hr : (w.dev x).registered = true) (hd : (w.dev x).driver = some id) :
    (∀ c devt, (w.drv id).cls ≠ .obj c →
      ((c, devt) ∈ (deviceUnregister w x).k.nodes ↔ (c, devt) ∈ w.k.nodes)) ∧
    (deviceUnregister w x).k.cdevs = w.k.cdevs.erase x := by
  let w₁ := w.modDev x fun d => { d with removing := true }
  let w₃ := (w₁.clearSlot x).debugfsRemoveDevice x
  have hw : deviceUnregister w x = ((w₃.destroyNode x).waitOpens x).cdevGone x := by
    simp only [deviceUnregister, hr, if_true]
    rfl
  have hframe : DeviceFrame x w w₃ := (frame_modDev x w _).trans <|
    (frame_clearSlot x _).trans (frame_debugfsRemoveDevice x _)
  have hd₃ : (w₃.dev x).driver = some id := by
    simp [w₃, w₁, debugfsRemoveDevice_dev_self, hd]
  have hcls₃ : (w₃.drv id).cls = (w.drv id).cls := by rw [hframe.drv id]
  obtain ⟨hn₂, hc₂⟩ := clearSlot_k w₁ x
  obtain ⟨hn₃, hc₃, -⟩ := debugfsRemoveDevice_k (w₁.clearSlot x) x
  obtain ⟨hn₄, hc₄⟩ := destroyNode_k w₃ x hd₃
  obtain ⟨hn₅, hc₅, -⟩ := waitOpens_k (w₃.destroyNode x) x
  rw [hw]
  constructor
  · intro c devt hne
    change (c, devt) ∈ ((w₃.destroyNode x).waitOpens x).k.nodes ↔ _
    rw [hn₅, hn₄ c devt (by rwa [hcls₃]), hn₃, hn₂]
    rfl
  · change ((w₃.destroyNode x).waitOpens x).k.cdevs.erase x = _
    rw [hc₅, hc₄, hc₃, hc₂]
    rfl

/-! ## The loop over the table -/

/-- What the loop has done so far: some slots of driver `id` are empty, nothing else is new outside
it, and the driver itself, the counter and the regions are as they were. -/
structure Emptied (id : DrvId) (w w' : World) : Prop where
  outside : OutsideKept id w w'
  own : w'.drv id = { w.drv id with devices := (w'.drv id).devices }
  slots : ∀ i y, (directory w').at_ id i = some y → (directory w).at_ id i = some y
  dfs : w'.dfs = w.dfs
  regions : w'.k.regions = w.k.regions
  strays : (w.drv id).tableMem ≠ .freed → w'.strays = w.strays

/-- One slot of the table of the device's driver is written at most. -/
theorem deviceUnregister_strays (w : World) (x : DevId) :
    (deviceUnregister w x).strays = w.strays ∨
      ∃ id, (w.dev x).driver = some id ∧
        (deviceUnregister w x).strays = (w.touchTable id).strays := by
  cases hr : (w.dev x).registered with
  | false =>
    rw [deviceUnregister_of_not hr]
    exact .inl rfl
  | true =>
    let w₁ := w.modDev x fun d => { d with removing := true }
    have hclear : (w₁.clearSlot x).strays = w.strays ∨
        ∃ id, (w.dev x).driver = some id ∧ (w₁.clearSlot x).strays = (w.touchTable id).strays := by
      cases hd : (w.dev x).driver with
      | none => exact .inl (by simp [World.clearSlot, w₁, hd])
      | some id =>
        cases ht : (w.drv id).devices with
        | none => exact .inl (by simp [World.clearSlot, w₁, hd, ht])
        | some t => exact .inr ⟨id, rfl, by simp [World.clearSlot, w₁, hd, ht, World.slotWrite]⟩
    have hrest : ∀ w : World, ((((w.debugfsRemoveDevice x).destroyNode x).waitOpens x).cdevGone
        x).strays = w.strays := by
      intro w
      have hdir : (w.debugfsRemoveDevice x).strays = w.strays := by
        unfold World.debugfsRemoveDevice
        split <;> rfl
      have hnode : ∀ w : World, (w.destroyNode x).strays = w.strays := by
        intro w
        unfold World.destroyNode
        split <;> rfl
      have hwait : ∀ w : World, (w.waitOpens x).strays = w.strays := by
        intro w
        unfold World.waitOpens
        split <;> rfl
      exact (hwait _).trans ((hnode _).trans hdir)
    simp only [deviceUnregister, hr, if_true]
    rw [hrest]
    exact hclear

theorem touchTable_of_kept {w : World} {id : DrvId} (h : (w.drv id).tableMem ≠ .freed) :
    w.touchTable id = w := by
  simp only [World.touchTable, if_neg h]

theorem Emptied.touchTable {id : DrvId} {w w' : World} (h : Emptied id w w') :
    Emptied id w (w'.touchTable id) := by
  refine ⟨⟨h.outside.drv, h.outside.dev, h.outside.cdevs, h.outside.classes, h.outside.nodes,
    h.outside.miscRegistered, h.outside.files, h.outside.refs, h.outside.devm⟩, h.own, h.slots,
    h.dfs, h.regions, fun hkept => ?_⟩
  have hmem : (w'.drv id).tableMem = (w.drv id).tableMem := by rw [h.own]
  rw [touchTable_of_kept (by rwa [hmem])]
  exact h.strays hkept

theorem Emptied.deviceUnregister {id : DrvId} {w w' : World} {x : DevId} {i : ℕ}
    (h : Emptied id w w') (ha : AnyOrder w') (hx : (directory w').at_ id i = some x) :
    Emptied id w (deviceUnregister w' x) := by
  have hhome := ha.filed id i x hx
  obtain ⟨hr, hd, -⟩ := home_eq_some.mp hhome
  have hf := deviceUnregister_frame x w'
  obtain ⟨hnodes, hcdevs⟩ := deviceUnregister_k hr hd
  have hcls : (w'.drv id).cls = (w.drv id).cls := by rw [h.own]
  have hne : ∀ y, (∀ i, (directory w).at_ id i ≠ some y) → y ≠ x := by
    rintro y hy rfl
    exact hy i (h.slots i y hx)
  refine ⟨⟨fun id' hid => ?_, fun y hy => ?_, fun y hy => ?_, fun c hc => ?_, fun c devt hc => ?_,
    ?_, ?_, ?_, ?_⟩, ?_, fun j y hy => ?_, ?_, ?_, fun hkept => ?_⟩
  · -- the slot of `x` is in the table of driver `id`, so the table of `id'` is not written
    have htable : ((NvChar.deviceUnregister w' x).drv id').devices = (w'.drv id').devices := by
      have hremove := congrArg (fun d => d.table id') (deviceUnregister_removes w' x)
      exact hremove.trans (Directory.remove_table_of_ne hhome hid)
    rw [hf.drv id', htable]
    exact h.outside.drv id' hid
  · exact (hf.dev y (hne y hy)).trans (h.outside.dev y hy)
  · rw [hcdevs, Finset.mem_erase, and_iff_right (hne y hy)]
    exact h.outside.cdevs y hy
  · rw [Kernel.classLive, hf.classes]
    exact h.outside.classes c hc
  · rw [hnodes c devt (by rwa [hcls])]
    exact h.outside.nodes c devt hc
  · exact hf.miscRegistered.trans h.outside.miscRegistered
  · exact hf.files.trans h.outside.files
  · exact hf.refs.trans h.outside.refs
  · exact hf.devm.trans h.outside.devm
  · rw [hf.drv id, h.own]
  · rw [deviceUnregister_removes] at hy
    exact h.slots j y (ha.filed.at_remove hy).2
  · exact hf.dfs.trans h.dfs
  · exact hf.regions.trans h.regions
  · have hmem : (w'.drv id).tableMem ≠ .freed := by rwa [h.own]
    rcases deviceUnregister_strays w' x with hstrays | ⟨id', hd', hstrays⟩
    · exact hstrays.trans (h.strays hkept)
    · obtain rfl := Option.some.inj (hd.symm.trans hd')
      rw [touchTable_of_kept hmem] at hstrays
      exact hstrays.trans (h.strays hkept)

theorem unregisterSlots_emptied {w : World} (ha : AnyOrder w) (id : DrvId) :
    Emptied id w (unregisterSlots w id) := by
  refine (unregisterSlots_induct (P := fun w' => Emptied id w w' ∧ AnyOrder w')
    (fun w' _ _ h => ⟨h.1.touchTable, h.2.driverStep (d := id) (.of_eq rfl rfl le_rfl)⟩) ?_ w
    ⟨⟨.refl id w, rfl, fun _ _ h => h, rfl, rfl, fun _ => rfl⟩, ha⟩).1
  rintro w' t i x ht hx ⟨he, ha'⟩
  have hat : (directory w').at_ id i = some x := by
    simp [directory, Directory.ofFlags, Directory.at_, ht, hx]
  exact ⟨he.deviceUnregister ha' hat, ha'.deviceUnregister x⟩

/-! ## The end of the functions -/

/-- The region that the number and the count left in the driver stand for. -/
def NvCharDriver.names (drv : NvCharDriver) (r : Region) : Bool :=
  r.first == (if drv.major ≠ 0 then mkdev drv.major 0 else drv.devt) && r.count == drv.count

theorem releaseDriverRegion_eq (k : Kernel) (id : DrvId) (drv : NvCharDriver) :
    ∃ l, k.releaseDriverRegion id drv =
      { k with regions := k.regions.eraseP drv.names, calls := l } := by
  unfold Kernel.releaseDriverRegion
  split
  · rename_i h
    have hnames : drv.names = fun r => r.first == mkdev drv.major 0 && r.count == drv.count :=
      funext fun r => by rw [NvCharDriver.names, if_pos h]
    exact ⟨_, by rw [hnames]; rfl⟩
  · rename_i h
    have hnames : drv.names = fun r => r.first == drv.devt && r.count == drv.count :=
      funext fun r => by rw [NvCharDriver.names, if_neg h]
    exact ⟨_, by rw [hnames]; rfl⟩

theorem dropDriver_eq (k : Kernel) (id : DrvId) (drv : NvCharDriver) :
    ∃ cs l, k.dropDriver id drv = { k with
      regions := if drv.devt ≠ 0 then k.regions.eraseP drv.names else k.regions
      classes := cs
      calls := l } := by
  have hregion : ∀ k : Kernel, ∃ l, (if drv.devt ≠ 0 then k.releaseDriverRegion id drv else k) =
      { k with
        regions := if drv.devt ≠ 0 then k.regions.eraseP drv.names else k.regions
        calls := l } := by
    intro k
    split
    · exact releaseDriverRegion_eq k id drv
    · exact ⟨k.calls, rfl⟩
  cases hcls : drv.cls with
  | obj c =>
    obtain ⟨l, hl⟩ := hregion (k.classDestroy c)
    exact ⟨(k.classDestroy c).classes, l, by simp only [Kernel.dropDriver, hcls, hl]; rfl⟩
  | null =>
    obtain ⟨l, hl⟩ := hregion k
    exact ⟨k.classes, l, by simp only [Kernel.dropDriver, hcls, hl]⟩
  | err e =>
    obtain ⟨l, hl⟩ := hregion k
    exact ⟨k.classes, l, by simp only [Kernel.dropDriver, hcls, hl]⟩

/-- The end of an unregistration reaches no class but the driver's own, and no device. -/
theorem OutsideKept.finish {id : DrvId} {w w' : World} (h : OutsideKept id w w')
    (hcls : (w'.drv id).cls = (w.drv id).cls) {k : Kernel} {f : Debugfs}
    (hk : k = w'.k ∨ k = w'.k.dropDriver id (w'.drv id)) :
    OutsideKept id w { (w'.setK k).modDrv id NvCharDriver.forget with dfs := f } := by
  have hkept : k.cdevs = w'.k.cdevs ∧ k.nodes = w'.k.nodes ∧ k.refs = w'.k.refs ∧
      k.devm = w'.k.devm ∧ ∀ c, (w'.drv id).cls ≠ .obj c → k.classLive c = w'.k.classLive c := by
    rcases hk with rfl | rfl
    · exact ⟨rfl, rfl, rfl, rfl, fun _ _ => rfl⟩
    · have hlive := (dropDriver_kept w'.k id (w'.drv id)).1
      obtain ⟨cs, l, he⟩ := dropDriver_eq w'.k id (w'.drv id)
      rw [he] at hlive ⊢
      exact ⟨rfl, rfl, rfl, rfl, hlive⟩
  obtain ⟨hcdevs, hnodes, hrefs, hdevm, hlive⟩ := hkept
  refine ⟨fun id' hid => ?_, h.dev, fun y hy => ?_, fun c hc => ?_, fun c devt hc => ?_,
    h.miscRegistered, h.files, hrefs.trans h.refs, hdevm.trans h.devm⟩
  · exact (Function.update_of_ne hid _ _).trans (h.drv id' hid)
  · change y ∈ k.cdevs ↔ _
    rw [hcdevs]
    exact h.cdevs y hy
  · exact (hlive c (by rwa [hcls])).trans (h.classes c hc)
  · change (c, devt) ∈ k.nodes ↔ _
    rw [hnodes]
    exact h.nodes c devt hc

theorem driverUnregister_outside {w : World} (ha : AnyOrder w) (id : DrvId) :
    OutsideKept id w (driverUnregister w (some id)) := by
  have he := unregisterSlots_emptied ha id
  rw [driverUnregister_eq]
  refine he.outside.finish (by rw [he.own]) ?_
  split
  · exact .inl rfl
  · exact .inr rfl

theorem driverUnregisterDevm_outside {w : World} (ha : AnyOrder w) (id : DrvId) :
    OutsideKept id w (driverUnregisterDevm w (some id)) := by
  have he := unregisterSlots_emptied ha id
  rw [driverUnregisterDevm_eq]
  exact he.outside.finish (by rw [he.own]) (.inl rfl)

/-! ## The counter and the regions -/

theorem exit_eq_self_iff (f : Debugfs) : f.exit = f ↔ f.refcnt = 0 := by
  constructor
  · intro h
    have hcount := congrArg Debugfs.refcnt h
    unfold Debugfs.exit at hcount
    split at hcount
    · assumption
    · split at hcount <;> simp only at hcount <;> omega
  · intro h
    simp only [Debugfs.exit, h, if_true]

theorem exit_refcnt (f : Debugfs) : f.exit.refcnt = f.refcnt - 1 := by
  unfold Debugfs.exit
  split
  · omega
  · split
    · simp only; omega
    · rfl

/-- An erased entry is missed by the entries with `q` exactly if it is one of them. -/
theorem filter_eraseP_eq_iff {α : Type*} (p q : α → Bool) (l : List α) :
    (l.eraseP p).filter q = l.filter q ↔ (l.find? p).all fun r => !q r := by
  induction l with
  | nil => simp
  | cons a l ih =>
    cases hp : p a with
    | true =>
      rw [List.eraseP_cons_of_pos hp, List.find?_cons_of_pos hp, List.filter_cons]
      cases hq : q a with
      | true =>
        have hne : l.filter q ≠ a :: l.filter q := fun h => by
          have hlength := congrArg List.length h
          simp at hlength
        simp [hq, hne]
      | false => simp [hq]
    | false =>
      rw [List.eraseP_cons_of_neg (by simp [hp]), List.find?_cons_of_neg (by simp [hp]), ← ih,
        List.filter_cons, List.filter_cons]
      split
      · exact List.cons_inj_right a
      · exact Iff.rfl

def Region.ofOther (id : DrvId) (r : Region) : Bool := decide (r.owner ≠ .driver id)

/-- What `nv_char_driver_unregister` frees is nobody else's: it frees nothing, or there is no region
of that start and length, or the driver itself has it. -/
def spares (w : World) (id : DrvId) : Bool :=
  (w.drv id).devmManaged || decide ((w.drv id).devt = 0) ||
    (w.k.regions.find? (w.drv id).names).all fun r => !r.ofOther id

theorem driverUnregister_regions_iff {w : World} (ha : AnyOrder w) (id : DrvId) :
    (driverUnregister w (some id)).k.regions.filter (Region.ofOther id) =
      w.k.regions.filter (Region.ofOther id) ↔ spares w id = true := by
  have he := unregisterSlots_emptied ha id
  rw [driverUnregister_eq]
  change (if ((unregisterSlots w id).drv id).devmManaged then (unregisterSlots w id).k else
    (unregisterSlots w id).k.dropDriver id ((unregisterSlots w id).drv id)).regions.filter _ = _ ↔ _
  have hown : ((unregisterSlots w id).drv id).names = (w.drv id).names := by rw [he.own]; rfl
  have hdevt : ((unregisterSlots w id).drv id).devt = (w.drv id).devt := by rw [he.own]
  have hmanaged : ((unregisterSlots w id).drv id).devmManaged = (w.drv id).devmManaged := by
    rw [he.own]
  rw [hmanaged]
  unfold spares
  cases hm : (w.drv id).devmManaged with
  | true => simp [he.regions]
  | false =>
    obtain ⟨cs, l, hdrop⟩ :=
      dropDriver_eq (unregisterSlots w id).k id ((unregisterSlots w id).drv id)
    simp only [Bool.false_eq_true, if_false, hdrop, hown, hdevt, he.regions, Bool.false_or]
    by_cases hd : (w.drv id).devt = 0
    · simp [hd]
    · simp only [ne_eq, hd, not_false_eq_true, if_true, decide_false, Bool.false_or]
      exact filter_eraseP_eq_iff _ _ _

/-! ## The freed table -/

/-- The loop over `drv->devices` runs at least once, and the memory has been freed. -/
def walksFreed (w : World) (id : DrvId) : Bool :=
  (w.drv id).devices.isSome && decide ((w.drv id).tableMem = .freed) &&
    decide (0 < (w.drv id).count)

theorem unregisterSlots_of_none {w : World} {id : DrvId} (h : (w.drv id).devices = none) :
    unregisterSlots w id = w :=
  unregisterSlots_induct (P := fun w' => w' = w) (by
    rintro w' t ht rfl
    rw [h] at ht
    cases ht) (by
    rintro w' t i x ht - rfl
    rw [h] at ht
    cases ht) w rfl

theorem length_strays_touchTable (w : World) (id : DrvId) :
    w.strays.length ≤ (w.touchTable id).strays.length := by
  simp only [World.touchTable]
  split
  · exact Nat.le_succ _
  · exact Nat.le_refl _

theorem length_strays_deviceUnregister (w : World) (x : DevId) :
    w.strays.length ≤ (deviceUnregister w x).strays.length := by
  rcases deviceUnregister_strays w x with h | ⟨id, -, h⟩
  · rw [h]
  · rw [h]
    exact length_strays_touchTable w id

/-- A round adds to the strays as soon as there is a freed table to read. -/
theorem length_strays_unregisterSlot (id : DrvId) (w : World) (i : ℕ) :
    w.strays.length ≤ (unregisterSlot id w i).strays.length ∧
    ((w.drv id).devices.isSome = true → (w.drv id).tableMem = .freed →
      w.strays.length < (unregisterSlot id w i).strays.length) := by
  unfold unregisterSlot
  cases ht : (w.drv id).devices with
  | none => exact ⟨Nat.le_refl _, fun h => by cases h⟩
  | some t =>
    have hread : (w.touchTable id).strays.length ≤
        (unregisterSlot id w i).strays.length := by
      simp only [unregisterSlot, ht]
      split
      · exact length_strays_deviceUnregister _ _
      · exact Nat.le_refl _
    simp only [unregisterSlot, ht] at hread
    refine ⟨(length_strays_touchTable w id).trans hread, fun _ hmem => lt_of_lt_of_le ?_ hread⟩
    simp only [World.touchTable, hmem, if_true]
    exact Nat.lt_succ_self _

theorem length_strays_loop (id : DrvId) (l : List ℕ) (w : World) :
    w.strays.length ≤ (l.foldl (unregisterSlot id) w).strays.length := by
  induction l generalizing w with
  | nil => exact Nat.le_refl _
  | cons i l ih => exact (length_strays_unregisterSlot id w i).1.trans (ih _)

theorem strays_of_walksFreed {w : World} {id : DrvId} (h : walksFreed w id = true) :
    (unregisterSlots w id).strays ≠ w.strays := by
  simp only [walksFreed, Bool.and_eq_true, decide_eq_true_eq] at h
  obtain ⟨⟨hsome, hmem⟩, hcount⟩ := h
  obtain ⟨n, hn⟩ := Nat.exists_eq_add_of_lt hcount
  have hfirst := (length_strays_unregisterSlot id w 0).2 hsome hmem
  have hrest := length_strays_loop id ((List.range n).map Nat.succ) (unregisterSlot id w 0)
  have hloop : unregisterSlots w id =
      ((List.range n).map Nat.succ).foldl (unregisterSlot id) (unregisterSlot id w 0) := by
    rw [unregisterSlots, hn, Nat.zero_add, List.range_succ_eq_map, List.foldl_cons]
  intro heq
  rw [← hloop, heq] at hrest
  omega

theorem strays_of_not_walksFreed {w : World} (ha : AnyOrder w) {id : DrvId}
    (h : walksFreed w id = false) : (unregisterSlots w id).strays = w.strays := by
  by_cases hmem : (w.drv id).tableMem = .freed
  · cases ht : (w.drv id).devices with
    | none => rw [unregisterSlots_of_none ht]
    | some t =>
      have hcount : (w.drv id).count = 0 := by simpa [walksFreed, hmem, ht] using h
      rw [unregisterSlots, hcount]
      rfl
  · exact (unregisterSlots_emptied ha id).strays hmem

theorem unregisterSlots_strays_iff {w : World} (ha : AnyOrder w) (id : DrvId) :
    (unregisterSlots w id).strays = w.strays ↔ walksFreed w id = false := by
  refine ⟨fun h => ?_, strays_of_not_walksFreed ha⟩
  by_contra hwalks
  exact strays_of_walksFreed (Bool.not_eq_false _ ▸ hwalks) h

/-! ## The condition -/

/-- Nothing outside driver `id` has changed: what `OutsideKept` lists, the shared counter and root,
the regions of all other holders, and the classes of the other drivers. No slot has been read in
memory that is not the driver's any more. -/
structure OthersKept (id : DrvId) (w w' : World) : Prop where
  outside : OutsideKept id w w'
  dfs : w'.dfs = w.dfs
  regions : w'.k.regions.filter (Region.ofOther id) = w.k.regions.filter (Region.ofOther id)
  classes : ∀ id' c, id' ≠ id → (w.drv id').cls = .obj c → w'.k.classLive c = w.k.classLive c
  strays : w'.strays = w.strays

theorem othersKept_iff {w w' : World} (ha : AnyOrder w) {id : DrvId} (h : OutsideKept id w w') :
    OthersKept id w w' ↔ w'.dfs = w.dfs ∧
      w'.k.regions.filter (Region.ofOther id) = w.k.regions.filter (Region.ofOther id) ∧
      w'.strays = w.strays := by
  constructor
  · exact fun hk => ⟨hk.dfs, hk.regions, hk.strays⟩
  · rintro ⟨hdfs, hregions, hstrays⟩
    refine ⟨h, hdfs, hregions, fun id' c hid hc => h.classes c fun hown => ?_, hstrays⟩
    exact hid (ha.apart id' id c hc hown)

theorem driverUnregister_othersKept_iff {w : World} (ha : AnyOrder w) (id : DrvId) :
    OthersKept id w (driverUnregister w (some id)) ↔
      w.dfs.refcnt = 0 ∧ spares w id = true ∧ walksFreed w id = false := by
  have hdfs : (driverUnregister w (some id)).dfs = w.dfs.exit := by
    rw [driverUnregister_eq]
    exact congrArg Debugfs.exit (unregisterSlots_emptied ha id).dfs
  have hstrays : (driverUnregister w (some id)).strays = (unregisterSlots w id).strays := by
    rw [driverUnregister_eq]
    rfl
  rw [othersKept_iff ha (driverUnregister_outside ha id), hdfs, exit_eq_self_iff,
    driverUnregister_regions_iff ha id, hstrays, unregisterSlots_strays_iff ha id]

theorem driverUnregisterDevm_othersKept_iff {w : World} (ha : AnyOrder w) (id : DrvId) :
    OthersKept id w (driverUnregisterDevm w (some id)) ↔
      w.dfs.refcnt = 0 ∧ walksFreed w id = false := by
  have he := unregisterSlots_emptied ha id
  obtain ⟨hdfs, hregions, hstrays⟩ : (driverUnregisterDevm w (some id)).dfs = w.dfs.exit ∧
      (driverUnregisterDevm w (some id)).k.regions = w.k.regions ∧
      (driverUnregisterDevm w (some id)).strays = (unregisterSlots w id).strays := by
    rw [driverUnregisterDevm_eq]
    exact ⟨congrArg Debugfs.exit he.dfs, he.regions, rfl⟩
  rw [othersKept_iff ha (driverUnregisterDevm_outside ha id), hdfs, hregions, hstrays,
    exit_eq_self_iff, unregisterSlots_strays_iff ha id]
  exact and_congr_right fun _ => and_iff_right rfl

/-! ## Twice -/

theorem World.eq_with_dfs_iff (w : World) (f : Debugfs) : { w with dfs := f } = w ↔ f = w.dfs := by
  constructor
  · exact congrArg World.dfs
  · rintro rfl
    rfl

theorem forget_modDrv {w : World} {id : DrvId} (h : (w.drv id).forget = w.drv id) :
    w.modDrv id NvCharDriver.forget = w := by
  simp only [World.modDrv, h, Function.update_eq_self]

theorem driverUnregister_idle {w : World} {id : DrvId} (h : (w.drv id).forget = w.drv id) :
    driverUnregister w (some id) = { w with dfs := w.dfs.exit } := by
  have hdevices : (w.drv id).devices = none := (congrArg NvCharDriver.devices h).symm
  have hdrop : w.k.dropDriver id (w.drv id) = w.k := by
    rw [← h]
    rfl
  rw [driverUnregister_eq, unregisterSlots_of_none hdevices, hdrop, ite_self]
  exact congrArg (fun w' : World => { w' with dfs := w.dfs.exit }) (forget_modDrv h)

theorem driverUnregisterDevm_idle {w : World} {id : DrvId} (h : (w.drv id).forget = w.drv id) :
    driverUnregisterDevm w (some id) = { w with dfs := w.dfs.exit } := by
  have hdevices : (w.drv id).devices = none := (congrArg NvCharDriver.devices h).symm
  rw [driverUnregisterDevm_eq, unregisterSlots_of_none hdevices, forget_modDrv h]

/-- The second call finds nothing of the driver, and only the counter goes down again. -/
theorem driverUnregister_twice_iff {w : World} (ha : AnyOrder w) (id : DrvId) :
    driverUnregister (driverUnregister w (some id)) (some id) = driverUnregister w (some id) ↔
      w.dfs.refcnt ≤ 1 := by
  have hforget : ((driverUnregister w (some id)).drv id).forget =
      (driverUnregister w (some id)).drv id := by
    rw [driverUnregister_eq]
    simp only [World.modDrv_drv, Function.update_self]
    rfl
  have hdfs : (driverUnregister w (some id)).dfs = w.dfs.exit := by
    rw [driverUnregister_eq]
    exact congrArg Debugfs.exit (unregisterSlots_emptied ha id).dfs
  rw [driverUnregister_idle hforget, World.eq_with_dfs_iff, exit_eq_self_iff, hdfs, exit_refcnt]
  omega

theorem driverUnregisterDevm_twice_iff {w : World} (ha : AnyOrder w) (id : DrvId) :
    driverUnregisterDevm (driverUnregisterDevm w (some id)) (some id) =
      driverUnregisterDevm w (some id) ↔ w.dfs.refcnt ≤ 1 := by
  have hforget : ((driverUnregisterDevm w (some id)).drv id).forget =
      (driverUnregisterDevm w (some id)).drv id := by
    rw [driverUnregisterDevm_eq]
    simp only [World.modDrv_drv, Function.update_self]
    rfl
  have hdfs : (driverUnregisterDevm w (some id)).dfs = w.dfs.exit := by
    rw [driverUnregisterDevm_eq]
    exact congrArg Debugfs.exit (unregisterSlots_emptied ha id).dfs
  rw [driverUnregisterDevm_idle hforget, World.eq_with_dfs_iff, exit_eq_self_iff, hdfs, exit_refcnt]
  omega

/-! ## Runs -/

/-- Whether the last call on a driver was a registration that succeeded. -/
def registeredAfter (reg : DrvId → Bool) (c : Call) (r : Ret) : DrvId → Bool :=
  match c with
  | .driverRegister (some id) _ => Function.update reg id (decide (r = .ok ()))
  | .driverRegisterDevm _ (some id) _ _ => Function.update reg id (decide (r = .ok ()))
  | .driverUnregister (some id) => Function.update reg id false
  | .driverUnregisterDevm (some id) => Function.update reg id false
  | _ => reg

def trackedStep (s : World × (DrvId → Bool)) (c : Call) : Option (World × (DrvId → Bool)) :=
  (step s.1 c).map fun w => (w, registeredAfter s.2 c (exec s.1 c).2)

def trackedInit (cfg : DrvId → DriverConfig) : World × (DrvId → Bool) := (init cfg, fun _ => false)

theorem tracked_anyOrder {cfg : DrvId → DriverConfig} {s : World × (DrvId → Bool)}
    (h : Reachable trackedStep (trackedInit cfg) s) : AnyOrder s.1 := by
  refine run_invariant (I := fun s => AnyOrder s.1) (fun s c s' hs hstep => ?_)
    (init_anyOrder cfg) h
  obtain ⟨w, hw, rfl⟩ := Option.map_eq_some_iff.mp hstep
  rw [step_eq_some hw]
  exact call_anyOrder hs c

def dynamicDrivers : DrvId → DriverConfig := fun id =>
  { name := some (if id = 0 then "first" else "second"), owner := some 0, count := 1, major := 0,
    devMode := 0 }

def registerWith (id : DrvId) (dynMajor : ℕ) (classCreate : Option Errno) : Call :=
  .driverRegister (some id)
    { kcalloc := true, region := none, dynMajor := dynMajor, classCreate := classCreate,
      debugfsRoot := true }

/-- `nv_char_driver_register_devm` on bus device 0, which fails at `class_create`. -/
def registerDevmFails (id : DrvId) (dynMajor : ℕ) : Call :=
  .driverRegisterDevm (some 0) (some id)
    { devmKcalloc := true, devmKzalloc := true, region := none, dynMajor := dynMajor,
      addChrdev := none, classCreate := some .ENOMEM, addClass := none, debugfsRoot := true }
    fun _ => []

end LinuxDriverFramework.NvChar
