import LinuxDriverFramework.Foundations.Leases
import LinuxDriverFramework.NvChar.Calls
import LinuxDriverFramework.NvChar.DriverFacts

/-! # Number regions on the devm path

`nv_char_driver_register_devm` takes a region and leaves its return to a devm action. `RegionsOwed
hand w` is the invariant: held regions do not overlap, and every region held for an allocation is
owed once, by a pending action or by the running call, which holds the allocations of `hand`.

The two failure exits after the action has been added return the region twice, through
`devm_release_action` and by an explicit call. They are the only way to a release of a region that
is no longer held. -/

namespace LinuxDriverFramework.NvChar
open Foundations
set_option autoImplicit false

def Region.span (r : Region) : Span := ⟨r.first, r.count⟩

def RegionOwner.isDevres : RegionOwner → Bool
  | .devres _ => true
  | _ => false

def KCall.ofRegion : KCall → Bool
  | .regionAcquire _ | .regionRelease _ _ => true
  | _ => false

def Kernel.regionCalls (k : Kernel) : List KCall := k.calls.filter KCall.ofRegion

/-- The region that `nv_char_devm_chrdev_release` frees. -/
def ChrdevDr.region (dr : ChrdevDr) : Region where
  owner := .devres dr.id
  first := if dr.major ≠ 0 then mkdev dr.major 0 else dr.devt
  count := dr.count

def ChrdevDr.Frees (dr : ChrdevDr) : Prop := dr.major ≠ 0 ∨ dr.devt ≠ 0

theorem chrdevRelease_eq {dr : ChrdevDr} (h : dr.Frees) (w : World) : w.chrdevRelease dr =
    w.setK (w.k.unregisterRegion dr.region.owner dr.region.first dr.region.count) := by
  unfold World.chrdevRelease ChrdevDr.region
  by_cases hm : dr.major ≠ 0
  · simp [hm]
  · simp only [if_neg hm]
    rw [if_pos (h.resolve_left hm)]

def DevmAction.dr? : DevmAction → Option ChrdevDr
  | .chrdevRelease dr => some dr
  | .classRelease _ => none

/-- The allocations whose region a pending action of `dev` frees. -/
def Kernel.pendingDrs (k : Kernel) (dev : DeviceId) : List ChrdevDr :=
  (k.devm dev).filterMap DevmAction.dr?

def Kernel.devresRegions (k : Kernel) : Set Region :=
  {r | r ∈ k.regions ∧ r.owner.isDevres = true}

/-- Who frees what: the running call, or the actions of a device. -/
def drsOf (k : Kernel) (hand : List ChrdevDr) : Option DeviceId → List ChrdevDr
  | none => hand
  | some dev => k.pendingDrs dev

def duty (k : Kernel) (hand : List ChrdevDr) (p : Option DeviceId) : List Region :=
  (drsOf k hand p).map ChrdevDr.region

structure RegionsOwed (hand : List ChrdevDr) (w : World) : Prop where
  packed : Packed Region.span w.k.regions
  exact : Exact w.k.devresRegions (duty w.k hand)
  frees : ∀ p, ∀ dr ∈ drsOf w.k hand p, dr.Frees
  fresh : ∀ r ∈ w.k.regions, ∀ n, r.owner = .devres n → n < w.nextDr
  held : ∀ o b, .regionRelease o b ∈ w.k.regionCalls → b = true
  balance : ∀ n, w.k.regionCalls.count (.regionAcquire (.devres n)) =
    w.k.regionCalls.count (.regionRelease (.devres n) true) +
      w.k.regions.countP (·.owner == .devres n)

theorem init_regionsOwed (cfg : DrvId → DriverConfig) : RegionsOwed [] (init cfg) := by
  have hno : ∀ p : Option DeviceId, drsOf (init cfg).k [] p = [] := by
    rintro (_ | dev) <;> rfl
  refine ⟨packed_nil, ⟨fun p => ?_, fun p _ _ h => ?_, fun r => ?_⟩, fun p dr h => ?_,
    fun r h => ?_, fun o b h => ?_, fun n => rfl⟩
  · simp [duty, hno]
  · simp [duty, hno] at h
  · constructor
    · rintro ⟨h, -⟩
      exact absurd h List.not_mem_nil
    · rintro ⟨p, h⟩
      simp [duty, hno] at h
  · simp [hno] at h
  · exact absurd h List.not_mem_nil
  · exact absurd h List.not_mem_nil

/-! ## Steps that leave the regions alone -/

structure RegionFrame (w w' : World) : Prop where
  regions : w'.k.regions = w.k.regions
  nextDr : w'.nextDr = w.nextDr
  calls : w'.k.regionCalls = w.k.regionCalls
  pending : ∀ dev, w'.k.pendingDrs dev = w.k.pendingDrs dev

theorem RegionFrame.refl (w : World) : RegionFrame w w := ⟨rfl, rfl, rfl, fun _ => rfl⟩

theorem RegionFrame.trans {w₁ w₂ w₃ : World} (h : RegionFrame w₁ w₂) (h' : RegionFrame w₂ w₃) :
    RegionFrame w₁ w₃ :=
  ⟨h'.regions.trans h.regions, h'.nextDr.trans h.nextDr, h'.calls.trans h.calls,
    fun dev => (h'.pending dev).trans (h.pending dev)⟩

theorem RegionFrame.owed {w w' : World} {hand : List ChrdevDr} (h : RegionFrame w w')
    (hw : RegionsOwed hand w) : RegionsOwed hand w' := by
  have hdrs : drsOf w'.k hand = drsOf w.k hand := by
    funext p
    cases p with
    | none => rfl
    | some dev => exact h.pending dev
  refine ⟨?_, ?_, ?_, ?_, ?_, ?_⟩
  · rw [h.regions]
    exact hw.packed
  · have hset : w'.k.devresRegions = w.k.devresRegions := by
      simp only [Kernel.devresRegions, h.regions]
    have hduty : duty w'.k hand = duty w.k hand := funext fun p => by simp only [duty, hdrs]
    rw [hset, hduty]
    exact hw.exact
  · rw [hdrs]
    exact hw.frees
  · rw [h.regions, h.nextDr]
    exact hw.fresh
  · rw [h.calls]
    exact hw.held
  · rw [h.calls, h.regions]
    exact hw.balance

theorem regionFrame_modDrv (w : World) (id : DrvId) (f : NvCharDriver → NvCharDriver) :
    RegionFrame w (w.modDrv id f) := ⟨rfl, rfl, rfl, fun _ => rfl⟩

theorem regionFrame_dfs (w : World) (f : Debugfs) : RegionFrame w { w with dfs := f } :=
  ⟨rfl, rfl, rfl, fun _ => rfl⟩

theorem regionFrame_classCreate {w : World} {k : Kernel} {name : Option String} {e : Option Errno}
    {c : ℕ} (h : w.k.classCreate name e = .ok (k, c)) : RegionFrame w (w.setK k) := by
  obtain ⟨-, -, rfl⟩ := classCreate_ok h
  exact ⟨rfl, rfl, rfl, fun _ => rfl⟩

theorem regionFrame_classDestroy (w : World) (c : ℕ) :
    RegionFrame w (w.setK (w.k.classDestroy c)) := ⟨rfl, rfl, rfl, fun _ => rfl⟩

theorem regionFrame_classRelease (w : World) (id : DrvId) : RegionFrame w (w.classRelease id) := by
  unfold World.classRelease
  split
  · exact (regionFrame_classDestroy w _).trans (regionFrame_modDrv _ id _)
  · exact .refl w

theorem regionFrame_addClassAction (w : World) (dev : DeviceId) (id : DrvId) :
    RegionFrame w (w.devmAddAction dev (.classRelease id)) := by
  refine ⟨rfl, rfl, rfl, fun dev' => ?_⟩
  by_cases hd : dev' = dev
  · subst hd
    simp only [World.devmAddAction, World.setK_k, Kernel.pendingDrs, Function.update_self]
    exact List.filterMap_cons_none rfl
  · simp [World.devmAddAction, Kernel.pendingDrs, Function.update_of_ne hd]

/-! ## Other drivers -/

theorem otherAcquire_cases (k : Kernel) (a : Acquisition) : k.otherAcquire a = k ∨
    (0 < a.count ∧ k.regionFree a.first a.count = true ∧ k.otherAcquire a =
      { k with
        regions := ⟨.other a.holder, a.first, a.count⟩ :: k.regions
        calls := .regionAcquire (.other a.holder) :: k.calls }) := by
  unfold Kernel.otherAcquire
  split
  · exact .inl rfl
  · rename_i hc
    split
    · rename_i k' hk
      obtain ⟨hfree, rfl⟩ := registerRegion_ok hk
      exact .inr ⟨Nat.pos_of_ne_zero hc, hfree, rfl⟩
    · exact .inl rfl

theorem apart_of_regionFree {k : Kernel} {o : RegionOwner} {first count : ℕ}
    (h : k.regionFree first count = true) :
    ∀ r ∈ k.regions, (Region.span ⟨o, first, count⟩).Apart r.span := by
  intro r hr
  have hfree := List.all_eq_true.mp h r hr
  simp only [Bool.or_eq_true, decide_eq_true_eq] at hfree
  exact hfree.symm

theorem RegionsOwed.otherAcquire {w : World} {hand : List ChrdevDr} (h : RegionsOwed hand w)
    (a : Acquisition) : RegionsOwed hand (w.setK (w.k.otherAcquire a)) := by
  rcases otherAcquire_cases w.k a with hk | ⟨hpos, hfree, hk⟩
  · rw [hk]
    exact h
  · rw [hk]
    refine ⟨h.packed.cons hpos (apart_of_regionFree hfree), ?_, h.frees, fun r hr n hn => ?_,
      fun o b ho => ?_, fun n => ?_⟩
    · have hset : ({ w.k with
          regions := ⟨.other a.holder, a.first, a.count⟩ :: w.k.regions
          calls := .regionAcquire (.other a.holder) :: w.k.calls } : Kernel).devresRegions =
          w.k.devresRegions := by
        ext r
        simp only [Kernel.devresRegions, List.mem_cons, Set.mem_ofPred_eq]
        constructor
        · rintro ⟨rfl | hr, ho⟩
          · cases ho
          · exact ⟨hr, ho⟩
        · exact fun hr => ⟨.inr hr.1, hr.2⟩
      have hduty : duty ({ w.k with
          regions := ⟨.other a.holder, a.first, a.count⟩ :: w.k.regions
          calls := .regionAcquire (.other a.holder) :: w.k.calls } : Kernel) hand =
          duty w.k hand := funext fun p => by cases p <;> rfl
      simp only [World.setK_k]
      rw [hset, hduty]
      exact h.exact
    · rcases List.mem_cons.mp hr with rfl | hr
      · cases hn
      · exact h.fresh r hr n hn
    · rcases List.mem_cons.mp (show _ ∈ KCall.regionAcquire (.other a.holder) :: w.k.regionCalls
        from ho) with hc | ho
      · cases hc
      · exact h.held o b ho
    · change (KCall.regionAcquire (.other a.holder) :: w.k.regionCalls).count _ =
        (KCall.regionAcquire (.other a.holder) :: w.k.regionCalls).count _ +
          (⟨.other a.holder, a.first, a.count⟩ :: w.k.regions).countP _
      rw [List.count_cons_of_ne (by simp), List.count_cons_of_ne (by simp),
        List.countP_cons_of_neg (by simp)]
      exact h.balance n

theorem RegionsOwed.interfere {w : World} {hand : List ChrdevDr} (h : RegionsOwed hand w)
    (l : List Acquisition) : RegionsOwed hand (w.interfere l) := by
  induction l generalizing w with
  | nil => exact h
  | cons a l ih => exact ih (h.otherAcquire a)

theorem mem_interfere {w : World} {r : Region} {n : ℕ} (hr : r.owner = .devres n)
    (l : List Acquisition) : r ∈ (w.interfere l).k.regions ↔ r ∈ w.k.regions := by
  induction l generalizing w with
  | nil => rfl
  | cons a l ih =>
    refine (ih (w := w.setK (w.k.otherAcquire a))).trans ?_
    rcases otherAcquire_cases w.k a with hk | ⟨-, -, hk⟩
    · rw [World.setK_k, hk]
    · rw [World.setK_k, hk, List.mem_cons]
      refine or_iff_right ?_
      rintro rfl
      cases hr

/-! ## Taking and freeing a region -/

theorem mkdev_ne_zero {d : ℕ} (h : d ≠ 0) (hlt : d < chrdevMajorMax) : mkdev d 0 ≠ 0 := by
  unfold chrdevMajorMax at hlt
  simp only [mkdev, minorBits, Nat.shiftLeft_eq, Nat.or_zero]
  omega

theorem acquireRegion_frees {k k' : Kernel} {o : RegionOwner} {major dynMajor count devt : ℕ}
    {e : Option Errno} (h : k.acquireRegion o major dynMajor count e = .ok (k', devt)) :
    major ≠ 0 ∨ devt ≠ 0 := by
  by_cases hm : major ≠ 0
  · exact .inl hm
  · rw [Kernel.acquireRegion, if_neg hm] at h
    obtain ⟨hd, hlt, rfl, -⟩ := allocRegion_ok h
    exact .inr (mkdev_ne_zero hd hlt)

theorem RegionsOwed.acquire {w : World} {k : Kernel} {n major dynMajor count devt : ℕ}
    {e : Option Errno} (h : RegionsOwed [] w) (hn : n < w.nextDr)
    (hnew : ∀ r ∈ w.k.regions, r.owner ≠ .devres n) (hcount : 0 < count)
    (hk : w.k.acquireRegion (.devres n) major dynMajor count e = .ok (k, devt)) :
    RegionsOwed [{ id := n, devt := devt, count := count, major := major }] (w.setK k) := by
  have hfrees := acquireRegion_frees hk
  obtain ⟨hdevt, hfree, rfl⟩ := acquireRegion_ok hk
  let dr : ChrdevDr := { id := n, devt := devt, count := count, major := major }
  have hregion : dr.region = ⟨.devres n, devt, count⟩ := by
    simp only [dr, ChrdevDr.region, Region.mk.injEq, true_and, and_true]
    split
    · rename_i hm
      rw [hdevt, regionFirst, if_pos hm]
    · rfl
  have hcons : ∀ r, r ∈ (⟨.devres n, devt, count⟩ : Region) :: w.k.regions ↔
      r = dr.region ∨ r ∈ w.k.regions := fun r => by rw [hregion, List.mem_cons]
  refine ⟨h.packed.cons hcount (apart_of_regionFree hfree), ?_, fun p d hd => ?_,
    fun r hr m hm => ?_, fun o b ho => ?_, fun m => ?_⟩
  · have hnot : dr.region ∉ w.k.devresRegions := fun hr => hnew _ hr.1 rfl
    have htake := h.exact.take hnot none
    convert htake using 1
    · ext r
      simp only [Kernel.devresRegions, World.setK_k, Set.mem_ofPred_eq, hcons, Set.mem_insert_iff]
      constructor
      · rintro ⟨rfl | hr, ho⟩
        · exact .inl rfl
        · exact .inr ⟨hr, ho⟩
      · rintro (rfl | ⟨hr, ho⟩)
        · exact ⟨.inl rfl, rfl⟩
        · exact ⟨.inr hr, ho⟩
    · funext p
      cases p with
      | none => rfl
      | some dev => rfl
  · cases p with
    | none =>
      obtain rfl := List.mem_singleton.mp hd
      exact hfrees
    | some dev => exact h.frees (some dev) d hd
  · rcases List.mem_cons.mp hr with rfl | hr
    · cases hm
      exact hn
    · exact h.fresh r hr m hm
  · rcases List.mem_cons.mp (show _ ∈ KCall.regionAcquire (.devres n) :: w.k.regionCalls
      from ho) with hc | ho
    · cases hc
    · exact h.held o b ho
  · change (KCall.regionAcquire (.devres n) :: w.k.regionCalls).count _ =
      (KCall.regionAcquire (.devres n) :: w.k.regionCalls).count _ +
        (⟨.devres n, devt, count⟩ :: w.k.regions).countP _
    have hb := h.balance m
    rw [List.count_cons, List.count_cons_of_ne (by simp), List.countP_cons, hb]
    by_cases hm : n = m
    · subst hm
      simp only [beq_self_eq_true, if_true]
      omega
    · simp [hm]

theorem RegionsOwed.release {w : World} {dr : ChrdevDr} {hand : List ChrdevDr}
    (h : RegionsOwed (dr :: hand) w) : RegionsOwed hand (w.chrdevRelease dr) := by
  have hfrees := h.frees none dr (List.mem_cons_self ..)
  have hmem : dr.region ∈ w.k.regions :=
    ((h.exact.owed dr.region).mpr ⟨none, List.mem_cons_self ..⟩).1
  have herase : w.k.regions.eraseP (fun r => r.first == dr.region.first &&
      r.count == dr.region.count) = w.k.regions.erase dr.region :=
    h.packed.eraseP_eq hmem fun r => by simp [Region.span]
  have hin : decide ((⟨dr.region.owner, dr.region.first, dr.region.count⟩ : Region) ∈
      w.k.regions) = true := decide_eq_true hmem
  rw [chrdevRelease_eq hfrees]
  simp only [Kernel.unregisterRegion, herase, hin]
  refine ⟨h.packed.erase _, ?_, fun p d hd => ?_, fun r hr n hn => ?_, fun o b ho => ?_,
    fun n => ?_⟩
  · have hdis := h.exact.discharge (k := none) (i := dr.region) rfl
    convert hdis using 1
    · ext r
      simp only [Kernel.devresRegions, World.setK_k, Set.mem_ofPred_eq,
        h.packed.nodup.mem_erase_iff, Set.mem_sdiff, Set.mem_singleton_iff]
      tauto
    · funext p
      cases p with
      | none => rfl
      | some dev => rfl
  · cases p with
    | none => exact h.frees none d (List.mem_cons_of_mem _ hd)
    | some dev => exact h.frees (some dev) d hd
  · exact h.fresh r (List.mem_of_mem_erase hr) n hn
  · rcases List.mem_cons.mp (show _ ∈ KCall.regionRelease (.devres dr.id) true ::
      w.k.regionCalls from ho) with hc | ho
    · cases hc
      rfl
    · exact h.held o b ho
  · change (KCall.regionRelease (.devres dr.id) true :: w.k.regionCalls).count _ =
      (KCall.regionRelease (.devres dr.id) true :: w.k.regionCalls).count _ +
        (w.k.regions.erase dr.region).countP _
    have hb := h.balance n
    rw [List.count_cons_of_ne (by simp), List.count_cons, List.countP_erase, hb]
    by_cases hn : dr.id = n
    · subst hn
      have howner : (dr.region.owner == .devres dr.id) = true := beq_self_eq_true _
      have hpos : 0 < w.k.regions.countP (·.owner == .devres dr.id) :=
        List.countP_pos_iff.mpr ⟨dr.region, hmem, howner⟩
      simp only [beq_self_eq_true, if_true, hmem, howner, and_self]
      omega
    · simp [ChrdevDr.region, hn]

theorem RegionsOwed.addAction {w : World} {dr : ChrdevDr} (h : RegionsOwed [dr] w)
    (dev : DeviceId) : RegionsOwed [] (w.devmAddAction dev (.chrdevRelease dr)) := by
  have hdrs : ∀ p, drsOf (w.devmAddAction dev (.chrdevRelease dr)).k [] p =
      if p = some dev then dr :: drsOf w.k [dr] p else if p = none then [] else
        drsOf w.k [dr] p := by
    rintro (_ | dev')
    · rfl
    · by_cases hd : dev' = dev
      · subst hd
        rw [if_pos rfl]
        simp only [drsOf, World.devmAddAction, World.setK_k, Kernel.pendingDrs,
          Function.update_self]
        exact List.filterMap_cons_some rfl
      · simp [drsOf, World.devmAddAction, Kernel.pendingDrs, hd]
  refine ⟨h.packed, ?_, fun p d hd => ?_, h.fresh, h.held, h.balance⟩
  · have hpass := h.exact.pass (show duty w.k [dr] none = [dr.region] from rfl)
      (Option.some_ne_none dev)
    convert hpass using 1
    · rfl
    · funext p
      simp only [duty, hdrs]
      rcases p with _ | dev'
      · simp
      · by_cases hd : dev' = dev
        · subst hd; simp
        · simp [hd, duty]
  · rw [hdrs] at hd
    split at hd
    · rcases List.mem_cons.mp hd with rfl | hd
      · exact h.frees none _ (List.mem_cons_self ..)
      · exact h.frees p d hd
    · split at hd
      · exact absurd hd List.not_mem_nil
      · exact h.frees p d hd

/-- The devm core takes the pending actions of `dev` in hand and runs them. -/
theorem RegionsOwed.runActions {w : World} (h : RegionsOwed [] w) (dev : DeviceId) :
    RegionsOwed [] (w.runActions dev) := by
  have hrun : ∀ (l : List DevmAction) (w : World), RegionsOwed (l.filterMap DevmAction.dr?) w →
      RegionsOwed [] (l.foldl World.runAction w) := by
    intro l
    induction l with
    | nil => exact fun _ h => h
    | cons a l ih =>
      intro w h
      cases a with
      | chrdevRelease dr => exact ih _ h.release
      | classRelease id => exact ih _ ((regionFrame_classRelease w id).owed h)
  refine hrun _ _ ?_
  let k' : Kernel := { w.k with devm := Function.update w.k.devm dev [] }
  have hdrs : ∀ p, drsOf k' (w.k.pendingDrs dev) p =
      if p = none then drsOf w.k [] (some dev) else if p = some dev then [] else
        drsOf w.k [] p := by
    rintro (_ | dev')
    · rfl
    · by_cases hd : dev' = dev
      · subst hd
        simp [drsOf, k', Kernel.pendingDrs]
      · simp [drsOf, k', Kernel.pendingDrs, hd]
  refine ⟨h.packed, ?_, fun p d hd => ?_, h.fresh, h.held, h.balance⟩
  · have hpass := h.exact.passAll (show duty w.k [] none = [] from rfl) (Option.some_ne_none dev)
    convert hpass using 1
    · rfl
    · funext p
      change (drsOf k' (w.k.pendingDrs dev) p).map ChrdevDr.region = _
      rw [hdrs]
      rcases p with _ | dev'
      · simp [duty]
      · by_cases hd : dev' = dev
        · subst hd; simp
        · simp [hd, duty]
  · change d ∈ drsOf k' (w.k.pendingDrs dev) p at hd
    rw [hdrs] at hd
    split at hd
    · exact h.frees (some dev) d hd
    · split at hd
      · exact absurd hd List.not_mem_nil
      · exact h.frees p d hd

theorem RegionsOwed.devmDetach {w : World} (h : RegionsOwed [] w) (dev : DeviceId) :
    RegionsOwed [] (devmDetach w dev) :=
  RegionFrame.owed (w := w.runActions dev) ⟨rfl, rfl, rfl, fun _ => rfl⟩ (h.runActions dev)

/-- The second of two releases finds no region: what `cleanupChrdev` does every time. -/
theorem RegionsOwed.cleanup_unheld {w : World} (h : RegionsOwed [] w) {dr : ChrdevDr}
    (hf : dr.Frees) (dev : DeviceId) (others : Others) :
    .regionRelease (.devres dr.id) false ∈ (w.cleanupChrdev dev dr others).k.calls := by
  let w₁ := w.interfere (others .beforeCleanup)
  let w₂ := w₁.devmReleaseAction dev (.chrdevRelease dr)
  let w₃ := w₂.interfere (others .insideCleanup)
  have hpacked : Packed Region.span w₁.k.regions := (h.interfere _).packed
  have h₂ : dr.region ∉ w₂.k.regions := by
    have hw₂ : w₂.k.regions = w₁.k.regions.eraseP fun r =>
        r.first == dr.region.first && r.count == dr.region.count := by
      simp only [w₂, World.devmReleaseAction, World.runAction, chrdevRelease_eq hf]
      rfl
    rw [hw₂]
    by_cases hmem : dr.region ∈ w₁.k.regions
    · rw [hpacked.eraseP_eq hmem fun r => by simp [Region.span]]
      exact hpacked.nodup.not_mem_erase
    · exact fun hr => hmem (List.mem_of_mem_eraseP hr)
  have h₃ : dr.region ∉ w₃.k.regions := fun hr =>
    h₂ ((mem_interfere (n := dr.id) rfl (others .insideCleanup)).mp hr)
  change _ ∈ (w₃.chrdevRelease dr).k.calls
  rw [chrdevRelease_eq hf]
  simp only [World.setK_k, Kernel.unregisterRegion]
  rw [show decide ((⟨dr.region.owner, dr.region.first, dr.region.count⟩ : Region) ∈
    w₃.k.regions) = false from decide_eq_false h₃]
  exact List.mem_cons_self ..

/-! ## `nv_char_driver_register_devm` -/

theorem classCreate_isOk (k : Kernel) (name : Option String) (e : Option Errno) :
    (k.classCreate name e).isOk = (e.isNone && k.classes.all (·.name != name)) := by
  unfold Kernel.classCreate
  cases e with
  | some e => rfl
  | none =>
    rw [List.all_eq_not_any_not]
    simp only [bne, Bool.not_not, Option.isNone_none, Bool.true_and]
    split
    · rename_i h
      rw [h]
      rfl
    · rename_i h
      rw [Bool.eq_false_of_not_eq_true h]
      rfl

/-- The two steps after the region's action succeed. -/
def classStepsOk (w : World) (id : DrvId) (o : DevmOutcomes) : Bool :=
  o.classCreate.isNone && w.k.classes.all (·.name != (w.drv id).name) && o.addClass.isNone

/-- The call gets as far as the region's action. -/
def regionStepsOk (w : World) (id : DrvId) (o : DevmOutcomes) (others : Others) : Bool :=
  !(w.drv id).invalid && o.devmKcalloc && o.devmKzalloc &&
    ((w.interfere (others .beforeRegion)).k.acquireRegion (.devres w.nextDr) (w.drv id).major
      o.dynMajor (w.drv id).count o.region).isOk && o.addChrdev.isNone

/-- The call does not fail between the region's action and the class's action. -/
def cleanExit (w : World) : Call → Bool
  | .driverRegisterDevm (some _) (some id) o others =>
    !regionStepsOk w id o others || classStepsOk w id o
  | _ => true

/-- Either the invariant is kept, or a region was released that was not held. -/
def KeptIf (ok : Bool) (w : World) : Prop :=
  (ok = true → RegionsOwed [] w) ∧
    (ok = false → ∃ n, .regionRelease (.devres n) false ∈ w.k.calls)

theorem KeptIf.kept {w : World} (h : RegionsOwed [] w) : KeptIf true w :=
  ⟨fun _ => h, fun h => by cases h⟩

theorem KeptIf.unheld {w : World} {n : ℕ} (h : .regionRelease (.devres n) false ∈ w.k.calls) :
    KeptIf false w := ⟨(fun h => by cases h), fun _ => ⟨n, h⟩⟩

theorem RegionsOwed.classSteps {w : World} (h : RegionsOwed [] w) {dr : ChrdevDr} (hf : dr.Frees)
    (dev : DeviceId) (id : DrvId) (o : DevmOutcomes) (others : Others) :
    KeptIf (classStepsOk w id o) (driverRegisterDevmClass w dev id dr o others).1 := by
  let w₁ := w.interfere (others .beforeClass)
  have h₁ : RegionsOwed [] w₁ := h.interfere _
  have hsteps : classStepsOk w id o =
      ((w₁.k.classCreate (w₁.drv id).name o.classCreate).isOk && o.addClass.isNone) := by
    rw [classCreate_isOk, (same_interfere (others .beforeClass) w).classes]
    rfl
  cases hk : w₁.k.classCreate (w₁.drv id).name o.classCreate with
  | error e =>
    have hno : classStepsOk w id o = false := by rw [hsteps, hk]; rfl
    simp only [driverRegisterDevmClass, w₁] at hk ⊢
    rw [hno, hk]
    have h₂ : RegionsOwed [] (w₁.modDrv id fun d => { d with cls := .err e }) :=
      (regionFrame_modDrv w₁ id _).owed h₁
    exact .unheld (h₂.cleanup_unheld hf dev others)
  | ok kc =>
    obtain ⟨k, c⟩ := kc
    let w₂ := (w₁.setK k).modDrv id fun d => { d with cls := .obj c }
    have h₂ : RegionsOwed [] (w₂.interfere (others .beforeAddClass)) :=
      (((regionFrame_classCreate hk).trans (regionFrame_modDrv _ id _)).owed h₁).interfere _
    cases ha : o.addClass with
    | some e =>
      have hno : classStepsOk w id o = false := by rw [hsteps, hk, ha]; rfl
      simp only [driverRegisterDevmClass, w₁] at hk ⊢
      rw [hno, hk]
      simp only [ha]
      have h₃ := ((regionFrame_classDestroy (w₂.interfere (others .beforeAddClass)) c).trans
        (regionFrame_modDrv _ id fun d => { d with cls := .null })).owed h₂
      exact .unheld (h₃.cleanup_unheld hf dev others)
    | none =>
      have hyes : classStepsOk w id o = true := by rw [hsteps, hk, ha]; rfl
      simp only [driverRegisterDevmClass, w₁] at hk ⊢
      rw [hyes, hk]
      simp only [ha]
      have h₃ := (regionFrame_addClassAction (w₂.interfere (others .beforeAddClass)) dev id).owed h₂
      exact .kept ((regionFrame_dfs _ _).owed h₃)

theorem classStepsOk_congr {w w' : World} {id : DrvId} (hc : SameClasses w.k w'.k)
    (hn : (w'.drv id).name = (w.drv id).name) (o : DevmOutcomes) :
    classStepsOk w' id o = classStepsOk w id o := by
  simp only [classStepsOk, hc.classes, hn]

theorem RegionsOwed.regionSteps {w : World} (h : RegionsOwed [] w) (dev : DeviceId) (id : DrvId)
    {drId : ℕ} (o : DevmOutcomes) (others : Others) (hn : drId < w.nextDr)
    (hnew : ∀ r ∈ w.k.regions, r.owner ≠ .devres drId) (hcount : 0 < (w.drv id).count) :
    KeptIf (!(((w.interfere (others .beforeRegion)).k.acquireRegion (.devres drId) (w.drv id).major
        o.dynMajor (w.drv id).count o.region).isOk && o.addChrdev.isNone) || classStepsOk w id o)
      (driverRegisterDevmRegion w dev id drId o others).1 := by
  let w₁ := w.interfere (others .beforeRegion)
  have h₁ : RegionsOwed [] w₁ := h.interfere _
  have hnew₁ : ∀ r ∈ w₁.k.regions, r.owner ≠ .devres drId := fun r hr ho =>
    hnew r ((mem_interfere ho (others .beforeRegion)).mp hr) ho
  cases hk : w₁.k.acquireRegion (.devres drId) (w.drv id).major o.dynMajor (w.drv id).count
      o.region with
  | error e =>
    have hk' : (w.interfere (others .beforeRegion)).k.acquireRegion (.devres drId)
      ((w.interfere (others .beforeRegion)).drv id).major o.dynMajor
      ((w.interfere (others .beforeRegion)).drv id).count o.region = .error e := hk
    simp only [driverRegisterDevmRegion, hk']
    exact .kept ((regionFrame_modDrv _ id _).owed h₁)
  | ok kd =>
    obtain ⟨k, devt⟩ := kd
    have hk' : (w.interfere (others .beforeRegion)).k.acquireRegion (.devres drId)
      ((w.interfere (others .beforeRegion)).drv id).major o.dynMajor
      ((w.interfere (others .beforeRegion)).drv id).count o.region = .ok (k, devt) := hk
    let dr : ChrdevDr :=
      { id := drId, devt := devt, count := (w.drv id).count, major := (w.drv id).major }
    let w₂ := (w₁.setK k).modDrv id fun d => { d with devt := devt }
    let w₃ := w₂.interfere (others .beforeAddChrdev)
    have h₂ : RegionsOwed [dr] w₂ :=
      (regionFrame_modDrv _ id _).owed (h₁.acquire hn hnew₁ hcount hk)
    have h₃ : RegionsOwed [dr] w₃ := h₂.interfere _
    cases ha : o.addChrdev with
    | some e =>
      simp only [driverRegisterDevmRegion, hk', ha]
      exact .kept h₃.release
    | none =>
      have hsame : SameClasses w.k w₃.k := (same_interfere _ w).trans <|
        (same_acquireRegion hk).trans (same_interfere _ w₂)
      have hsteps : classStepsOk (w₃.devmAddAction dev (.chrdevRelease dr)) id o =
          classStepsOk w id o := by
        refine classStepsOk_congr (hsame.trans ⟨rfl, rfl⟩) ?_ o
        simp [w₃, w₂, w₁, World.interfere]
      have hclass := (h₃.addAction dev).classSteps (h₃.frees none dr (List.mem_cons_self ..))
        dev id o others
      simp only [driverRegisterDevmRegion, hk', ha]
      rw [← hsteps]
      exact hclass

theorem RegionsOwed.registerDevm {w : World} (h : RegionsOwed [] w) (dev : DeviceId) (id : DrvId)
    (o : DevmOutcomes) (others : Others) :
    KeptIf (!regionStepsOk w id o others || classStepsOk w id o)
      (driverRegisterDevm w (some dev) (some id) o others).1 := by
  have hearly : ∀ {w' : World}, RegionFrame w w' → regionStepsOk w id o others = false →
      KeptIf (!regionStepsOk w id o others || classStepsOk w id o) w' := by
    intro w' hf hno
    rw [hno]
    exact .kept (hf.owed h)
  simp only [driverRegisterDevm]
  split
  · rename_i hinv
    exact hearly (.refl w) (by simp [regionStepsOk, hinv])
  · rename_i hinv
    split
    · rename_i hkc
      refine hearly ⟨rfl, rfl, rfl, fun _ => rfl⟩ ?_
      simp [regionStepsOk, Bool.eq_false_of_not_eq_true' hkc]
    · rename_i hkc
      split
      · rename_i hkz
        refine hearly ⟨rfl, rfl, rfl, fun _ => rfl⟩ ?_
        simp [regionStepsOk, Bool.eq_false_of_not_eq_true' hkz]
      · rename_i hkz
        let w₁ := (w.modDrv id fun d => { d with devmDev := some dev, devmManaged := true }).modDrv
          id fun d => { d with devices := some emptyTable, tableMem := .devm dev }
        let w₂ : World := { w₁ with nextDr := w₁.nextDr + 1 }
        have h₂ : RegionsOwed [] w₂ := ⟨h.packed, h.exact, h.frees,
          fun r hr n hn => Nat.lt_succ_of_lt (h.fresh r hr n hn), h.held, h.balance⟩
        have hcount : (w₂.drv id).count = (w.drv id).count := by simp [w₂, w₁]
        have hmajor : (w₂.drv id).major = (w.drv id).major := by simp [w₂, w₁]
        have hpos : 0 < (w.drv id).count := by
          simp only [NvCharDriver.invalid, Bool.or_eq_true, beq_iff_eq] at hinv
          omega
        have hregion := h₂.regionSteps dev id o others (Nat.lt_succ_self w.nextDr)
          (fun r hr ho => absurd (h.fresh r hr _ ho) (lt_irrefl _)) (hcount ▸ hpos)
        have hname : (w₂.drv id).name = (w.drv id).name := by simp [w₂, w₁]
        have hsame : SameClasses w.k w₂.k := ⟨rfl, rfl⟩
        have hsteps := classStepsOk_congr hsame hname o
        rw [hcount, hmajor, hsteps] at hregion
        have hok : regionStepsOk w id o others =
            (((w.interfere (others .beforeRegion)).k.acquireRegion (.devres w.nextDr)
              (w.drv id).major o.dynMajor (w.drv id).count o.region).isOk &&
              o.addChrdev.isNone) := by
          simp only [regionStepsOk, Bool.eq_false_of_not_eq_true hinv]
          simp only [Bool.not_eq_true', Bool.not_eq_false] at hkc hkz
          simp [hkc, hkz]
        rw [hok]
        exact hregion

/-! ## The promise over whole runs -/

/-- A call of the claim's runs: a registration, what the devm core does, or another driver's
acquisition. -/
def devmPath (_ : World) : Call → Bool
  | .driverRegisterDevm _ _ _ _ | .devmDetach _ | .otherAcquire _ => true
  | _ => false

/-- A region is released only while it is held, as many times as it was taken, and what is still
held has an action that will release it. -/
structure ReleasedAsTaken (w : World) : Prop where
  held : ∀ n b, .regionRelease (.devres n) b ∈ w.k.calls → b = true
  balance : ∀ n, w.k.calls.count (.regionAcquire (.devres n)) =
    w.k.calls.count (.regionRelease (.devres n) true) +
      w.k.regions.countP (·.owner == .devres n)
  owed : ∀ r ∈ w.k.regions, ∀ n, r.owner = .devres n →
    ∃ dev dr, .chrdevRelease dr ∈ w.k.devm dev ∧ dr.region = r

theorem RegionsOwed.releasedAsTaken {w : World} (h : RegionsOwed [] w) : ReleasedAsTaken w where
  held := fun n b hc => h.held _ b (List.mem_filter.mpr ⟨hc, rfl⟩)
  balance := fun n => by
    have hb := h.balance n
    rwa [Kernel.regionCalls, List.count_filter rfl, List.count_filter rfl] at hb
  owed := fun r hr n hn => by
    obtain ⟨p, hp⟩ := (h.exact.owed r).mp ⟨hr, by rw [hn]; rfl⟩
    obtain ⟨dr, hdr, rfl⟩ := List.mem_map.mp hp
    cases p with
    | none => exact absurd hdr List.not_mem_nil
    | some dev =>
      obtain ⟨a, ha, hadr⟩ := List.mem_filterMap.mp hdr
      cases a with
      | chrdevRelease dr' =>
        obtain rfl : dr' = dr := Option.some.inj hadr
        exact ⟨dev, dr', ha, rfl⟩
      | classRelease id => cases hadr

theorem call_keptIf {w : World} {c : Call} (h : RegionsOwed [] w) (hp : devmPath w c = true) :
    KeptIf (cleanExit w c) (call w c) := by
  have hheld : ∀ (w : World) hs, RegionFrame w { w with holders := hs } := fun _ _ =>
    ⟨rfl, rfl, rfl, fun _ => rfl⟩
  cases c with
  | driverRegisterDevm dev drv o others =>
    cases dev with
    | none => exact .kept ((hheld w _).owed h)
    | some dev =>
      cases drv with
      | none => exact .kept ((hheld w _).owed h)
      | some id =>
        have hreg := h.registerDevm dev id o others
        exact ⟨fun hok => (hheld _ _).owed (hreg.1 hok), hreg.2⟩
  | devmDetach dev => exact .kept ((hheld _ _).owed (h.devmDetach dev))
  | otherAcquire a => exact .kept ((hheld _ _).owed (h.interfere [a]))
  | _ => cases hp

/-- Regions are released as they were taken in exactly the runs in which no registration fails
between the action for its region and the action for its class. -/
theorem released_as_taken_iff_cleanExit (cfg : DrvId → DriverConfig) (calls : List Call)
    (hp : Along step (fun w c => devmPath w c = true) (init cfg) calls) :
    Throughout step ReleasedAsTaken (init cfg) calls ↔
      Along step (fun w c => cleanExit w c = true) (init cfg) calls := by
  refine throughout_iff_along (I := RegionsOwed []) (fun w h => h.releasedAsTaken) ?_ ?_ calls
    (init cfg) (init_regionsOwed cfg) hp
  · intro w c w' h hp hc hs
    rw [step_eq_some hs]
    exact (call_keptIf h hp).1 hc
  · intro w c h hp hc
    obtain ⟨n, hn⟩ := (call_keptIf h hp).2 (Bool.eq_false_of_not_eq_true hc)
    refine ⟨call w c, ?_, fun hrel => ?_⟩
    · cases c with
      | charRelease f r => cases hp
      | _ => rfl
    · cases hrel.held n false hn

def oneDriver : DrvId → DriverConfig := fun _ =>
  { name := some "nv_char", owner := some 0, count := 1, major := 0, devMode := 0 }

/-- The class can be created or not; another driver takes the region as soon as it is free. -/
def classCreateFails (e : Option Errno) : List Call :=
  [ .driverRegisterDevm (some 0) (some 0)
      { devmKcalloc := true, devmKzalloc := true, region := none, dynMajor := 511,
        addChrdev := none, classCreate := e, addClass := none, debugfsRoot := true }
      fun p => if p = .insideCleanup then [⟨7, mkdev 511 0, 1⟩] else [],
    .devmDetach 0 ]

theorem released_as_taken_unbound :
    Throughout step ReleasedAsTaken (init oneDriver) (classCreateFails none) :=
  (released_as_taken_iff_cleanExit oneDriver (classCreateFails none) (by decide)).mpr (by decide)

/-- After a failed `class_create` the region is released again, now from under its new owner. -/
theorem region_released_from_other :
    Along step (fun w c => devmPath w c = true) (init oneDriver)
      (classCreateFails (some .ENOMEM)) ∧
    ∃ w, run step (init oneDriver) (classCreateFails (some .ENOMEM)) = some w ∧
      .regionAcquire (.other 7) ∈ w.k.calls ∧ w.k.regions = [] ∧ ¬ ReleasedAsTaken w := by
  refine ⟨by decide, ?_⟩
  have hend : (run step (init oneDriver) (classCreateFails (some .ENOMEM))).map (fun w =>
      (decide (.regionAcquire (.other 7) ∈ w.k.calls), w.k.regions,
        decide (.regionRelease (.devres 0) false ∈ w.k.calls))) = some (true, [], true) := by decide
  obtain ⟨w, hrun, hw⟩ := Option.map_eq_some_iff.mp hend
  simp only [Prod.mk.injEq, decide_eq_true_eq] at hw
  obtain ⟨hother, hregions, hunheld⟩ := hw
  refine ⟨w, hrun, hother, hregions, fun h => ?_⟩
  cases h.held 0 false hunheld

end LinuxDriverFramework.NvChar
