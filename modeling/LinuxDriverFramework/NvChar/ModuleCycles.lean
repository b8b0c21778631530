import LinuxDriverFramework.Foundations.Holdings
import LinuxDriverFramework.NvChar.SingleDevice

/-! # What loading and unloading leaves in the kernel

* `Holding`: what a loaded module has of the kernel's objects.
* `Held`: the kernel's objects are those of the surroundings and those of the loaded modules.
* `Held.add`, `Held.remove`: a driver is registered with its device, or unregistered. -/

namespace LinuxDriverFramework.NvChar.ModuleLoads
open Foundations
set_option autoImplicit false

/-! ## The kernel's objects -/

/-- The number and the class of a registered driver. -/
structure Holding where
  devt : ℕ
  cls : ℕ

def Mod.drvName : Mod → Option String
  | .echo => some echoValues.drvName
  | .demo => some (demoValues true).drvName
  | .selftest => some selftestValues.drvName
  | .miscEcho => none

def Holding.region (m : Mod) (h : Holding) : Region := ⟨.driver m.id, h.devt, 1⟩

def Holding.classObj (m : Mod) (h : Holding) : ClassObj := ⟨h.cls, m.drvName⟩

def Holding.node (h : Holding) : ℕ × ℕ := (h.cls, h.devt)

structure Held (e : Surroundings) (held : Mod → Option Holding) (k : Kernel) : Prop where
  regions : Split {r | r ∈ e.regions} (fun m => (held m).map (Holding.region m)) {r | r ∈ k.regions}
  packed : Packed Region.span k.regions
  classes : Split {c | c ∈ e.classes} (fun m => (held m).map (Holding.classObj m))
    {c | c ∈ k.classes}
  below : ∀ c ∈ k.classes, c.id < k.nextClass
  distinct : k.classes.Pairwise fun c c' => c.id ≠ c'.id
  nodes : Split {n | n ∈ e.nodes} (fun m => (held m).map Holding.node) {n | n ∈ k.nodes}
  nodesBelow : ∀ n ∈ k.nodes, n.1 < k.nextClass
  cdevs : Split ∅ (fun m => (held m).map fun _ => DevId.cdev m.id) {x | x ∈ k.cdevs}
  proper : Proper k

theorem Mod.id_injective {m m' : Mod} (h : m.id = m'.id) : m = m' := by
  cases m <;> cases m' <;> first | rfl | cases h

theorem map_update {β : Type} (held : Mod → Option Holding) (f : Mod → Holding → β) (m : Mod)
    (v : Option Holding) :
    (fun m' => (Function.update held m v m').map (f m')) =
      Function.update (fun m' => (held m').map (f m')) m (v.map (f m)) := by
  funext m'
  by_cases h : m' = m
  · subst h
    rw [Function.update_self, Function.update_self]
  · rw [Function.update_of_ne h, Function.update_of_ne h]

theorem map_held {β : Type} {held : Mod → Option Holding} {m : Mod} {v : Option Holding}
    (hm : held m = v) (f : Mod → Holding → β) : (held m).map (f m) = v.map (f m) :=
  congrArg (Option.map (f m)) hm

/-- A class number names one class. -/
theorem eq_of_classId {l : List ClassObj} (h : l.Pairwise fun c c' => c.id ≠ c'.id)
    {c c' : ClassObj} (hc : c ∈ l) (hc' : c' ∈ l) (he : c.id = c'.id) : c = c' := by
  by_contra hne
  have : Std.Symm fun c c' : ClassObj => c.id ≠ c'.id := ⟨fun _ _ hab => hab.symm⟩
  exact h.forall hc hc' hne he

theorem held_start (e : Surroundings) : Held e (fun _ => none) (start e).w.k where
  regions := split_none _
  packed := e.packed
  classes := split_none _
  below := e.below
  distinct := e.distinct
  nodes := split_none _
  nodesBelow := e.nodesBelow
  cdevs := by
    have h : {x | x ∈ (start e).w.k.cdevs} = (∅ : Set DevId) := by
      ext x
      simp [start]
    rw [h]
    exact split_none _
  proper c hc := absurd hc List.not_mem_nil

section Kernel

variable {e : Surroundings} {held : Mod → Option Holding} {k k' : Kernel} {m : Mod}

theorem Held.same (h : Held e held k) (hs : Same k k') : Held e held k' where
  regions := by rw [hs.regions]; exact h.regions
  packed := by rw [hs.regions]; exact h.packed
  classes := by rw [hs.classes]; exact h.classes
  below c hc := by
    rw [hs.classes] at hc
    exact (h.below c hc).trans_le hs.nextClass
  distinct := by rw [hs.classes]; exact h.distinct
  nodes := by rw [hs.nodes]; exact h.nodes
  nodesBelow n hn := by
    rw [hs.nodes] at hn
    exact (h.nodesBelow n hn).trans_le hs.nextClass
  cdevs := by rw [hs.cdevs]; exact h.cdevs
  proper := hs.proper h.proper

theorem Held.cdev_notMem (h : Held e held k) (hm : held m = none) : .cdev m.id ∉ k.cdevs := by
  intro hin
  rcases (h.cdevs.mem_iff (.cdev m.id)).mp hin with hbase | ⟨m', hm'⟩
  · exact hbase
  · obtain ⟨h', hh', hx⟩ := Option.map_eq_some_iff.mp hm'
    rw [Mod.id_injective (DevId.cdev.inj hx), hm] at hh'
    cases hh'

theorem Held.add {w w' : World} {devt : ℕ} {root : Bool} (h : Held e held w.k) (hm : held m = none)
    (hb : Both m m.drvName root w w' devt) :
    Held e (Function.update held m (some ⟨devt, w.k.nextClass⟩)) w'.k := by
  have hapart := apart_of_regionFree (o := .driver m.id) hb.free
  refine ⟨?_, ?_, ?_, fun c hc => ?_, ?_, ?_, fun n hn => ?_, ?_, hb.proper h.proper⟩
  · rw [map_update]
    refine h.regions.take m (map_held hm _) (fun hin => ?_) fun b => ?_
    · exact Span.not_apart_self Nat.one_pos (hapart _ hin)
    · rw [hb.regions]
      exact List.mem_cons
  · rw [hb.regions]
    exact h.packed.cons Nat.one_pos hapart
  · rw [map_update]
    refine h.classes.take m (map_held hm _) (fun hin => ?_) fun b => ?_
    · exact absurd (h.below _ hin) (lt_irrefl _)
    · rw [hb.classes]
      exact List.mem_cons
  · rw [hb.classes] at hc
    rw [hb.nextClass]
    rcases List.mem_cons.mp hc with rfl | hc
    · exact Nat.lt_succ_self _
    · exact (h.below c hc).trans (Nat.lt_succ_self _)
  · rw [hb.classes]
    exact List.pairwise_cons.mpr ⟨fun c hc => (h.below c hc).ne', h.distinct⟩
  · rw [map_update held fun _ => Holding.node]
    refine h.nodes.take m (map_held hm fun _ => Holding.node) hb.node_free fun b => ?_
    rw [hb.nodes]
    exact Finset.mem_insert
  · rw [hb.nodes] at hn
    rw [hb.nextClass]
    rcases Finset.mem_insert.mp hn with rfl | hn
    · exact Nat.lt_succ_self _
    · exact (h.nodesBelow n hn).trans (Nat.lt_succ_self _)
  · rw [map_update held fun m _ => DevId.cdev m.id]
    refine h.cdevs.take m (map_held hm fun m _ => DevId.cdev m.id) (h.cdev_notMem hm) fun b => ?_
    rw [hb.cdevs]
    exact Finset.mem_insert

theorem Held.remove {w w' : World} {v : Holding} (h : Held e held w.k) (hm : held m = some v)
    (hg : Gone m v.devt v.cls w w') : Held e (Function.update held m none) w'.k := by
  have hregion := h.regions.mem (map_held hm Holding.region)
  have hclass := h.classes.mem (map_held hm Holding.classObj)
  have herase : w'.k.regions = w.k.regions.erase (Holding.region m v) := by
    rw [hg.regions]
    refine h.packed.eraseP_eq hregion fun r => ?_
    simp [Region.span, Holding.region]
  refine ⟨?_, ?_, ?_, fun c hc => ?_, ?_, ?_, fun n hn => ?_, ?_, hg.proper h.proper⟩
  · rw [map_update]
    refine h.regions.give (map_held hm _) fun b => ?_
    rw [herase]
    exact h.packed.nodup.mem_erase_iff
  · rw [herase]
    exact h.packed.erase _
  · rw [map_update]
    refine h.classes.give (map_held hm _) fun b => ?_
    rw [hg.classes]
    change b ∈ List.filter _ _ ↔ _
    rw [List.mem_filter, bne_iff_ne, and_comm]
    refine and_congr_left fun hb => not_congr ⟨fun hid => ?_, fun heq => by rw [heq]; rfl⟩
    exact eq_of_classId h.distinct hb hclass hid
  · rw [hg.classes] at hc
    rw [hg.nextClass]
    exact h.below c (List.mem_of_mem_filter hc)
  · rw [hg.classes]
    exact h.distinct.filter _
  · rw [map_update held fun _ => Holding.node]
    refine h.nodes.give (map_held hm fun _ => Holding.node) fun b => ?_
    rw [hg.nodes]
    exact Finset.mem_erase
  · rw [hg.nodes] at hn
    rw [hg.nextClass]
    exact h.nodesBelow n (Finset.mem_of_mem_erase hn)
  · rw [map_update held fun m _ => DevId.cdev m.id]
    refine h.cdevs.give (map_held hm fun m _ => DevId.cdev m.id) fun b => ?_
    rw [hg.cdevs]
    exact Finset.mem_erase

end Kernel

end LinuxDriverFramework.NvChar.ModuleLoads
