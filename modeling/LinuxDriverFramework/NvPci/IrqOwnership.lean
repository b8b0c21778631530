import LinuxDriverFramework.NvPci.Irq

/-! # Which handler is installed

* `Kept`: what the last call and all calls of `pci_free_irq_vectors` so far have to respect.
* `Call.Paired`: a request on a device with an interrupt repeats what is installed, and a handler
  is freed only if it was installed with the device itself as device id.
* `kept_iff_paired`: a run keeps `Kept` throughout just when all its calls are paired. -/

namespace LinuxDriverFramework.NvPci
open Foundations
set_option autoImplicit false

/-- The last request that returned 0 has its own handler and data installed, nothing is installed
after a free, and vectors were never freed under a handler. -/
structure Kept (w : World) : Prop where
  requested : ∀ handler data, w.last = some (.requested handler data (.ok ())) →
    ∃ a, w.installed = [a] ∧ some a.handler = handler ∧ a.devId = data
  freed : w.last = some .freed → w.installed = []
  vectors : ∀ idle ∈ w.vectorFrees, idle = true

/-- The condition under which a call keeps `Kept`. -/
def Call.Paired (w : World) : Call → Prop
  | .request a _ => 0 < w.dev.irq → a.handler.isSome →
      ∃ r ∈ w.installed, some r.handler = a.handler ∧ r.devId = a.data
  | .free => 0 < w.dev.irq → ∀ r ∈ w.installed, r.devId = some w.dev.self

/-- `dev->irq` is positive just when one handler is installed, on that line. -/
structure Sound (w : World) : Prop where
  bound : w.dev.pdev.isSome
  busy : 0 < w.dev.irq → w.dev.numIrqVectors = 1 ∧ ∃ a, w.installed = [a] ∧ a.irq = w.dev.irq
  idle : ¬ 0 < w.dev.irq → w.dev.numIrqVectors = 0 ∧ w.installed = []
  vectors : ∀ idle ∈ w.vectorFrees, idle = true

def Invariant (w : World) : Prop := Sound w ∧ Kept w

theorem invariant_probed (self pdev : ℕ) (driverName : String) :
    Invariant (.probed self pdev driverName) := by
  refine ⟨⟨rfl, fun h => ?_, fun _ => ⟨rfl, rfl⟩, fun _ h => absurd h List.not_mem_nil⟩,
    fun _ _ h => ?_, fun h => ?_, fun _ h => absurd h List.not_mem_nil⟩
  · exact absurd h (show ¬ 0 < (-1 : ℤ) by decide)
  · cases h
  · cases h

/-- The device without an interrupt, after vectors were given back or never taken. -/
theorem Sound.settle {w : World} (hs : Sound w) (hinst : w.installed = []) {irq : ℤ}
    (hirq : ¬ 0 < irq) :
    Sound (w.freeIrqVectors.modDev fun d => { d with irq := irq, numIrqVectors := 0 }) := by
  refine ⟨hs.bound, fun h => absurd h hirq, fun _ => ⟨rfl, hinst⟩, fun idle hidle => ?_⟩
  rcases List.mem_cons.mp hidle with rfl | hidle
  · show w.installed.isEmpty = true
    rw [hinst]
    rfl
  · exact hs.vectors idle hidle

/-! ## `nv_pci_request_irq` -/

section Request

variable {w : World} {a : RequestArgs} {o : RequestOutcomes}

/-- What a request can do on a device without an interrupt: fail and leave it so, or install its
handler. -/
theorem requestVector_cases (hs : Sound w) (hirq : ¬ 0 < w.dev.irq) (handler : ℕ) :
    (∃ e, (requestVector w handler a o).2 = .error e ∧ Sound (requestVector w handler a o).1) ∨
    ∃ r, (requestVector w handler a o).2 = .ok () ∧
      (requestVector w handler a o).1.installed = [r] ∧ r.handler = handler ∧ r.devId = a.data ∧
      Sound (requestVector w handler a o).1 := by
  obtain ⟨-, hinst⟩ := hs.idle hirq
  cases halloc : o.allocVectors with
  | some e =>
    have heq : requestVector w handler a o = (w, .error e) := by
      simp only [requestVector, halloc]
    rw [heq]
    exact .inl ⟨e, rfl, hs⟩
  | none =>
    by_cases hneg : o.vector.1 < 0
    · -- `pci_irq_vector` fails
      have heq : requestVector w handler a o =
          (w.freeIrqVectors.modDev fun d => { d with irq := o.vector.1, numIrqVectors := 0 },
            .error .ENOENT) := by
        simp only [requestVector, halloc, World.modDev, World.freeIrqVectors]
        exact if_pos hneg
      rw [heq]
      exact .inl ⟨_, rfl, hs.settle hinst (by omega)⟩
    · cases hreq : o.request with
      | some e =>
        have heq : requestVector w handler a o =
            (w.freeIrqVectors.modDev fun d => { d with irq := -1, numIrqVectors := 0 }, .error e) := by
          simp only [requestVector, halloc, World.modDev, if_neg hneg, hreq, World.freeIrqVectors]
        rw [heq]
        exact .inl ⟨e, rfl, hs.settle hinst (by decide)⟩
      | none =>
        have hne := o.vector.2
        have hpos : 0 < o.vector.1 := by omega
        have heq : requestVector w handler a o =
            ((w.modDev fun d => { d with numIrqVectors := 1, irq := o.vector.1 }).install
              ⟨o.vector.1, handler, a.flags, a.name.getD w.dev.driverName, a.data⟩, .ok ()) := by
          simp only [requestVector, halloc, World.modDev, if_neg hneg, hreq]
        rw [heq]
        let r : IrqAction := ⟨o.vector.1, handler, a.flags, a.name.getD w.dev.driverName, a.data⟩
        have hr : r :: w.installed = [r] := congrArg (r :: ·) hinst
        exact .inr ⟨r, rfl, hr, rfl, rfl, hs.bound, fun _ => ⟨rfl, r, hr, rfl⟩,
          fun h => absurd hpos h, hs.vectors⟩

theorem requestIrq_some {p handler : ℕ} (hp : w.dev.pdev = some p) (hh : a.handler = some handler) :
    requestIrq w a o = if 0 < w.dev.irq then (w, .ok ()) else requestVector w handler a o := by
  simp only [requestIrq, hp, hh]

theorem requestIrq_none (hh : a.handler = none) : requestIrq w a o = (w, .error .EINVAL) := by
  cases hp : w.dev.pdev <;> simp only [requestIrq, hp, hh]

theorem request_keeps (hi : Invariant w) (hpaired : (Call.request a o).Paired w) :
    Invariant (step w (.request a o)) := by
  obtain ⟨hs, hk⟩ := hi
  obtain ⟨p, hp⟩ := Option.isSome_iff_exists.mp hs.bound
  have hfail : ∀ {w' : World} {e : Errno}, Sound w' →
      Invariant { w' with last := some (.requested a.handler a.data (.error e)) } :=
    fun h => ⟨⟨h.bound, h.busy, h.idle, h.vectors⟩, fun _ _ he => (by cases he),
      fun he => (by cases he), h.vectors⟩
  have hok : ∀ {w' : World} {r : IrqAction}, Sound w' → w'.installed = [r] →
      some r.handler = a.handler → r.devId = a.data →
      Invariant { w' with last := some (.requested a.handler a.data (.ok ())) } := by
    intro w' r h hr hhandler hdata
    refine ⟨⟨h.bound, h.busy, h.idle, h.vectors⟩, fun handler data he => ?_, fun he => ?_, h.vectors⟩
    · cases he
      exact ⟨r, hr, hhandler, hdata⟩
    · cases he
  cases hh : a.handler with
  | none =>
    rw [step, requestIrq_none hh]
    exact hfail hs
  | some handler =>
    rw [step, requestIrq_some hp hh]
    by_cases hirq : 0 < w.dev.irq
    · -- nothing is done, so what is installed has to be what the call asks for
      rw [if_pos hirq]
      obtain ⟨-, r, hr, -⟩ := hs.busy hirq
      obtain ⟨r', hmem, hhandler, hdata⟩ := hpaired hirq (by rw [hh]; rfl)
      rw [hr] at hmem
      obtain rfl := List.mem_singleton.mp hmem
      exact hok hs hr hhandler hdata
    · rw [if_neg hirq]
      obtain ⟨e, hret, hs'⟩ | ⟨r, hret, hr, hhandler, hdata, hs'⟩ :=
        requestVector_cases (a := a) (o := o) hs hirq handler
      · simp only [hret]
        exact hfail hs'
      · simp only [hret]
        exact hok hs' hr (by rw [hhandler, hh]) hdata

/-- A request that finds another handler or other data installed returns 0 all the same. -/
theorem request_breaks (hi : Invariant w) (hno : ¬ (Call.request a o).Paired w) :
    ¬ Kept (step w (.request a o)) := by
  obtain ⟨hs, -⟩ := hi
  obtain ⟨p, hp⟩ := Option.isSome_iff_exists.mp hs.bound
  simp only [Call.Paired, Classical.not_imp] at hno
  obtain ⟨hirq, hsome, hother⟩ := hno
  obtain ⟨handler, hh⟩ := Option.isSome_iff_exists.mp hsome
  intro hk
  rw [step, requestIrq_some hp hh, if_pos hirq] at hk
  obtain ⟨r, hr, hhandler, hdata⟩ := hk.requested _ _ rfl
  have hr' : w.installed = [r] := hr
  exact hother ⟨r, hr' ▸ List.mem_singleton_self r, hhandler, hdata⟩

end Request

/-! ## `nv_pci_free_irq` -/

section Free

variable {w : World}

theorem freeIrq_idle (hs : Sound w) (hirq : ¬ 0 < w.dev.irq) :
    freeIrq w = w.modDev fun d => { d with irq := -1, numIrqVectors := 0 } := by
  obtain ⟨p, hp⟩ := Option.isSome_iff_exists.mp hs.bound
  simp only [freeIrq, hp, if_neg hirq, (hs.idle hirq).1, ne_eq, not_true_eq_false, if_false]

theorem freeIrq_busy (hs : Sound w) (hirq : 0 < w.dev.irq) :
    freeIrq w = (w.devmFreeIrq w.dev.irq (some w.dev.self)).freeIrqVectors.modDev
      fun d => { d with irq := -1, numIrqVectors := 0 } := by
  obtain ⟨p, hp⟩ := Option.isSome_iff_exists.mp hs.bound
  have hnum : (w.devmFreeIrq w.dev.irq (some w.dev.self)).dev.numIrqVectors ≠ 0 := by
    show w.dev.numIrqVectors ≠ 0
    rw [(hs.busy hirq).1]
    decide
  simp only [freeIrq, hp, if_pos hirq, if_pos hnum]

theorem devmFreeIrq_singleton {r : IrqAction} (hr : w.installed = [r]) (hirq : r.irq = w.dev.irq)
    (devId : Ptr) : (w.devmFreeIrq w.dev.irq devId).installed =
      if r.devId = devId then [] else [r] := by
  by_cases h : r.devId = devId
  · simp [World.devmFreeIrq, hr, hirq, h]
  · simp [World.devmFreeIrq, hr, hirq, h]

theorem free_keeps (hi : Invariant w) (hpaired : Call.free.Paired w) :
    Invariant (step w .free) := by
  obtain ⟨hs, hk⟩ := hi
  have hdone : ∀ {w' : World}, Sound w' → w'.installed = [] →
      Invariant { w' with last := some .freed } :=
    fun h hinst => ⟨⟨h.bound, h.busy, h.idle, h.vectors⟩, fun _ _ he => (by cases he),
      fun _ => hinst, h.vectors⟩
  by_cases hirq : 0 < w.dev.irq
  · obtain ⟨-, r, hr, hline⟩ := hs.busy hirq
    have hgone : (w.devmFreeIrq w.dev.irq (some w.dev.self)).installed = [] := by
      rw [devmFreeIrq_singleton hr hline]
      exact if_pos (hpaired hirq r (hr ▸ List.mem_singleton_self r))
    rw [step, freeIrq_busy hs hirq]
    refine hdone ⟨hs.bound, fun h => ?_, fun _ => ⟨rfl, hgone⟩, fun idle hidle => ?_⟩ hgone
    · exact absurd h (show ¬ 0 < (-1 : ℤ) by decide)
    · rcases List.mem_cons.mp hidle with rfl | hidle
      · show List.isEmpty _ = true
        rw [hgone]
        rfl
      · exact hs.vectors idle hidle
  · obtain ⟨-, hinst⟩ := hs.idle hirq
    rw [step, freeIrq_idle hs hirq]
    refine hdone ⟨hs.bound, fun h => ?_, fun _ => ⟨rfl, hinst⟩, hs.vectors⟩ hinst
    exact absurd h (show ¬ 0 < (-1 : ℤ) by decide)

/-- A handler with another device id stays, and its vector is freed under it. -/
theorem free_breaks (hi : Invariant w) (hno : ¬ Call.free.Paired w) : ¬ Kept (step w .free) := by
  obtain ⟨hs, -⟩ := hi
  simp only [Call.Paired, Classical.not_imp, not_forall] at hno
  obtain ⟨hirq, r', hmem, hother⟩ := hno
  obtain ⟨-, r, hr, hline⟩ := hs.busy hirq
  rw [hr] at hmem
  obtain rfl := List.mem_singleton.mp hmem
  intro hk
  rw [step, freeIrq_busy hs hirq] at hk
  have hinst : (w.devmFreeIrq w.dev.irq (some w.dev.self)).installed = [] := hk.freed rfl
  rw [devmFreeIrq_singleton hr hline, if_neg hother] at hinst
  cases hinst

end Free

/-! ## Runs -/

theorem step_keeps (w : World) (c : Call) (hi : Invariant w) (hc : c.Paired w) :
    Invariant (step w c) := by
  cases c with
  | request a o => exact request_keeps hi hc
  | free => exact free_keeps hi hc

theorem step_breaks (w : World) (c : Call) (hi : Invariant w) (hc : ¬ c.Paired w) :
    ¬ Kept (step w c) := by
  cases c with
  | request a o => exact request_breaks hi hc
  | free => exact free_breaks hi hc

/-- The calls as a transition system; all of them are enabled in every state. -/
def next (w : World) (c : Call) : Option World := some (step w c)

/-- In a run from the probed device the handlers are kept in order throughout just when all its
calls are paired. -/
theorem kept_iff_paired (self pdev : ℕ) (driverName : String) (calls : List Call) :
    Throughout next Kept (.probed self pdev driverName) calls ↔
      Along next (fun w c => c.Paired w) (.probed self pdev driverName) calls := by
  refine throughout_iff_along (I := Invariant) (D := fun _ _ => True) (fun w hi => hi.2) ?_ ?_ calls _
    (invariant_probed self pdev driverName) (along_true calls _)
  · intro w c w' hi _ hc hw
    obtain rfl := Option.some.inj hw
    exact step_keeps w c hi hc
  · intro w c hi _ hc
    exact ⟨_, rfl, step_breaks w c hi hc⟩

/-! ## A driver that passes its own data -/

/-- A request that succeeds on line 16. -/
def granted : RequestOutcomes := ⟨none, ⟨16, by decide⟩, none⟩

/-- The driver of device 1 requests handler 7 with data 2 and frees it: the handler stays installed
after its vector is gone. -/
theorem handler_outlives_vector :
    ¬ Throughout next Kept (.probed 1 0 "drv")
      [.request ⟨some 7, none, 0, some 2⟩ granted, .free] ∧
    (step (step (.probed 1 0 "drv") (.request ⟨some 7, none, 0, some 2⟩ granted)) .free).installed =
      [⟨16, 7, 0, "drv", some 2⟩] := by
  refine ⟨fun h => ?_, rfl⟩
  have hk : Kept (step (step (.probed 1 0 "drv") (.request ⟨some 7, none, 0, some 2⟩ granted)) .free) :=
    (h.2 _ rfl).2 _ rfl
  cases hk.freed rfl

end LinuxDriverFramework.NvPci
