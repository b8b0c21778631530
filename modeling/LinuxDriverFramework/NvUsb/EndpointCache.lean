import LinuxDriverFramework.NvUsb.Endpoints

/-! # Bulk transfers and the endpoint cache

`nv_usb_select_altsetting` changes the setting and leaves the cache as it is.

* `addr_lookUp`: the cached address is that of the setting's first bulk endpoint.
* `Current`: the transfer just submitted goes to a bulk endpoint of the current setting.
* `Call.UpToDate`: the cache was filled from the current setting, or from one that agrees with it
  on the endpoint to be used.
* `current_iff_upToDate`: a run stays current just when its transfers are up to date.
* `current_of_refreshed`: so do runs in which each successful select is followed by
  `nv_usb_find_endpoints`. -/

namespace LinuxDriverFramework.NvUsb
open Foundations
set_option autoImplicit false

/-! ## What the cache holds -/

def NvUsbEndpoints.bulk (eps : NvUsbEndpoints) : Dir → Option EndpointDesc
  | .input => eps.bulkIn
  | .output => eps.bulkOut

def NvUsbEndpoints.addr (eps : NvUsbEndpoints) : Dir → UInt8
  | .input => eps.bulkInAddr
  | .output => eps.bulkOutAddr

/-- The first bulk endpoint of the direction. -/
def HostInterface.bulk (alt : HostInterface) (dir : Dir) : Option EndpointDesc :=
  alt.endpoints.find? (·.isBulk dir)

theorem bulk_note (eps : NvUsbEndpoints) (ep : EndpointDesc) (dir : Dir) :
    (eps.note ep).bulk dir = (eps.bulk dir).or (if ep.isBulk dir then some ep else none) := by
  unfold NvUsbEndpoints.note
  by_cases htype : ep.type = xferBulk
  · rw [if_pos htype]
    cases dir <;> cases hin : ep.dirIn <;> cases hi : eps.bulkIn <;> cases ho : eps.bulkOut <;>
      simp [NvUsbEndpoints.bulk, EndpointDesc.isBulk, Dir.isIn, htype, hin, hi, ho]
  · rw [if_neg htype]
    have hno : ep.isBulk dir = false := by simp [EndpointDesc.isBulk, htype]
    rw [hno]
    cases dir <;> split <;> simp [NvUsbEndpoints.bulk]

theorem addr_note (eps : NvUsbEndpoints) (ep : EndpointDesc) (dir : Dir)
    (h : eps.addr dir = (eps.bulk dir).elim 0 (·.bEndpointAddress)) :
    (eps.note ep).addr dir = ((eps.note ep).bulk dir).elim 0 (·.bEndpointAddress) := by
  unfold NvUsbEndpoints.note
  split
  · split
    · cases dir with
      | input => rfl
      | output => exact h
    · split
      · cases dir with
        | input => exact h
        | output => rfl
      · exact h
  · split
    · cases dir <;> exact h
    · exact h

theorem foldl_note (l : List EndpointDesc) (dir : Dir) (eps : NvUsbEndpoints)
    (h : eps.addr dir = (eps.bulk dir).elim 0 (·.bEndpointAddress)) :
    (l.foldl NvUsbEndpoints.note eps).bulk dir = (eps.bulk dir).or (l.find? (·.isBulk dir)) ∧
    (l.foldl NvUsbEndpoints.note eps).addr dir =
      ((l.foldl NvUsbEndpoints.note eps).bulk dir).elim 0 (·.bEndpointAddress) := by
  induction l generalizing eps with
  | nil => exact ⟨(Option.or_none).symm, h⟩
  | cons ep l ih =>
    obtain ⟨hbulk, haddr⟩ := ih (eps.note ep) (addr_note eps ep dir h)
    refine ⟨?_, haddr⟩
    rw [List.foldl_cons, hbulk, bulk_note, Option.or_assoc, List.find?_cons]
    cases ep.isBulk dir <;> rfl

theorem addr_lookUp (alt : HostInterface) (dir : Dir) :
    alt.lookUp.addr dir = (alt.bulk dir).elim 0 (·.bEndpointAddress) := by
  have hzero : NvUsbEndpoints.zero.addr dir =
      (NvUsbEndpoints.zero.bulk dir).elim 0 (·.bEndpointAddress) := by
    cases dir <;> rfl
  obtain ⟨hbulk, haddr⟩ := foldl_note alt.endpoints dir .zero hzero
  have hnone : NvUsbEndpoints.zero.bulk dir = none := by
    cases dir <;> rfl
  rw [HostInterface.lookUp, haddr, hbulk, hnone, Option.none_or]
  rfl

theorem lists_lookUp (alt : HostInterface) (dir : Dir) (h : alt.lookUp.addr dir ≠ 0) :
    alt.Lists dir (alt.lookUp.addr dir) := by
  rw [addr_lookUp] at h ⊢
  cases hep : alt.bulk dir with
  | none =>
    rw [hep] at h
    exact absurd rfl h
  | some ep =>
    exact ⟨ep, List.mem_of_find?_eq_some hep, by simpa using List.find?_some hep, rfl⟩

/-! ## The condition -/

/-- The transfer just submitted goes to a bulk endpoint, of its direction, of the setting that is
current. -/
def Current (w : World) : Prop :=
  ∀ t, w.submitted = some t → ∃ i, w.intf = some i ∧ i.cur.Lists t.dir t.addr

/-- The arguments pass the checks of `nv_usb_bulk_in` and `nv_usb_bulk_out` that are not about the
cache. -/
def goodArgs (w : World) (buf : Bool) (len : ℤ) : Bool :=
  w.udev.isSome && buf && decide (0 < len)

/-- Wherever a transfer is about to be submitted, the setting that was looked up is the current one,
or its first bulk endpoint has an address that the current one lists for the same direction. -/
def Call.UpToDate (w : World) : Call → Prop
  | .bulk dir buf len _ => goodArgs w buf len = true →
      ∀ looked, w.filledFrom = some looked → ∀ ep, looked.bulk dir = some ep →
        ep.bEndpointAddress ≠ 0 →
          ∃ i, w.intf = some i ∧ (i.cur = looked ∨ i.cur.Lists dir ep.bEndpointAddress)
  | _ => True

/-- The cache is what was found in the setting last looked at. -/
structure Invariant (w : World) : Prop where
  cache : w.eps = (w.filledFrom.elim .zero HostInterface.lookUp)
  current : Current w

theorem invariant_probed (i : UsbInterface) (udev : ℕ) : Invariant (.probed i udev) :=
  ⟨rfl, fun _ h => by cases h⟩

/-! ## One call -/

section Step

variable {w : World}

theorem step_bulk (dir : Dir) (buf : Bool) (len : ℤ) (o : Option Errno) :
    step w (.bulk dir buf len o) =
      (bulkMsg { w with submitted := none } (w.eps.addr dir) dir buf len o).1 := by
  cases dir <;> rfl

theorem step_bulk_submits {dir : Dir} {buf : Bool} {len : ℤ} (o : Option Errno)
    (hargs : goodArgs w buf len = true) (haddr : w.eps.addr dir ≠ 0) :
    step w (.bulk dir buf len o) = { w with submitted := some ⟨dir, w.eps.addr dir⟩ } := by
  obtain ⟨⟨hudev, hbuf⟩, hlen⟩ : (w.udev.isSome = true ∧ buf = true) ∧ 0 < len := by
    simpa [goodArgs] using hargs
  have hno : ¬ (w.udev.isNone || w.eps.addr dir == 0 || !buf || decide (len ≤ 0)) = true := by
    rw [hbuf, beq_eq_false_iff_ne.mpr haddr, Option.isNone_eq_false_iff.mpr hudev]
    simpa using hlen
  rw [step_bulk]
  simp only [bulkMsg, if_neg hno]

theorem step_bulk_refused {dir : Dir} {buf : Bool} {len : ℤ} (o : Option Errno)
    (h : goodArgs w buf len = false ∨ w.eps.addr dir = 0) :
    step w (.bulk dir buf len o) = { w with submitted := none } := by
  have hyes : (w.udev.isNone || w.eps.addr dir == 0 || !buf || decide (len ≤ 0)) = true := by
    rcases h with h | h
    · cases hudev : w.udev with
      | none => rfl
      | some u =>
        cases buf with
        | false => simp
        | true =>
          have hlen : len ≤ 0 := by simpa [goodArgs, hudev] using h
          simp [hlen]
    · rw [h]
      simp
  rw [step_bulk]
  simp only [bulkMsg, if_pos hyes]

theorem Invariant.looked (hi : Invariant w) {dir : Dir} (haddr : w.eps.addr dir ≠ 0) :
    ∃ looked ep, w.filledFrom = some looked ∧ looked.bulk dir = some ep ∧
      w.eps.addr dir = ep.bEndpointAddress := by
  have hcache := hi.cache
  cases hlook : w.filledFrom with
  | none =>
    rw [hlook] at hcache
    rw [hcache] at haddr
    exact absurd (by cases dir <;> rfl) haddr
  | some looked =>
    rw [hlook] at hcache
    have heq : w.eps.addr dir = (looked.bulk dir).elim 0 (·.bEndpointAddress) := by
      rw [hcache]
      exact addr_lookUp looked dir
    cases hep : looked.bulk dir with
    | none =>
      rw [hep] at heq
      exact absurd heq haddr
    | some ep =>
      rw [hep] at heq
      exact ⟨looked, ep, rfl, hep, heq⟩

theorem Invariant.addr_eq (hi : Invariant w) {looked : HostInterface} {dir : Dir}
    {ep : EndpointDesc} (hlook : w.filledFrom = some looked) (hep : looked.bulk dir = some ep) :
    w.eps.addr dir = ep.bEndpointAddress := by
  have hcache := hi.cache
  rw [hlook] at hcache
  have haddr := addr_lookUp looked dir
  rw [hep] at haddr
  rw [hcache]
  exact haddr

theorem Invariant.quiet (hi : Invariant w) {w' : World} (heps : w'.eps = w.eps)
    (hfilled : w'.filledFrom = w.filledFrom) (hsub : w'.submitted = none) : Invariant w' := by
  refine ⟨?_, fun t ht => ?_⟩
  · rw [heps, hfilled]
    exact hi.cache
  · rw [hsub] at ht
    cases ht

theorem select_keeps (hi : Invariant w) (alt : ℤ) (o : Option Errno) :
    Invariant (step w (.select alt o)) := by
  show Invariant (selectAltsetting { w with submitted := none } alt o).1
  unfold selectAltsetting
  split
  · exact hi.quiet rfl rfl rfl
  · split
    · exact hi.quiet rfl rfl rfl
    · split <;> exact hi.quiet rfl rfl rfl

theorem find_keeps (hi : Invariant w) : Invariant (step w .find) := by
  show Invariant (findEndpoints { w with submitted := none }).1
  unfold findEndpoints
  split
  · exact hi.quiet rfl rfl rfl
  · exact ⟨rfl, fun _ h => by cases h⟩

theorem bulk_keeps (hi : Invariant w) {dir : Dir} {buf : Bool} {len : ℤ} (o : Option Errno)
    (hc : (Call.bulk dir buf len o).UpToDate w) : Invariant (step w (.bulk dir buf len o)) := by
  by_cases hsub : goodArgs w buf len = false ∨ w.eps.addr dir = 0
  · rw [step_bulk_refused o hsub]
    exact hi.quiet rfl rfl rfl
  · obtain ⟨hargs, haddr⟩ := not_or.mp hsub
    have hargs : goodArgs w buf len = true := by simpa using hargs
    obtain ⟨looked, ep, hlook, hep, heq⟩ := hi.looked haddr
    rw [step_bulk_submits o hargs haddr]
    refine ⟨hi.cache, fun t ht => ?_⟩
    cases ht
    obtain ⟨i, hintf, hcur⟩ := hc hargs looked hlook ep hep (heq ▸ haddr)
    refine ⟨i, hintf, ?_⟩
    show i.cur.Lists dir (w.eps.addr dir)
    rcases hcur with rfl | hlists
    · have hcache := hi.cache
      rw [hlook] at hcache
      rw [hcache] at haddr ⊢
      exact lists_lookUp i.cur dir haddr
    · rw [heq]
      exact hlists

theorem bulk_breaks (hi : Invariant w) {dir : Dir} {buf : Bool} {len : ℤ} (o : Option Errno)
    (hc : ¬ (Call.bulk dir buf len o).UpToDate w) : ¬ Current (step w (.bulk dir buf len o)) := by
  simp only [Call.UpToDate, Classical.not_imp, not_forall] at hc
  obtain ⟨hargs, looked, hlook, ep, hep, hne, hno⟩ := hc
  have haddr := hi.addr_eq hlook hep
  rw [step_bulk_submits o hargs (haddr ▸ hne)]
  intro hcur
  obtain ⟨i, hintf, hlists⟩ := hcur ⟨dir, w.eps.addr dir⟩ rfl
  exact hno ⟨i, hintf, .inr (haddr ▸ hlists)⟩

end Step

/-! ## Runs -/

/-- The calls as a transition system; all of them are enabled in every state. -/
def next (w : World) (c : Call) : Option World := some (step w c)

theorem step_keeps (w : World) (c : Call) (w' : World) (hi : Invariant w) (hc : c.UpToDate w)
    (hw : next w c = some w') : Invariant w' := by
  obtain rfl := Option.some.inj hw
  cases c with
  | select alt o => exact select_keeps hi alt o
  | find => exact find_keeps hi
  | bulk dir buf len o => exact bulk_keeps hi o hc

/-- In a run on a probed device every transfer goes to an endpoint of the current setting just when
every transfer is submitted with an up-to-date cache. -/
theorem current_iff_upToDate (i : UsbInterface) (udev : ℕ) (calls : List Call) :
    Throughout next Current (.probed i udev) calls ↔
      Along next (fun w c => c.UpToDate w) (.probed i udev) calls := by
  refine throughout_iff_along (I := Invariant) (D := fun _ _ => True) (fun w hi => hi.current)
    (fun w c w' hi _ => step_keeps w c w' hi) ?_ calls _ (invariant_probed i udev)
    (along_true calls _)
  intro w c hi _ hc
  refine ⟨_, rfl, ?_⟩
  cases c with
  | select alt o => exact absurd trivial hc
  | find => exact absurd trivial hc
  | bulk dir buf len o => exact bulk_breaks hi o hc

/-! ## Endpoints found again after a select -/

/-- The next call, if there is one, fills the cache. -/
def FindNext (calls : List Call) : Prop := calls = [] ∨ ∃ rest, calls = .find :: rest

def Refreshed : World → List Call → Prop
  | _, [] => True
  | w, .select alt o :: calls =>
    ((selectAltsetting w alt o).2 = .ok () → FindNext calls) ∧
      Refreshed (step w (.select alt o)) calls
  | w, c :: calls => Refreshed (step w c) calls

/-- The setting last looked at is the current one. -/
def Fresh (w : World) : Prop := ∀ looked, w.filledFrom = some looked →
  ∃ i, w.intf = some i ∧ i.cur = looked

theorem Fresh.same {w w' : World} (h : Fresh w) (hfilled : w'.filledFrom = w.filledFrom)
    (hintf : w'.intf = w.intf) : Fresh w' := by
  intro looked hl
  rw [hfilled] at hl
  rw [hintf]
  exact h looked hl

theorem Fresh.upToDate {w : World} (h : Fresh w) (c : Call) : c.UpToDate w := by
  cases c with
  | select => trivial
  | find => trivial
  | bulk dir buf len o =>
    intro _ looked hl ep _ _
    obtain ⟨i, hi, hcur⟩ := h looked hl
    exact ⟨i, hi, .inl hcur⟩

theorem fresh_find {w : World} (h : w.intf.isSome = true) : Fresh (step w .find) := by
  obtain ⟨i, hi⟩ := Option.isSome_iff_exists.mp h
  intro looked hl
  simp only [step, findEndpoints, hi, Option.some.injEq] at hl ⊢
  exact ⟨i, rfl, hl⟩

theorem step_intf_isSome (w : World) (c : Call) : (step w c).intf.isSome = w.intf.isSome := by
  cases c with
  | select alt o =>
    simp only [step, selectAltsetting]
    split
    · rfl
    · rename_i i hi
      split
      · rfl
      · split
        · rfl
        · rw [hi]
          rfl
  | find =>
    simp only [step, findEndpoints]
    split <;> rfl
  | bulk dir buf len o =>
    rw [step_bulk]
    unfold bulkMsg
    split <;> rfl

theorem Fresh.select {w : World} (h : Fresh w) (alt : ℤ) {o : Option Errno}
    (hfail : (selectAltsetting w alt o).2 ≠ .ok ()) : Fresh (step w (.select alt o)) := by
  simp only [step]
  unfold selectAltsetting at hfail ⊢
  cases hi : w.intf with
  | none => exact h.same rfl hi.symm
  | some i =>
    simp only [hi] at hfail ⊢
    by_cases halt : w.altsetting = alt
    · exact absurd (by rw [if_pos halt]) hfail
    · rw [if_neg halt] at hfail ⊢
      cases hset : i.setInterface alt o with
      | mk i' r =>
        cases r with
        | error e => exact h.same rfl hi.symm
        | ok u => simp [hset] at hfail

/-- From a fresh cache, or with a call that makes it fresh in front. -/
theorem upToDate_of_refreshed {w : World} {calls : List Call} (hi : w.intf.isSome = true)
    (hf : Fresh w ∨ FindNext calls) (h : Refreshed w calls) :
    Along next (fun w c => c.UpToDate w) w calls := by
  induction calls generalizing w with
  | nil => trivial
  | cons c calls ih =>
    have hi' : (step w c).intf.isSome = true := (step_intf_isSome w c).trans hi
    refine ⟨?_, fun w' hw => ?_⟩
    · rcases hf with hfresh | hnil | ⟨rest, hfind⟩
      · exact hfresh.upToDate c
      · cases hnil
      · cases hfind
        trivial
    · obtain rfl := Option.some.inj hw
      cases c with
      | find => exact ih hi' (.inl (fresh_find hi)) h
      | bulk dir buf len o =>
        refine ih hi' (.inl ?_) h
        rcases hf with hfresh | hnil | ⟨rest, hfind⟩
        · rw [step_bulk]
          unfold bulkMsg
          split <;> exact hfresh.same rfl rfl
        · cases hnil
        · cases hfind
      | select alt o =>
        obtain ⟨hnext, hrest⟩ := h
        refine ih hi' ?_ hrest
        by_cases hok : (selectAltsetting w alt o).2 = .ok ()
        · exact .inr (hnext hok)
        · rcases hf with hfresh | hnil | ⟨rest, hfind⟩
          · exact .inl (hfresh.select alt hok)
          · cases hnil
          · cases hfind

theorem current_of_refreshed (i : UsbInterface) (udev : ℕ) {calls : List Call}
    (h : Refreshed (.probed i udev) calls) : Throughout next Current (.probed i udev) calls :=
  throughout_of_along (fun _ hi => hi.current) step_keeps calls _ (invariant_probed i udev)
    (upToDate_of_refreshed rfl (.inl fun _ hl => by cases hl) h)

/-! ## Two settings with different endpoints -/

/-- Setting 0 has a bulk endpoint 0x81, setting 1 has 0x82 in its place. -/
def twoSettings : UsbInterface where
  altsettings := [⟨0, [⟨0x81, 2, 512⟩]⟩, ⟨1, [⟨0x82, 2, 512⟩]⟩]
  cur := ⟨0, [⟨0x81, 2, 512⟩]⟩
  cur_mem := List.mem_cons_self

/-- Find the endpoints, select setting 1, read: the transfer goes to 0x81. -/
def readAfterSelect : List Call := [.find, .select 1 none, .bulk .input true 64 none]

theorem stale_endpoint_after_select :
    ¬ Throughout next Current (.probed twoSettings 0) readAfterSelect := by
  intro h
  have hcur : Current (step (step (step (.probed twoSettings 0) .find) (.select 1 none))
      (.bulk .input true 64 none)) := ((h.2 _ rfl).2 _ rfl).2 _ rfl
  obtain ⟨i, hi, hlists⟩ := hcur ⟨.input, 0x81⟩ (by decide)
  have hcurrent : i.cur = ⟨1, [⟨0x82, 2, 512⟩]⟩ := by
    rw [← Option.some.inj hi]
  rw [hcurrent] at hlists
  exact absurd hlists (by decide)

end LinuxDriverFramework.NvUsb
