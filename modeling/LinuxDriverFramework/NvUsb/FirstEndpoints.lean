import LinuxDriverFramework.NvUsb.Endpoints

/-! # The cache holds the first endpoint of each kind

* `Kind`, `Slot`: the three kinds that `nv_usb_find_endpoints` looks for, and the three members of
  `struct nv_usb_endpoints` that belong to one kind.
* `slot_note`, `slot_foldl`: what one round of the loop and the whole loop do to a slot.
* `findEndpoints_first`: each slot holds the first endpoint of its kind. -/

namespace LinuxDriverFramework.NvUsb
set_option autoImplicit false

inductive Kind
  | bulkIn
  | bulkOut
  | intIn
  deriving DecidableEq, Repr

def EndpointDesc.isOf (ep : EndpointDesc) : Kind → Bool
  | .bulkIn => ep.type == xferBulk && ep.dirIn
  | .bulkOut => ep.type == xferBulk && !ep.dirIn
  | .intIn => ep.type == xferInt && ep.dirIn

/-- Pointer, address and packet size that are cached for one kind. -/
structure Slot where
  ep : Option EndpointDesc
  addr : UInt8
  mps : UInt16
  deriving DecidableEq, Repr

def NvUsbEndpoints.slot (eps : NvUsbEndpoints) : Kind → Slot
  | .bulkIn => ⟨eps.bulkIn, eps.bulkInAddr, eps.bulkInMps⟩
  | .bulkOut => ⟨eps.bulkOut, eps.bulkOutAddr, eps.bulkOutMps⟩
  | .intIn => ⟨eps.intIn, eps.intInAddr, eps.intInMps⟩

/-- All three members from one descriptor, or none of them. -/
def Slot.of : Option EndpointDesc → Slot
  | none => ⟨none, 0, 0⟩
  | some ep => ⟨some ep, ep.bEndpointAddress, ep.maxp⟩

@[simp] theorem Slot.of_ep (o : Option EndpointDesc) : (Slot.of o).ep = o := by
  cases o <;> rfl

theorem slot_zero (k : Kind) : NvUsbEndpoints.zero.slot k = .of none := by
  cases k <;> rfl

/-! ## The loop -/

section Loop

variable (eps : NvUsbEndpoints) (ep : EndpointDesc)

/-- A round that finds its slot free and an endpoint of the slot's kind. -/
theorem slot_note_first {k : Kind} (hk : ep.isOf k = true) (hfree : (eps.slot k).ep = none) :
    (eps.note ep).slot k = .of (some ep) := by
  unfold NvUsbEndpoints.note
  cases k with
  | bulkIn =>
    obtain ⟨htype, hin⟩ := Bool.and_eq_true_iff.mp hk
    have hnone : eps.bulkIn = none := hfree
    simp only [eq_of_beq htype, hin, hnone, Option.isNone_none, Bool.and_self, if_true]
    rfl
  | bulkOut =>
    obtain ⟨htype, hout⟩ := Bool.and_eq_true_iff.mp hk
    have hnone : eps.bulkOut = none := hfree
    have hin : ep.dirIn = false := by simpa using hout
    simp only [eq_of_beq htype, hin, hnone, Option.isNone_none, Bool.false_and, Bool.not_false,
      Bool.and_self, Bool.false_eq_true, if_false, if_true]
    rfl
  | intIn =>
    obtain ⟨htype, hin⟩ := Bool.and_eq_true_iff.mp hk
    have hnone : eps.intIn = none := hfree
    have hbulk : xferInt ≠ xferBulk := by decide
    simp only [eq_of_beq htype, hin, hnone, hbulk, Option.isNone_none, Bool.and_self, decide_true,
      if_false, if_true]
    rfl

theorem slot_note_other {k : Kind} (h : ep.isOf k = false ∨ (eps.slot k).ep ≠ none) :
    (eps.note ep).slot k = eps.slot k := by
  unfold NvUsbEndpoints.note
  by_cases htype : ep.type = xferBulk
  · rw [if_pos htype]
    cases k <;> cases hin : ep.dirIn <;> cases hi : eps.bulkIn <;> cases ho : eps.bulkOut <;>
      simp [NvUsbEndpoints.slot, EndpointDesc.isOf, htype, hin, hi, ho] at h ⊢
  · rw [if_neg htype]
    split
    · rename_i hint
      cases k with
      | bulkIn => rfl
      | bulkOut => rfl
      | intIn =>
        obtain ⟨⟨htype, hin⟩, hnone⟩ :
            (ep.type = xferInt ∧ ep.dirIn = true) ∧ eps.intIn = none := by
          simpa using hint
        rcases h with h | h
        · simp [EndpointDesc.isOf, htype, hin] at h
        · exact absurd hnone h
    · rfl

theorem slot_note {k : Kind} {o : Option EndpointDesc} (h : eps.slot k = .of o) :
    (eps.note ep).slot k = .of (o.or (if ep.isOf k then some ep else none)) := by
  have hep : (eps.slot k).ep = o := by rw [h, Slot.of_ep]
  cases o with
  | some first =>
    rw [slot_note_other eps ep (.inr (by rw [hep]; exact Option.some_ne_none first)), h,
      Option.some_or]
  | none =>
    rw [Option.none_or]
    cases hk : ep.isOf k with
    | true =>
      rw [slot_note_first eps ep hk hep]
      rfl
    | false =>
      rw [slot_note_other eps ep (.inl hk), h]
      rfl

end Loop

theorem slot_foldl (l : List EndpointDesc) (k : Kind) {eps : NvUsbEndpoints}
    {o : Option EndpointDesc} (h : eps.slot k = .of o) :
    (l.foldl NvUsbEndpoints.note eps).slot k = .of (o.or (l.find? (·.isOf k))) := by
  induction l generalizing eps o with
  | nil =>
    rw [List.foldl_nil, h, List.find?_nil, Option.or_none]
  | cons ep l ih =>
    rw [List.foldl_cons, ih (slot_note eps ep h), Option.or_assoc, List.find?_cons]
    cases ep.isOf k <;> rfl

theorem slot_lookUp (alt : HostInterface) (k : Kind) :
    alt.lookUp.slot k = .of (alt.endpoints.find? (·.isOf k)) := by
  rw [HostInterface.lookUp, slot_foldl alt.endpoints k (slot_zero k), Option.none_or]

/-! ## What is cached -/

/-- The slot holds the first endpoint of the kind, with its own address and packet size, and it is
empty just when there is none. -/
structure HoldsFirst (alt : HostInterface) (k : Kind) (slot : Slot) : Prop where
  first : slot.ep = alt.endpoints.find? (·.isOf k)
  same : ∀ ep, slot.ep = some ep → slot.addr = ep.bEndpointAddress ∧ slot.mps = ep.maxp
  absent : slot = ⟨none, 0, 0⟩ ↔ ∀ ep ∈ alt.endpoints, ep.isOf k = false
  pointer : slot.ep = none ↔ ∀ ep ∈ alt.endpoints, ep.isOf k = false
  address : slot.addr = 0 ↔ ∀ ep ∈ alt.endpoints, ep.isOf k = false

theorem holdsFirst_find (alt : HostInterface) (k : Kind)
    (h : ∀ ep ∈ alt.endpoints, ep.bEndpointAddress ≠ 0) :
    HoldsFirst alt k (.of (alt.endpoints.find? (·.isOf k))) := by
  cases hfind : alt.endpoints.find? (·.isOf k) with
  | none =>
    have hno : ∀ ep ∈ alt.endpoints, ep.isOf k = false := by
      intro ep hep
      simpa using List.find?_eq_none.mp hfind ep hep
    refine ⟨hfind.symm, ?_, iff_of_true rfl hno, iff_of_true rfl hno, iff_of_true rfl hno⟩
    intro ep hep
    cases hep
  | some ep =>
    have hmem := List.mem_of_find?_eq_some hfind
    have hkind : ep.isOf k = true := by simpa using List.find?_some hfind
    have hsome : ¬ ∀ ep ∈ alt.endpoints, ep.isOf k = false := by
      intro hno
      exact Bool.false_ne_true ((hno ep hmem).symm.trans hkind)
    refine ⟨hfind.symm, ?_, iff_of_false ?_ hsome, iff_of_false ?_ hsome,
      iff_of_false (h ep hmem) hsome⟩
    · intro ep' hep
      cases hep
      exact ⟨rfl, rfl⟩
    · intro hslot
      cases congrArg Slot.ep hslot
    · exact Option.some_ne_none ep

/-- Whatever was cached before, `nv_usb_find_endpoints` leaves the first endpoints of the setting
that is current. -/
theorem findEndpoints_first (w : World) (i : UsbInterface) (hintf : w.intf = some i)
    (haddr : ∀ ep ∈ i.cur.endpoints, ep.bEndpointAddress ≠ 0) (k : Kind) :
    (findEndpoints w).2 = .ok () ∧ HoldsFirst i.cur k ((findEndpoints w).1.eps.slot k) := by
  simp only [findEndpoints, hintf, slot_lookUp]
  exact ⟨trivial, holdsFirst_find i.cur k haddr⟩

/-- A setting with two bulk-IN endpoints, 0x82 before 0x81. -/
def mixedSetting : UsbInterface where
  altsettings := [⟨0, [⟨0x83, 3, 8⟩, ⟨0x82, 2, 512⟩, ⟨0x81, 2, 64⟩]⟩]
  cur := ⟨0, [⟨0x83, 3, 8⟩, ⟨0x82, 2, 512⟩, ⟨0x81, 2, 64⟩]⟩
  cur_mem := List.mem_cons_self

theorem findEndpoints_first_mixed :
    (findEndpoints (.probed mixedSetting 0)).2 = .ok () ∧
    HoldsFirst mixedSetting.cur .bulkIn
      ((findEndpoints (.probed mixedSetting 0)).1.eps.slot .bulkIn) :=
  findEndpoints_first (.probed mixedSetting 0) mixedSetting rfl (by decide) .bulkIn

example : mixedSetting.cur.lookUp.slot .bulkIn = ⟨some ⟨0x82, 2, 512⟩, 0x82, 512⟩ ∧
    mixedSetting.cur.lookUp.slot .bulkOut = ⟨none, 0, 0⟩ := by
  decide

end LinuxDriverFramework.NvUsb
