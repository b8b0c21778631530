import LinuxDriverFramework.NvNet.Registration

/-! # Changing the MTU of an `nv_net` interface

`dev_set_mtu` hands the request to `ndo_change_mtu`, which is `nv_net_change_mtu`; without a
`change_mtu` callback that calls `dev_set_mtu` again.

* `MtuCall`: a function of the chain, `none` while it has not returned.
* `changeMtu`: `nv_net_change_mtu`, over the `dev_set_mtu` it falls back to.
* `devSetMtu`: `dev_set_mtu` with a bound on how often it may be entered.
* `ChangesMtu`: some bound is enough, and the new value is stored.
* `returns_iff`: when the chain comes to an end at all. -/

namespace LinuxDriverFramework.NvNet
set_option autoImplicit false

/-- `ops && ops->c`. -/
def provides (ops : Option Ops) (c : Callback) : Bool := ops.any fun o => o c

/-- `min_mtu` and `max_mtu` of a `net_device`; 0 stands for no upper bound. -/
structure MtuRange where
  minMtu : ℕ
  maxMtu : ℕ
  deriving DecidableEq, Repr

def MtuRange.Valid (r : MtuRange) (mtu : ℤ) : Prop :=
  0 ≤ mtu ∧ (r.minMtu : ℤ) ≤ mtu ∧ (r.maxMtu = 0 ∨ mtu ≤ r.maxMtu)

instance (r : MtuRange) (mtu : ℤ) : Decidable (r.Valid mtu) :=
  inferInstanceAs (Decidable (_ ∧ _ ∧ _))

abbrev MtuCall := NetDevice → ℤ → Option (Ret × NetDevice)

/-- What `ops->change_mtu` does where it is defined. -/
abbrev ChangeMtuOp := NetDevice → ℤ → Ret × NetDevice

def changeMtu (dev : NvNetDev) (op : ChangeMtuOp) (devSetMtu : MtuCall) : MtuCall :=
  fun netdev newMtu =>
    if provides dev.ops .changeMtu then some (op netdev newMtu)
    else devSetMtu netdev newMtu

/-- `dev_set_mtu`, entered at most as often as the number says. `ndo` is the `ndo_change_mtu` of
the device, over the `dev_set_mtu` it may call. -/
def devSetMtu (range : MtuRange) (ndo : Option (MtuCall → MtuCall)) : ℕ → MtuCall
  | 0, _, _ => none
  | depth + 1, netdev, newMtu =>
    if newMtu = netdev.mtu then some (.ok (), netdev)
    else if ¬ range.Valid newMtu then some (.error .EINVAL, netdev)
    else
      match ndo with
      | some f => f (devSetMtu range ndo depth) netdev newMtu
      | none => some (.ok (), { netdev with mtu := newMtu })

/-- `nv_net_netdev_ops.ndo_change_mtu`. -/
def ndoChangeMtu (dev : NvNetDev) (op : ChangeMtuOp) : Option (MtuCall → MtuCall) :=
  some (changeMtu dev op)

def requestMtu (range : MtuRange) (dev : NvNetDev) (op : ChangeMtuOp) (depth : ℕ) : MtuCall :=
  devSetMtu range (ndoChangeMtu dev op) depth

def Returns (range : MtuRange) (dev : NvNetDev) (op : ChangeMtuOp) (netdev : NetDevice)
    (newMtu : ℤ) : Prop :=
  ∃ depth out, requestMtu range dev op depth netdev newMtu = some out

/-- The chain of calls comes to an end, and the interface has the new MTU. -/
def ChangesMtu (range : MtuRange) (dev : NvNetDev) (op : ChangeMtuOp) (netdev : NetDevice)
    (newMtu : ℤ) : Prop :=
  ∃ depth out, requestMtu range dev op depth netdev newMtu = some out ∧ out.2.mtu = newMtu

section Chain

variable {range : MtuRange} {dev : NvNetDev} {op : ChangeMtuOp} {netdev : NetDevice} {newMtu : ℤ}

/-! ## One entry of `dev_set_mtu` -/

theorem requestMtu_same (depth : ℕ) :
    requestMtu range dev op (depth + 1) netdev netdev.mtu = some (.ok (), netdev) := by
  simp only [requestMtu, devSetMtu, if_true]

theorem requestMtu_invalid (hne : newMtu ≠ netdev.mtu) (h : ¬ range.Valid newMtu) (depth : ℕ) :
    requestMtu range dev op (depth + 1) netdev newMtu = some (.error .EINVAL, netdev) := by
  simp only [requestMtu, devSetMtu, if_neg hne, h, not_false_eq_true, if_true]

theorem requestMtu_op (hne : newMtu ≠ netdev.mtu) (h : range.Valid newMtu)
    (hop : provides dev.ops .changeMtu = true) (depth : ℕ) :
    requestMtu range dev op (depth + 1) netdev newMtu = some (op netdev newMtu) := by
  simp only [requestMtu, devSetMtu, if_neg hne, h, not_true_eq_false, if_false, ndoChangeMtu,
    changeMtu, hop, if_true]

/-- Without `change_mtu` the request comes back to where it began, with nothing stored. -/
theorem requestMtu_default (hne : newMtu ≠ netdev.mtu) (h : range.Valid newMtu)
    (hop : provides dev.ops .changeMtu = false) (depth : ℕ) :
    requestMtu range dev op (depth + 1) netdev newMtu =
      requestMtu range dev op depth netdev newMtu := by
  simp only [requestMtu, devSetMtu, if_neg hne, h, not_true_eq_false, if_false, ndoChangeMtu,
    changeMtu, hop, Bool.false_eq_true]

/-! ## The whole chain -/

theorem requestMtu_mono {depth : ℕ} {out : Ret × NetDevice}
    (h : requestMtu range dev op depth netdev newMtu = some out) (more : ℕ) :
    requestMtu range dev op (depth + more) netdev newMtu = some out := by
  induction depth with
  | zero => cases h
  | succ depth ih =>
    rw [Nat.succ_add]
    by_cases hne : newMtu = netdev.mtu
    · subst hne
      rw [requestMtu_same] at h ⊢
      exact h
    · by_cases hv : range.Valid newMtu
      · cases hop : provides dev.ops .changeMtu with
        | true =>
          rw [requestMtu_op hne hv hop] at h ⊢
          exact h
        | false =>
          rw [requestMtu_default hne hv hop] at h ⊢
          exact ih h
      · rw [requestMtu_invalid hne hv] at h ⊢
        exact h

theorem requestMtu_eq_none (hne : newMtu ≠ netdev.mtu) (h : range.Valid newMtu)
    (hop : provides dev.ops .changeMtu = false) (depth : ℕ) :
    requestMtu range dev op depth netdev newMtu = none := by
  induction depth with
  | zero => rfl
  | succ depth ih => rw [requestMtu_default hne h hop, ih]

/-- The default ends only where `dev_set_mtu` does not get as far as calling it. -/
theorem returns_iff : Returns range dev op netdev newMtu ↔
    provides dev.ops .changeMtu = true ∨ newMtu = netdev.mtu ∨ ¬ range.Valid newMtu := by
  constructor
  · rintro ⟨depth, out, h⟩
    by_contra hno
    obtain ⟨hop, hne, hv⟩ : provides dev.ops .changeMtu = false ∧ newMtu ≠ netdev.mtu ∧
        range.Valid newMtu := by simpa using hno
    rw [requestMtu_eq_none hne hv hop] at h
    cases h
  · intro h
    by_cases hne : newMtu = netdev.mtu
    · subst hne
      exact ⟨1, _, requestMtu_same 0⟩
    · by_cases hv : range.Valid newMtu
      · have hop : provides dev.ops .changeMtu = true := by
          rcases h with h | h | h
          · exact h
          · exact absurd h hne
          · exact absurd hv h
        exact ⟨1, _, requestMtu_op hne hv hop 0⟩
      · exact ⟨1, _, requestMtu_invalid hne hv 0⟩

theorem changesMtu_of_op (hne : newMtu ≠ netdev.mtu) (h : range.Valid newMtu)
    (hop : provides dev.ops .changeMtu = true) (hstore : (op netdev newMtu).2.mtu = newMtu) :
    ChangesMtu range dev op netdev newMtu :=
  ⟨1, _, requestMtu_op hne h hop 0, hstore⟩

/-- Without `change_mtu` no request for another MTU in the valid range is ever carried out. -/
theorem default_never_changes_mtu (range : MtuRange) (dev : NvNetDev) (op : ChangeMtuOp)
    (netdev : NetDevice) (newMtu : ℤ) (hop : provides dev.ops .changeMtu = false)
    (hne : newMtu ≠ netdev.mtu) (h : range.Valid newMtu) :
    ¬ Returns range dev op netdev newMtu ∧ ¬ ChangesMtu range dev op netdev newMtu := by
  have hnone : ∀ depth, requestMtu range dev op depth netdev newMtu = none :=
    requestMtu_eq_none hne h hop
  refine ⟨?_, ?_⟩
  · rintro ⟨depth, out, hout⟩
    rw [hnone] at hout
    cases hout
  · rintro ⟨depth, out, hout, -⟩
    rw [hnone] at hout
    cases hout

end Chain

/-! ## The interface of `nv_net_dummy` -/

/-- `dummy_ops`: no `change_mtu`. -/
def dummyOps : Ops
  | .opOpen | .opStop | .startXmit | .getStats64 => true
  | _ => false

/-- The interface as `dummy_init` registers it. -/
def dummyDev : NvNetDev where
  driver := some 0
  index := 0
  name := some "nv%d"
  ops := some dummyOps
  priv := none
  netdev := some 0
  registered := true

def dummyNetdev : NetDevice := ⟨0, .random, ethDataLen, true⟩

/-- What `ether_setup` leaves in `min_mtu` and `max_mtu`. -/
def etherRange : MtuRange := ⟨68, 1500⟩

theorem default_never_changes_mtu_dummy :
    ¬ Returns etherRange dummyDev (fun nd _ => (.ok (), nd)) dummyNetdev 1400 ∧
    ¬ ChangesMtu etherRange dummyDev (fun nd _ => (.ok (), nd)) dummyNetdev 1400 :=
  default_never_changes_mtu etherRange dummyDev (fun nd _ => (.ok (), nd)) dummyNetdev 1400 rfl
    (by decide) (by decide)

/-- `ip link set nv0 mtu 1400` on `nv_net_dummy`. -/
theorem dummy_mtu_request_recurses :
    etherRange.Valid 1400 ∧
    ¬ ChangesMtu etherRange dummyDev (fun nd _ => (.ok (), nd)) dummyNetdev 1400 := by
  refine ⟨by decide, ?_⟩
  rintro ⟨depth, out, hout, -⟩
  rw [requestMtu_eq_none (by decide) (by decide) rfl] at hout
  cases hout

end LinuxDriverFramework.NvNet
