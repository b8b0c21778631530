import LinuxDriverFramework.NvCan.Netdev

/-! # The private area of a CAN `net_device`

`nv_can_netdev_register` asks `alloc_candev` for room for a `struct nv_can_netdev_priv`, while
`nv_can_cpriv` and `nv_can_ndpriv` use the room for a `struct can_priv` followed by that structure.

* `ByteRange`: bytes of the area, counted from `netdev_priv(netdev)`.
* `AllocCandev`: what `alloc_candev` promises about the area.
* `Fits`: both structures stay in the part that was asked for, apart from what lies behind it. -/

namespace LinuxDriverFramework.NvCan.Netdev
open Foundations
set_option autoImplicit false

structure ByteRange where
  start : ℕ
  len : ℕ
  deriving DecidableEq, Repr

namespace ByteRange

def stop (r : ByteRange) : ℕ := r.start + r.len

def Within (r s : ByteRange) : Prop := s.start ≤ r.start ∧ r.stop ≤ s.stop

def Apart (r s : ByteRange) : Prop := r.stop ≤ s.start ∨ s.stop ≤ r.start

instance (r s : ByteRange) : Decidable (r.Within s) := inferInstanceAs (Decidable (_ ∧ _))

instance (r s : ByteRange) : Decidable (r.Apart s) := inferInstanceAs (Decidable (_ ∨ _))

theorem Within.apart {r s t : ByteRange} (h : r.Within s) (hst : s.stop ≤ t.start) : r.Apart t :=
  .inl (h.2.trans hst)

end ByteRange

/-! ## The layout -/

def align (n a : ℕ) : ℕ := (n + a - 1) / a * a

def netdevAlign : ℕ := 32

/-- `sizeof(struct sk_buff *)`. -/
def sizeofSkbPtr : ℕ := 8

structure Layout where
  driverPriv : ByteRange
  canMlPriv : ByteRange
  echoSkb : ByteRange

/-- The driver's part comes first, then `struct can_ml_priv`, then the array of `echo_skb`. -/
structure AllocCandev (sz : Sizes) where
  layout : (sizeofPriv echoSkbMax : ℕ) → Layout
  driverPriv_eq : ∀ s e, (layout s e).driverPriv = ⟨0, align s netdevAlign⟩
  canMlPriv_len : ∀ s e, (layout s e).canMlPriv.len = sz.canMlPriv
  canMlPriv_after : ∀ s e, (layout s e).driverPriv.stop ≤ (layout s e).canMlPriv.start
  echoSkb_len : ∀ s e, (layout s e).echoSkb.len = e * sizeofSkbPtr
  echoSkb_after : ∀ s e, (layout s e).canMlPriv.stop ≤ (layout s e).echoSkb.start

theorem le_align (n a : ℕ) (ha : 0 < a) : n ≤ align n a := by
  have hmod := Nat.mod_lt (n + a - 1) ha
  have hdiv := Nat.div_add_mod (n + a - 1) a
  rw [Nat.mul_comm] at hdiv
  unfold align
  omega

/-- The parts without gaps other than the alignment. -/
def packed (sz : Sizes) : AllocCandev sz where
  layout s e :=
    { driverPriv := ⟨0, align s netdevAlign⟩
      canMlPriv := ⟨align s netdevAlign, sz.canMlPriv⟩
      echoSkb := ⟨align (align s netdevAlign + sz.canMlPriv) sizeofSkbPtr, e * sizeofSkbPtr⟩ }
  driverPriv_eq _ _ := rfl
  canMlPriv_len _ _ := rfl
  canMlPriv_after _ _ := by simp [ByteRange.stop]
  echoSkb_len _ _ := rfl
  echoSkb_after _ _ := le_align _ _ (by decide)

def cpriv (sz : Sizes) : ByteRange := ⟨0, sz.canPriv⟩

def ndpriv (sz : Sizes) : ByteRange := ⟨sz.canPriv, sz.nvCanNetdevPriv⟩

structure Fits (sz : Sizes) (l : Layout) : Prop where
  cpriv_within : (cpriv sz).Within l.driverPriv
  ndpriv_within : (ndpriv sz).Within l.driverPriv
  cpriv_apart : (cpriv sz).Apart l.canMlPriv ∧ (cpriv sz).Apart l.echoSkb
  ndpriv_apart : (ndpriv sz).Apart l.canMlPriv ∧ (ndpriv sz).Apart l.echoSkb

theorem fits_iff_within {sz : Sizes} (alloc : AllocCandev sz) (s e : ℕ) :
    Fits sz (alloc.layout s e) ↔ sz.canPriv + sz.nvCanNetdevPriv ≤ align s netdevAlign := by
  have hdriver := alloc.driverPriv_eq s e
  have hml := alloc.canMlPriv_after s e
  have hecho : (alloc.layout s e).driverPriv.stop ≤ (alloc.layout s e).echoSkb.start :=
    calc (alloc.layout s e).driverPriv.stop
        ≤ (alloc.layout s e).canMlPriv.start := hml
      _ ≤ (alloc.layout s e).canMlPriv.stop := Nat.le_add_right _ _
      _ ≤ (alloc.layout s e).echoSkb.start := alloc.echoSkb_after s e
  constructor
  · intro h
    have hwithin := h.ndpriv_within.2
    rw [hdriver] at hwithin
    simpa [ByteRange.stop, ndpriv] using hwithin
  · intro h
    have hc : (cpriv sz).Within (alloc.layout s e).driverPriv := by
      rw [hdriver]
      refine ⟨le_rfl, ?_⟩
      simp only [ByteRange.stop, cpriv]
      omega
    have hn : (ndpriv sz).Within (alloc.layout s e).driverPriv := by
      rw [hdriver]
      refine ⟨Nat.zero_le _, ?_⟩
      simp only [ByteRange.stop, ndpriv]
      omega
    exact ⟨hc, hn, ⟨hc.apart hml, hc.apart hecho⟩, ⟨hn.apart hml, hn.apart hecho⟩⟩

/-- Where the parts are packed, what does not fit reaches into `struct can_ml_priv`. -/
theorem overlaps_canMlPriv {sz : Sizes} (hml : 0 < sz.canMlPriv) (s e : ℕ)
    (h : ¬ sz.canPriv + sz.nvCanNetdevPriv ≤ align s netdevAlign) :
    ¬ ((cpriv sz).Apart ((packed sz).layout s e).canMlPriv ∧
      (ndpriv sz).Apart ((packed sz).layout s e).canMlPriv) := by
  rintro ⟨hc, hn⟩
  simp only [ByteRange.Apart, ByteRange.stop, cpriv, ndpriv, packed] at hc hn
  omega

/-! ## The area that `nv_can_netdev_register` asks for -/

theorem request_of_registerChecked {sz : Sizes} {w : World} {x : ℕ} {ifname : String} {a : Args}
    {o : Outcomes} {n s e : ℕ}
    (h : .allocCandev n s e ∈ (netdevRegisterChecked sz w x ifname a o).1.calls) :
    .allocCandev n s e ∈ w.calls ∨ s = sz.nvCanNetdevPriv := by
  cases halloc : o.allocCandev with
  | false => exact .inl (by simpa [netdevRegisterChecked, halloc] using h)
  | true =>
    have hcons : KCall.allocCandev n s e = .allocCandev w.nextNetdev sz.nvCanNetdevPriv a.echoSkbMax ∨
        .allocCandev n s e ∈ w.calls := by
      cases hreg : o.registerCandev with
      | some err => simpa [netdevRegisterChecked, halloc, hreg, Args.netDevice] using h
      | none => simpa [netdevRegisterChecked, halloc, hreg, Args.netDevice] using h
    rcases hcons with hnew | hold
    · exact .inr (KCall.allocCandev.inj hnew).2.1
    · exact .inl hold

/-- A call makes no request but for a `struct nv_can_netdev_priv`. -/
theorem request_of_step {sz : Sizes} {w w' : World} {c : Call} (hs : step sz w c = some w')
    {n s e : ℕ} (h : .allocCandev n s e ∈ w'.calls) :
    .allocCandev n s e ∈ w.calls ∨ s = sz.nvCanNetdevPriv := by
  obtain rfl : (exec sz w c).1 = w' := Option.some.inj hs
  cases c with
  | register a o =>
    simp only [exec, netdevRegister] at h
    split at h
    · split at h
      · exact .inl h
      · split at h
        · exact .inl h
        · exact request_of_registerChecked h
    · exact .inl h
  | unregister dev =>
    simp only [exec, netdevUnregister] at h
    split at h
    · exact .inl h
    · split at h
      · split at h
        · exact .inl h
        · exact .inl (by simpa using h)
      · exact .inl h

theorem request_size {sz : Sizes} {w : World} (hw : Reachable (step sz) init w) {n s e : ℕ}
    (h : .allocCandev n s e ∈ w.calls) : s = sz.nvCanNetdevPriv := by
  refine run_invariant (I := fun w => ∀ n s e, KCall.allocCandev n s e ∈ w.calls →
    s = sz.nvCanNetdevPriv) (fun w c w' hi hs n s e h => ?_) ?_ hw n s e h
  · rcases request_of_step hs h with hold | hnew
    · exact hi n s e hold
    · exact hnew
  · exact fun n s e h => absurd h List.not_mem_nil

/-- Both structures are inside the part that was asked for exactly when the room for the second
one, rounded up, is enough for both. -/
theorem private_structs_fit_iff (sz : Sizes) (alloc : AllocCandev sz) (w : World)
    (hw : Reachable (step sz) init w) (n s e : ℕ) (h : .allocCandev n s e ∈ w.calls) :
    Fits sz (alloc.layout s e) ↔
      sz.canPriv + sz.nvCanNetdevPriv ≤ align sz.nvCanNetdevPriv netdevAlign := by
  rw [request_size hw h]
  exact fits_iff_within alloc sz.nvCanNetdevPriv e

/-! ## One interface -/

def interfaceCall : Call :=
  .register
    { dev := some 0
      ifname := some "nvcan0"
      ops := some fun _ => true
      priv := none
      btc := none
      echoSkbMax := 4 }
    { allocCandev := true, registerCandev := none }

/-- Small structures would fit. -/
theorem private_structs_fit_small :
    Fits ⟨16, 200, 8⟩ ((packed ⟨16, 200, 8⟩).layout 8 4) :=
  (private_structs_fit_iff ⟨16, 200, 8⟩ (packed _) _ ⟨[interfaceCall], rfl⟩ 0 8 4
    (by decide)).mpr (by decide)

/-- With a `struct can_priv` of 448 bytes the request is for 32, and the pointer to the
`nv_can_dev` is stored 184 bytes behind the end of the whole area. -/
theorem private_structs_do_not_fit :
    ∃ w, Foundations.run (step ⟨448, 200, 8⟩) init [interfaceCall] = some w ∧
      .allocCandev 0 8 4 ∈ w.calls ∧
      ¬ Fits ⟨448, 200, 8⟩ ((packed ⟨448, 200, 8⟩).layout 8 4) ∧
      ¬ (cpriv ⟨448, 200, 8⟩).Apart ((packed ⟨448, 200, 8⟩).layout 8 4).canMlPriv ∧
      ((packed ⟨448, 200, 8⟩).layout 8 4).echoSkb.stop + 184 = (ndpriv ⟨448, 200, 8⟩).start := by
  refine ⟨_, rfl, by decide, fun h => ?_, by decide, by decide⟩
  exact absurd h.cpriv_within (by decide)

end LinuxDriverFramework.NvCan.Netdev
