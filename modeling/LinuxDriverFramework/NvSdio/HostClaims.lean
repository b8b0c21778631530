import LinuxDriverFramework.NvSdio.Threads

/-! # Who holds the host

* `Protected`: every bus operation is done by a thread that holds the host.
* `never_claimed`: no entry point claims the host, so no operation is done by a holder.
* `protected_iff`: runs are protected as long as no probe comes to `sdio_enable_func`. -/

namespace LinuxDriverFramework.NvSdio
open Foundations
set_option autoImplicit false

/-! ## The claim on the host -/

/-- Bus operations are done by the holder, there is one holder at most, and no thread that is out
of the driver holds the host. -/
structure Protected (w : World) : Prop where
  held : ∀ a ∈ w.accesses, a.held = true
  exclusive : ∀ t t', w.holds t = true → w.holds t' = true → t = t'
  released : ∀ t, w.threads t = none → w.holds t = false

/-- The call that a thread makes at its next turn. -/
def World.nextCall (w : World) (t : ℕ) : Option Call :=
  match w.threads t with
  | some ⟨_, .call c _⟩ => some c
  | _ => none

/-- The event is no turn of a thread that has come to `sdio_enable_func`. -/
def NoEnable (w : World) : Event → Prop
  | .turn t _ => w.nextCall t ≠ some (.bus .enableFunc)
  | _ => True

/-! ## No entry point claims the host -/

def Call.NoClaim : Call → Prop
  | .claimHost => False
  | .releaseHost => False
  | _ => True

section Code

open Program

theorem uses_withFunc {α : Type} (dev : Bool) (otherwise : α) {body : Code α}
    (h : body.Uses Call.NoClaim) : (withFunc dev otherwise body).Uses Call.NoClaim := by
  cases dev with
  | false => exact uses_pure otherwise
  | true =>
    apply uses_bind (uses_request trivial)
    intro d
    show (if d.func then body else pure otherwise).Uses Call.NoClaim
    cases d.func with
    | false => exact uses_pure otherwise
    | true => exact h

theorem uses_update (f : Data → Data) : (call (.update f)).Uses Call.NoClaim :=
  uses_request trivial

theorem uses_bus (op : BusOp) : (call (.bus op)).Uses Call.NoClaim := uses_request trivial

theorem uses_busOp (op : BusOp) : (busOp op).Uses Call.NoClaim :=
  uses_bind (uses_bus op) fun _ => uses_pure _

theorem uses_setBlockSize (dev : Bool) : (setBlockSize dev demoBlksz).Uses Call.NoClaim := by
  apply uses_withFunc
  apply uses_bind (uses_busOp _)
  intro r
  cases r with
  | error e => exact uses_pure _
  | ok _ => exact uses_bind (uses_request trivial) fun _ => uses_pure _

theorem uses_demoProbeFails (dev : Bool) (e : Errno) :
    (demoProbeFails dev e).Uses Call.NoClaim :=
  uses_bind (uses_withFunc _ _ (uses_busOp _)) fun _ => uses_pure _

theorem uses_demoProbe (dev : Bool) : (demoProbe dev).Uses Call.NoClaim := by
  apply uses_bind (uses_withFunc _ _ (uses_busOp _))
  intro r
  cases r with
  | error e => exact uses_pure _
  | ok _ =>
    apply uses_bind (uses_setBlockSize dev)
    intro r
    cases r with
    | error e => exact uses_demoProbeFails dev e
    | ok _ =>
      apply uses_bind (uses_request trivial)
      intro allocated
      cases allocated with
      | false => exact uses_demoProbeFails dev .ENOMEM
      | true =>
        apply uses_bind (uses_request trivial)
        intro _
        apply uses_bind (uses_request trivial)
        intro r
        cases r with
        | error e => exact uses_demoProbeFails dev e
        | ok _ => exact uses_bind (uses_withFunc _ _ (uses_busOp _)) fun _ => uses_pure _

theorem uses_devFromFunc : devFromFunc.Uses Call.NoClaim :=
  uses_bind (uses_request trivial) fun _ => uses_pure _

theorem uses_demoPriv (sdev : Bool) : (demoPriv sdev).Uses Call.NoClaim := by
  cases sdev with
  | false => exact uses_pure _
  | true => exact uses_bind (uses_request trivial) fun _ => uses_pure _

theorem uses_busProbe (curBlksize : ℕ) : (busProbe curBlksize).Uses Call.NoClaim := by
  apply uses_map
  apply uses_bind (uses_request trivial)
  intro allocated
  cases allocated with
  | false => exact uses_pure _
  | true =>
    apply uses_bind (uses_request trivial)
    intro _
    apply uses_bind (uses_request trivial)
    intro _
    apply uses_bind (uses_demoProbe true)
    intro r
    cases r with
    | error e => exact uses_bind (uses_request trivial) fun _ => uses_pure _
    | ok _ => exact uses_pure _

theorem uses_busRemove : busRemove.Uses Call.NoClaim := by
  apply uses_map
  apply uses_bind uses_devFromFunc
  intro dev
  cases dev with
  | false => exact uses_pure _
  | true =>
    have hremove : (demoRemove true).Uses Call.NoClaim :=
      uses_bind (uses_withFunc _ _ (uses_busOp _)) fun _ => uses_update _
    exact uses_bind hremove fun _ => uses_update _

theorem uses_demoShow : demoShow.Uses Call.NoClaim := by
  apply uses_map
  apply uses_bind uses_devFromFunc
  intro sdev
  apply uses_bind (uses_demoPriv sdev)
  intro priv
  cases priv with
  | false => exact uses_pure _
  | true =>
    apply uses_bind (uses_withFunc _ _ (uses_bus _))
    intro r
    cases r with
    | error e => exact uses_pure _
    | ok val =>
      apply uses_bind (uses_request trivial)
      intro _
      exact uses_bind (uses_request trivial) fun _ => uses_pure _

theorem uses_demoStore (parsed : Except Errno ℕ) (count : ℕ) :
    (demoStore parsed count).Uses Call.NoClaim := by
  apply uses_map
  apply uses_bind uses_devFromFunc
  intro sdev
  apply uses_bind (uses_demoPriv sdev)
  intro priv
  cases priv with
  | false => exact uses_pure _
  | true =>
    cases parsed with
    | error e => exact uses_pure _
    | ok val =>
      show (if 0xff < val then _ else _ : Code (Except Errno ℕ)).Uses Call.NoClaim
      by_cases hval : 0xff < val
      · rw [if_pos hval]
        exact uses_pure _
      · rw [if_neg hval]
        apply uses_bind (uses_withFunc _ _ (uses_busOp _))
        intro r
        cases r with
        | error e => exact uses_pure _
        | ok _ => exact uses_bind (uses_request trivial) fun _ => uses_pure _

end Code
/-! ## Every operation is done by a thread without a claim -/

structure Unclaimed (w : World) : Prop where
  holder : w.holder = none
  accesses : ∀ a ∈ w.accesses, a.held = false
  codes : w.Codes fun code => code.Uses Call.NoClaim

theorem makeCall_unclaimed {w : World} {t f : ℕ} {o : Outcome} {c : Call}
    {r : World × c.Answer} (hw : Unclaimed w) (hc : c.NoClaim)
    (h : makeCall w t f o c = some r) :
    r.1.holder = none ∧ ∀ a ∈ r.1.accesses, a.held = false := by
  cases c with
  | claimHost | releaseHost => exact hc.elim
  | bus op =>
    obtain rfl := Option.some.inj h
    have hheld : w.holds t = false := by
      rw [World.holds, hw.holder]
    refine ⟨hw.holder, ?_⟩
    intro a ha
    rcases List.mem_cons.mp ha with rfl | ha
    · exact hheld
    · exact hw.accesses a ha
  | addGroup =>
    obtain rfl := Option.some.inj h
    show (if o.err.isNone then _ else w : World).holder = none ∧
      ∀ a ∈ (if o.err.isNone then _ else w : World).accesses, a.held = false
    split <;> exact ⟨hw.holder, hw.accesses⟩
  | kzalloc | load | update g =>
    obtain rfl := Option.some.inj h
    exact ⟨hw.holder, hw.accesses⟩

theorem uses_entry {F : Func} {code : Code Reply} (h : MayEnter F code) :
    code.Uses Call.NoClaim := by
  cases h with
  | probe curBlksize _ => exact uses_busProbe curBlksize
  | remove _ => exact uses_busRemove
  | regShow _ => exact uses_demoShow
  | regStore _ parsed count => exact uses_demoStore parsed count

theorem unclaimed_step {w w' : World} {e : Event} (hw : Unclaimed w) (h : step w e = some w') :
    Unclaimed w' := by
  cases step_cases h with
  | enter t f g code hcode hbus hgroup =>
    refine ⟨hw.holder, hw.accesses, codes_update hw.codes rfl ?_⟩
    rintro x ⟨⟩
    exact uses_entry hcode
  | turn t f o c next hthread r hcall =>
    have huses := hw.codes t _ hthread
    obtain ⟨hholder, haccesses⟩ := makeCall_unclaimed hw huses.head hcall
    refine ⟨hholder, haccesses, codes_update hw.codes (makeCall_threads hcall _) ?_⟩
    rintro x ⟨⟩
    exact huses.next r.2
  | exit t f r hthread _ hleave =>
    obtain ⟨hthreads, hholder, haccesses⟩ := leave_eq_some hleave
    refine ⟨hholder.trans hw.holder, ?_, codes_update hw.codes hthreads fun x hx => ?_⟩
    · rw [haccesses]
      exact hw.accesses
    · cases hx

/-- In no run does a thread hold the host, and every bus operation is done without it. -/
theorem never_claimed {w : World} (h : Reachable step World.initial w) :
    w.holder = none ∧ ∀ a ∈ w.accesses, a.held = false := by
  have hfirst : Unclaimed World.initial :=
    ⟨rfl, fun a ha => (by cases ha), fun t th hth => (by cases hth)⟩
  have hw := run_invariant (fun _ _ _ hw hstep => unclaimed_step hw hstep) hfirst h
  exact ⟨hw.holder, hw.accesses⟩

/-! ## Until a probe comes to `sdio_enable_func` -/

/-- Calls that use neither the bus nor the host and leave the sysfs group alone. -/
def Call.Local : Call → Prop
  | .kzalloc => True
  | .load => True
  | .update _ => True
  | _ => False

def Call.IsEnable (c : Call) : Prop := c = .bus .enableFunc

def Reply.FailedProbe : Reply → Prop
  | .probed (.error _) => True
  | _ => False

/-- The code is at a probe that has not come to `sdio_enable_func`. -/
def BeforeEnable (code : Code Reply) : Prop :=
  code.Until Call.Local Call.IsEnable Reply.FailedProbe

/-- Nothing is bound and there is no sysfs group. -/
def World.Unbound (w : World) : Prop :=
  ∀ f, (w.funcs f).bus ≠ .bound ∧ (w.funcs f).group = false

structure Quiet (w : World) : Prop where
  holder : w.holder = none
  accesses : w.accesses = []
  unbound : w.Unbound
  codes : w.Codes BeforeEnable

theorem unbound_setFunc {w : World} (h : w.Unbound) (f : ℕ) (g : Func → Func)
    (hg : (g (w.funcs f)).bus ≠ .bound ∧ (g (w.funcs f)).group = false) :
    (w.setFunc f g).Unbound := by
  apply (Function.forall_update_iff w.funcs fun _ F => F.bus ≠ .bound ∧ F.group = false).mpr
  exact ⟨hg, fun f' _ => h f'⟩

theorem busProbe_beforeEnable (curBlksize : ℕ) : BeforeEnable (busProbe curBlksize) := by
  refine .inr ⟨trivial, fun allocated => ?_⟩
  cases allocated with
  | false => exact trivial
  | true =>
    -- the two updates, then the check of `nv_sdio_enable_func`
    refine .inr ⟨trivial, fun _ => .inr ⟨trivial, fun _ => .inr ⟨trivial, fun d => ?_⟩⟩⟩
    obtain ⟨drvdata, func, blockSize, priv, reg⟩ := d
    cases func with
    | false => exact .inr ⟨trivial, fun _ => trivial⟩
    | true => exact .inl rfl

theorem quiet_initial : Quiet World.initial where
  holder := rfl
  accesses := rfl
  unbound := fun _ => ⟨BusState.noConfusion, rfl⟩
  codes := fun _ _ hth => (by cases hth)

theorem makeCall_quiet {w : World} {t f : ℕ} {o : Outcome} {c : Call} {r : World × c.Answer}
    (hw : Quiet w) (hc : c.Local) (h : makeCall w t f o c = some r) :
    r.1.holder = none ∧ r.1.accesses = [] ∧ r.1.Unbound := by
  cases c with
  | claimHost | releaseHost | bus _ | addGroup => exact hc.elim
  | kzalloc | load =>
    obtain rfl := Option.some.inj h
    exact ⟨hw.holder, hw.accesses, hw.unbound⟩
  | update g =>
    obtain rfl := Option.some.inj h
    have hunbound := unbound_setFunc hw.unbound f (fun F => { F with data := g F.data }) (hw.unbound f)
    exact ⟨hw.holder, hw.accesses, hunbound⟩

theorem quiet_step {w w' : World} {e : Event} (hw : Quiet w) (hguard : NoEnable w e)
    (h : step w e = some w') : Quiet w' := by
  cases step_cases h with
  | enter t f g code hcode hbus hgroup =>
    have hg : (g (w.funcs f)).bus ≠ .bound ∧ (g (w.funcs f)).group = false := by
      refine ⟨hbus.resolve_right ?_, hgroup.trans (hw.unbound f).2⟩
      rw [(hw.unbound f).2]
      exact Bool.false_ne_true
    refine ⟨hw.holder, hw.accesses, unbound_setFunc hw.unbound f g hg, codes_update hw.codes rfl ?_⟩
    rintro x ⟨⟩
    cases hcode with
    | probe curBlksize _ => exact busProbe_beforeEnable curBlksize
    | remove hbound => exact absurd hbound (hw.unbound f).1
    | regShow hthere | regStore hthere =>
      rw [(hw.unbound f).2] at hthere
      cases hthere
  | turn t f o c next hthread r hcall =>
    have hcode : BeforeEnable (.call c next) := hw.codes t _ hthread
    have hnext : w.nextCall t = some c := by
      rw [World.nextCall, hthread]
    have hne : ¬ c.IsEnable := by
      intro hc
      exact hguard (hnext.trans (congrArg some hc))
    obtain ⟨hlocal, hrest⟩ := hcode.resolve_left hne
    obtain ⟨hholder, haccesses, hunbound⟩ := makeCall_quiet hw hlocal hcall
    refine ⟨hholder, haccesses, hunbound, codes_update hw.codes (makeCall_threads hcall _) ?_⟩
    rintro x ⟨⟩
    exact hrest r.2
  | exit t f r hthread _ hleave =>
    have hfailed : r.FailedProbe := hw.codes t _ hthread
    obtain ⟨hthreads, hholder, haccesses⟩ := leave_eq_some hleave
    refine ⟨hholder.trans hw.holder, haccesses.trans hw.accesses, ?_,
      codes_update hw.codes hthreads fun x hx => (by cases hx)⟩
    cases r with
    | probed ret =>
      cases ret with
      | ok u => exact hfailed.elim
      | error e =>
        simp only [leave, Option.ite_none_right_eq_some] at hleave
        obtain rfl := Option.some.inj hleave.2
        have hunbound : (w.setThread t none).Unbound := hw.unbound
        apply unbound_setFunc hunbound
        exact ⟨BusState.noConfusion, rfl⟩
    | removed | shown text | stored count => exact hfailed.elim

theorem quiet_protected {w : World} (hw : Quiet w) : Protected w := by
  have hfree : ∀ t, w.holds t = false := by
    intro t
    rw [World.holds, hw.holder]
  constructor
  case held =>
    intro a ha
    rw [hw.accesses] at ha
    cases ha
  case exclusive =>
    intro t t' ht
    rw [hfree t] at ht
    cases ht
  case released => exact fun t _ => hfree t

theorem enable_unprotected {w : World} {e : Event} (hw : Quiet w) (h : ¬ NoEnable w e) :
    ∃ w', step w e = some w' ∧ ¬ Protected w' := by
  cases e with
  | turn t o =>
    have hnext : w.nextCall t = some (.bus .enableFunc) := not_not.mp h
    cases hthread : w.threads t with
    | none =>
      rw [World.nextCall, hthread] at hnext
      cases hnext
    | some th =>
      obtain ⟨f, code⟩ := th
      cases code with
      | done r =>
        rw [World.nextCall, hthread] at hnext
        cases hnext
      | call c next =>
        rw [World.nextCall, hthread] at hnext
        obtain rfl : c = .bus .enableFunc := Option.some.inj hnext
        let w' : World := { w with accesses := ⟨t, .enableFunc, w.holds t⟩ :: w.accesses }
        have hstep : step w (.turn t o) = some (w'.setThread t (some ⟨f, next (o.ret o.val)⟩)) := by
          rw [step, hthread]
          rfl
        refine ⟨_, hstep, fun hw' => ?_⟩
        have hheld : w.holds t = true := hw'.held ⟨t, .enableFunc, w.holds t⟩ List.mem_cons_self
        rw [World.holds, hw.holder] at hheld
        cases hheld
  | probe _ _ _ | remove _ _ | regShow _ _ | regStore _ _ _ _ | exit _ => exact absurd trivial h

/-- The states of a run are protected exactly as long as no probe comes to `sdio_enable_func`. -/
theorem protected_iff (es : List Event) :
    Throughout step Protected World.initial es ↔ Along step NoEnable World.initial es :=
  throughout_iff_along (fun _ => quiet_protected)
    (fun _ _ _ hw _ hguard hstep => quiet_step hw hguard hstep)
    (fun _ _ hw _ hguard => enable_unprotected hw hguard) es World.initial quiet_initial
    (along_true es World.initial)

/-- A probe whose memory is there enables the function without the host. -/
theorem probe_enables_unclaimed :
    ∃ w, run step World.initial
        [.probe 0 0 512, .turn 0 ⟨none, 0⟩, .turn 0 ⟨none, 0⟩, .turn 0 ⟨none, 0⟩,
          .turn 0 ⟨none, 0⟩, .turn 0 ⟨none, 0⟩] = some w ∧
      w.accesses = [⟨0, .enableFunc, false⟩] ∧ ¬ Protected w := by
  refine ⟨_, rfl, rfl, fun hw => ?_⟩
  cases hw.held ⟨0, .enableFunc, false⟩ (List.mem_singleton_self _)

end LinuxDriverFramework.NvSdio
