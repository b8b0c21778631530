import LinuxDriverFramework.NvChar.MessageDevices

/-! # Flat and scattered calls on the message devices

`nv_char_read_iter` and `nv_char_write_iter` hand their bounce buffer to callbacks that copy to and
from user memory. `UserOnly` is what such a callback does: it works on a user buffer and fails on
a kernel one. So the scattered call agrees with the flat one just where the callback copies
nothing: `iter_agrees_iff`. -/

namespace LinuxDriverFramework.NvChar.Io
open Foundations
set_option autoImplicit false

variable {σ : Type}

/-- A scattered read of the segments and a flat read of as many bytes have the same effect. -/
structure ReadAgrees (removing : Bool) (ops : Option (DevOps σ)) (junk : ℕ → UInt8) (s : σ)
    (segs : List (List UInt8)) (pos : ℤ) : Prop where
  ret : (readIter removing ops (some junk) s (.user segs) pos).ret =
    (read removing ops s (.user segs.flatten) segs.flatten.length pos).ret
  bytes : (readIter removing ops (some junk) s (.user segs) pos).iter.data =
    (read removing ops s (.user segs.flatten) segs.flatten.length pos).mem.bytes
  pos : (readIter removing ops (some junk) s (.user segs) pos).pos =
    (read removing ops s (.user segs.flatten) segs.flatten.length pos).pos

/-- A scattered write of the segments and a flat write of their bytes have the same effect. -/
structure WriteAgrees (removing : Bool) (ops : Option (DevOps σ)) (junk : ℕ → UInt8) (s : σ)
    (segs : List (List UInt8)) (pos : ℤ) : Prop where
  ret : (writeIter removing ops (some junk) s (.user segs) pos).ret =
    (write removing ops s (.user segs.flatten) segs.flatten.length pos).ret
  state : (writeIter removing ops (some junk) s (.user segs) pos).state =
    (write removing ops s (.user segs.flatten) segs.flatten.length pos).state
  pos : (writeIter removing ops (some junk) s (.user segs) pos).pos =
    (write removing ops s (.user segs.flatten) segs.flatten.length pos).pos

/-! ## Two kinds of callback calls -/

/-- The call copies nothing, whatever buffer it gets. -/
def Idle (cb : RwCallback σ) (s : σ) (pos : ℤ) : Prop :=
  ∃ r : Except Errno ℕ, (∀ n, r = .ok n → n = 0) ∧
    ∀ buf count, cb s buf count pos = ⟨r, s, buf, pos⟩

/-- The call copies: it succeeds on user memory and fails on kernel memory. -/
structure UserOnly (cb : RwCallback σ) (s : σ) (pos : ℤ) : Prop where
  user : ∀ bytes count, 0 < count → count ≤ bytes.length →
    ∃ n, (cb s (.user bytes) count pos).ret = .ok n
  kernel : ∀ buf count, buf.space = .kernel → 0 < count → (cb s buf count pos).ret = .error .EFAULT

variable {ops : Option (DevOps σ)} {junk : ℕ → UInt8} {s : σ} {segs : List (List UInt8)} {pos : ℤ}

theorem readAgrees_removing : ReadAgrees true ops junk s segs pos := ⟨rfl, rfl, rfl⟩

theorem writeAgrees_removing : WriteAgrees true ops junk s segs pos := ⟨rfl, rfl, rfl⟩

section Read

variable {cb : RwCallback σ} (hiter : ops.bind (·.readIter) = none)
  (hread : ops.bind (·.read) = some cb) (hn : 0 < segs.flatten.length)
include hiter hread hn

theorem readIter_eq_bounced : readIter false ops (some junk) s (.user segs) pos =
    readBounced cb junk s (.user segs) pos := by
  have hz : ¬ (Iter.user segs).count = 0 := Nat.pos_iff_ne_zero.mp hn
  simp [readIter, scattered, hiter, hread, hz]

theorem readAgrees_of_idle (h : Idle cb s pos) : ReadAgrees false ops junk s segs pos := by
  obtain ⟨r, hr, hcb⟩ := h
  have hflat : read false ops s (.user segs.flatten) segs.flatten.length pos =
      ⟨r, s, .user segs.flatten, pos⟩ := by
    simp [read, flat, hread, hcb]
  have hbounced : readBounced cb junk s (.user segs) pos = ⟨r, s, .user segs, pos⟩ := by
    simp only [readBounced, hcb]
    cases r with
    | error e => rfl
    | ok n =>
      obtain rfl := hr n rfl
      rfl
  have hscattered : readIter false ops (some junk) s (.user segs) pos = ⟨r, s, .user segs, pos⟩ :=
    (readIter_eq_bounced hiter hread hn).trans hbounced
  refine ⟨?_, ?_, ?_⟩
  · rw [hscattered, hflat]
  · rw [hscattered, hflat]
    rfl
  · rw [hscattered, hflat]

theorem not_readAgrees_of_userOnly (h : UserOnly cb s pos) :
    ¬ ReadAgrees false ops junk s segs pos := by
  intro ha
  have hkernel := h.kernel (.bounce junk (Iter.user segs).count) (Iter.user segs).count rfl hn
  obtain ⟨n, huser⟩ := h.user segs.flatten segs.flatten.length hn le_rfl
  have hflat : (read false ops s (.user segs.flatten) segs.flatten.length pos).ret = .ok n := by
    simp only [read, flat, hread]
    exact huser
  have hret := ha.ret
  rw [readIter_eq_bounced hiter hread hn, hflat] at hret
  simp [readBounced, hkernel] at hret

end Read

theorem not_writeAgrees_of_userOnly {cb : RwCallback σ} (hiter : ops.bind (·.writeIter) = none)
    (hwrite : ops.bind (·.write) = some cb) (hn : 0 < segs.flatten.length)
    (h : UserOnly cb s pos) : ¬ WriteAgrees false ops junk s segs pos := by
  intro ha
  have hz : ¬ (Iter.user segs).count = 0 := Nat.pos_iff_ne_zero.mp hn
  have hmoved : (copyFromIter (Iter.user segs).count (.user segs)).length = (Iter.user segs).count := by
    simp [copyFromIter, Iter.user, Iter.count, Iter.data]
  let kbuf := Mem.bounce junk (Iter.user segs).count
  have hkernel := h.kernel { kbuf with
    bytes := overlay (copyFromIter (Iter.user segs).count (.user segs)) kbuf.bytes }
    (Iter.user segs).count rfl hn
  obtain ⟨n, huser⟩ := h.user segs.flatten segs.flatten.length hn le_rfl
  have hflat : (write false ops s (.user segs.flatten) segs.flatten.length pos).ret = .ok n := by
    simp only [write, flat, hwrite]
    exact huser
  have hbounced : (writeIter false ops (some junk) s (.user segs) pos).ret = .error .EFAULT := by
    simp only [writeIter, scattered, hiter, hwrite, Bool.false_eq_true, if_false, if_neg hz,
      writeBounced, hmoved]
    exact hkernel
  have hret := ha.ret
  rw [hbounced, hflat] at hret
  cases hret

/-! ## The callbacks of the message devices -/

theorem length_requested {cap : ℕ} (p : MsgPriv cap) (start count : ℕ) :
    ((p.buf.drop start).take (min count (p.len - start))).length = min count (p.len - start) := by
  have hb := p.bound
  rw [List.length_take, List.length_drop, p.size]
  omega

theorem storedRead_idle {cap : ℕ} (p : MsgPriv cap) {pos : ℤ}
    (h : (decide (pos < 0) || decide (p.len ≤ asSize pos)) = true) :
    Idle storedRead (some p) pos := by
  by_cases hneg : pos < 0
  · exact ⟨.error .EINVAL, (fun _ h => by cases h), fun _ _ => by simp [storedRead, hneg]⟩
  · have hle : p.len ≤ asSize pos := by simpa [hneg] using h
    exact ⟨.ok 0, (fun _ h => (Except.ok.inj h).symm), fun _ _ => by simp [storedRead, hneg, hle]⟩

theorem storedRead_userOnly {cap : ℕ} (p : MsgPriv cap) {pos : ℤ}
    (h : (decide (pos < 0) || decide (p.len ≤ asSize pos)) = false) :
    UserOnly storedRead (some p) pos := by
  simp only [Bool.or_eq_false_iff, decide_eq_false_iff_not] at h
  obtain ⟨hneg, hle⟩ := h
  refine ⟨fun bytes count _ hb => ⟨min count (p.len - asSize pos), ?_⟩,
    fun buf count hk hc => ?_⟩
  · have hlen := length_requested p (asSize pos) count
    have hfit := copyToUser_user bytes (hlen.trans_le ((min_le_left _ _).trans hb))
    simp [storedRead, hneg, hle, hfit]
  · have hlen := length_requested p (asSize pos) count
    have hpos : min count (p.len - asSize pos) ≠ 0 := by omega
    simp only [storedRead, if_neg hneg, if_neg hle, copyToUser_kernel hk, hlen, ne_eq, hpos,
      not_false_eq_true, if_true]

theorem storedWrite_userOnly {cap : ℕ} (hcap : 0 < cap) (p : MsgPriv cap) (pos : ℤ) :
    UserOnly storedWrite (some p) pos := by
  refine ⟨fun bytes count _ hb => ⟨min count cap, ?_⟩, fun buf count hk hc => ?_⟩
  · have hfit := copyFromUser_user bytes ((min_le_left count cap).trans hb)
    simp [storedWrite, hfit]
  · have hpos : min count cap ≠ 0 := by omega
    simp [storedWrite, copyFromUser_kernel hk, hpos]

theorem demoRead_idle (p : DemoPriv) {pos : ℤ}
    (h : (!p.dataReady || p.len == 0 || decide (p.len ≤ asSize pos)) = true) :
    Idle demoRead (some p) pos := by
  refine ⟨.ok 0, (fun _ h => (Except.ok.inj h).symm), fun buf count => ?_⟩
  simp only [demoRead]
  split
  · rfl
  · rename_i hready
    have hle : p.len ≤ asSize pos := by simpa [hready] using h
    rw [if_pos hle]

theorem demoRead_userOnly (p : DemoPriv) {pos : ℤ}
    (h : (!p.dataReady || p.len == 0 || decide (p.len ≤ asSize pos)) = false) :
    UserOnly demoRead (some p) pos := by
  rw [Bool.or_eq_false_iff, decide_eq_false_iff_not] at h
  obtain ⟨hready, hle⟩ := h
  refine ⟨fun bytes count _ hb => ⟨min count (p.len - asSize pos), ?_⟩,
    fun buf count hk hc => ?_⟩
  · have hlen := length_requested p.toMsgPriv (asSize pos) count
    have hfit := copyToUser_user bytes (hlen.trans_le ((min_le_left _ _).trans hb))
    simp only [demoRead, hready, Bool.false_eq_true, if_false, if_neg hle, hfit, ne_eq,
      not_true_eq_false]
  · have hlen := length_requested p.toMsgPriv (asSize pos) count
    have hpos : min count (p.len - asSize pos) ≠ 0 := by omega
    simp only [demoRead, hready, Bool.false_eq_true, if_false, if_neg hle, copyToUser_kernel hk,
      hlen, ne_eq, hpos, not_false_eq_true, if_true]

theorem demoWrite_userOnly (p : DemoPriv) (pos : ℤ) : UserOnly demoWrite (some p) pos := by
  refine ⟨fun bytes count _ hb => ⟨min count demoBufSize, ?_⟩, fun buf count hk hc => ?_⟩
  · have hfit := copyFromUser_user bytes ((min_le_left count demoBufSize).trans hb)
    simp [demoWrite, hfit]
  · have hpos : min count demoBufSize ≠ 0 := by
      unfold demoBufSize
      omega
    simp [demoWrite, copyFromUser_kernel hk, hpos]

/-! ## The four devices -/

/-- What each of the four devices does on a read and on a write, with a stored message. -/
theorem MessageDevice.callbacks (pageShift : ℕ) (d : MessageDevice) (p : d.Priv pageShift)
    (pos : ℤ) :
    let ops := some (d.ops pageShift)
    ∃ rd wr, ops.bind (·.read) = some rd ∧ ops.bind (·.write) = some wr ∧
      ops.bind (·.readIter) = none ∧ ops.bind (·.writeIter) = none ∧
      (d.nothingToRead pageShift p pos = true → Idle rd (some p) pos) ∧
      (d.nothingToRead pageShift p pos = false → UserOnly rd (some p) pos) ∧
      UserOnly wr (some p) pos := by
  have hpage : 0 < pageSize pageShift := Nat.pow_pos (by decide)
  cases d with
  | echo =>
    exact ⟨_, _, rfl, rfl, rfl, rfl, storedRead_idle p, storedRead_userOnly p,
      storedWrite_userOnly (by decide) p pos⟩
  | miscEcho =>
    exact ⟨_, _, rfl, rfl, rfl, rfl, storedRead_idle p, storedRead_userOnly p,
      storedWrite_userOnly hpage p pos⟩
  | plat =>
    exact ⟨_, _, rfl, rfl, rfl, rfl, storedRead_idle p, storedRead_userOnly p,
      storedWrite_userOnly hpage p pos⟩
  | demo =>
    exact ⟨_, _, rfl, rfl, rfl, rfl, demoRead_idle p, demoRead_userOnly p,
      demoWrite_userOnly p pos⟩

/-- Once the device is being removed both paths refuse. Before that a scattered read agrees with a
flat one when there is nothing to read, and a scattered write never does. -/
theorem iter_agrees_iff (pageShift : ℕ) (d : MessageDevice) (removing : Bool)
    (p : d.Priv pageShift) (pos : ℤ) (segs : List (List UInt8)) (junk : ℕ → UInt8)
    (hn : 0 < segs.flatten.length) :
    (ReadAgrees removing (some (d.ops pageShift)) junk (some p) segs pos ↔
      removing = true ∨ d.nothingToRead pageShift p pos = true) ∧
    (WriteAgrees removing (some (d.ops pageShift)) junk (some p) segs pos ↔ removing = true) := by
  cases removing with
  | true => exact ⟨⟨fun _ => .inl rfl, fun _ => readAgrees_removing⟩,
      ⟨fun _ => rfl, fun _ => writeAgrees_removing⟩⟩
  | false =>
    obtain ⟨rd, wr, hrd, hwr, hrdIter, hwrIter, hidle, huser, hwrite⟩ :=
      d.callbacks pageShift p pos
    refine ⟨⟨fun ha => .inr ?_, fun h => ?_⟩, ⟨fun ha => ?_, fun h => by cases h⟩⟩
    · by_contra hno
      exact not_readAgrees_of_userOnly hrdIter hrd hn (huser (by simpa using hno)) ha
    · exact readAgrees_of_idle hrdIter hrd hn (hidle (h.resolve_left Bool.false_ne_true))
    · exact absurd ha (not_writeAgrees_of_userOnly hwrIter hwr hn hwrite)

def echoHi : MsgPriv echoBufSize :=
  ((MsgPriv.zero echoBufSize).overwrite [104, 105] (by decide)).setLen 2 (by decide)

theorem iter_agrees_iff_two_segments :
    (ReadAgrees false (some (MessageDevice.echo.ops 12)) (fun _ => 0) (some echoHi) [[0], [0]] 2 ↔
      false = true ∨ MessageDevice.echo.nothingToRead 12 echoHi 2 = true) ∧
    (WriteAgrees false (some (MessageDevice.echo.ops 12)) (fun _ => 0) (some echoHi) [[0], [0]] 2 ↔
      false = true) :=
  iter_agrees_iff 12 .echo false echoHi 2 [[0], [0]] (fun _ => 0) (by decide)

/-- A flat read of the message and a flat write return 2, the scattered ones `-EFAULT`. -/
theorem scattered_calls_fault :
    (read false (some (MessageDevice.echo.ops 12)) (some echoHi) (.user [0, 0]) 2 0).ret = .ok 2 ∧
    (write false (some (MessageDevice.echo.ops 12)) (some echoHi) (.user [0, 0]) 2 0).ret = .ok 2 ∧
    ¬ ReadAgrees false (some (MessageDevice.echo.ops 12)) (fun _ => 0) (some echoHi)
      [[0], [0]] 0 ∧
    ¬ WriteAgrees false (some (MessageDevice.echo.ops 12)) (fun _ => 0) (some echoHi)
      [[0], [0]] 0 := by
  refine ⟨rfl, rfl, fun h => ?_, fun h => ?_⟩
  · have hret : (.error .EFAULT : Except Errno ℕ) = .ok 2 := h.ret
    cases hret
  · have hret : (.error .EFAULT : Except Errno ℕ) = .ok 2 := h.ret
    cases hret

end LinuxDriverFramework.NvChar.Io
