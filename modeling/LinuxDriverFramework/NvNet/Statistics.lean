import LinuxDriverFramework.NvNet.DataPath

/-! # What the statistics of an interface say

* `Flow`: kept by every step, with a rule for each kind of step: of the CPU that transmits, of a CPU
  that reads, and of the lock.
* `flow_throughout`: every buffer is freed once and in order, the counters are the totals of what
  was transmitted, and a report mixes no more than one buffer. -/

namespace LinuxDriverFramework.NvNet.DataPath
open Foundations History
set_option autoImplicit false

variable {ι : Type} {W : ℕ} {ops : Option Ops} {w w' : World ι W} {t : ι}

/-! ## Growing histories -/

structure Grows (w w' : World ι W) : Prop where
  handed : ∃ more, w'.handed = w.handed ++ more
  freed : w.freed.length ≤ w'.freed.length
  packetsIn : w.packetsIn ≤ w'.packetsIn

theorem Flow.packetsIn_le (h : Flow ops w) : w.packetsIn ≤ w.handed.length := by
  rw [h.handed_eq, List.length_append]
  exact Nat.add_le_add_left w.holder.ahead_le.2.2 _

theorem ReaderAt.grow (hf : Flow ops w) (hg : Grows w w') {p : Pc W} (h : ReaderAt ops w p) :
    ReaderAt ops w' p := by
  obtain ⟨more, hmore⟩ := hg.handed
  have hfreed := hg.freed
  have hin := hg.packetsIn
  have hle := hf.packetsIn_le
  cases p with
  | getStats since => exact Nat.le_trans h hfreed
  | copyPackets since => exact Nat.le_trans h hfreed
  | copyBytes since p =>
    obtain ⟨i, hi, hi', hs, hp⟩ := h
    refine ⟨i, hi, by omega, by omega, ?_⟩
    rw [hmore, total_append (by omega)]
    exact hp
  | _ => trivial

theorem Reports.append {handed more : List Skb} {r : Report} (h : Reports (W := W) ops handed r)
    (hu : r.upTo ≤ handed.length) : Reports (W := W) ops (handed ++ more) r := by
  obtain ⟨packets, bytes, hc, hp, hb⟩ := h
  exact ⟨packets, bytes, hc.append hu, hp, hb⟩

theorem reports_grow (hf : Flow ops w) (hg : Grows w w') {r : Report} (hr : r ∈ w.reports) :
    r.upTo ≤ w'.handed.length ∧ Reports (W := W) ops w'.handed r := by
  obtain ⟨more, hmore⟩ := hg.handed
  obtain ⟨hu, hrep⟩ := hf.reports r hr
  rw [hmore, List.length_append]
  exact ⟨Nat.le_add_right_of_le hu, hrep.append hu⟩

/-! ## The CPU that transmits -/

theorem holder_of_lock (h : w.txLock = some t) : w.holder = w.pc t := by
  rw [World.holder, h]

theorem holder_free (h : w.txLock = none) : w.holder = .idle := by
  rw [World.holder, h]

section Steps

variable [DecidableEq ι]

theorem goto_pc_self (w : World ι W) (t : ι) (p : Pc W) : (w.goto t p).pc t = p :=
  Function.update_self _ _ _

theorem goto_pc_other (w : World ι W) {t u : ι} (h : u ≠ t) (p : Pc W) :
    (w.goto t p).pc u = w.pc u := Function.update_of_ne h _ _

/-- A step of the CPU that holds the lock. -/
theorem Flow.transmit (hf : Flow ops w) (hlock : w.txLock = some t) (stats : Stats W)
    (freed : List Skb) {p : Pc W} (hp : p.transmits = true) (hfr : w.handed = freed ++ p.frames)
    (hpk : stats.txPackets = total (packetWeight W ops) w.handed (freed.length + p.packetsAhead))
    (hby : stats.txBytes = total (byteWeight W ops) w.handed (freed.length + p.bytesAhead))
    (hat : HolderAt ops stats p) (hle : w.freed.length ≤ freed.length)
    (hin : w.packetsIn ≤ freed.length + p.packetsAhead) :
    Flow ops ({ w with stats := stats, freed := freed }.goto t p) := by
  have hself := goto_pc_self { w with stats := stats, freed := freed } t p
  have hholder : ({ w with stats := stats, freed := freed }.goto t p).holder = p :=
    Eq.trans (holder_of_lock hlock) hself
  have hg : Grows w ({ w with stats := stats, freed := freed }.goto t p) := by
    refine ⟨⟨[], (List.append_nil _).symm⟩, hle, ?_⟩
    rw [World.packetsIn, World.packetsIn, hholder]
    exact hin
  refine ⟨hf.running, fun u => ?_, ?_, ?_, ?_, ?_, fun u => ?_, fun r hr => reports_grow hf hg hr⟩
  · by_cases hut : u = t
    · rw [hut, hself]
      exact iff_of_true hlock hp
    · rw [goto_pc_other _ hut]
      exact hf.lock_iff u
  · rw [hholder]
    exact hfr
  · rw [World.packetsIn, hholder]
    exact hpk
  · rw [World.bytesIn, hholder]
    exact hby
  · rw [hholder]
    exact hat
  · by_cases hut : u = t
    · rw [hut, hself]
      cases p <;> trivial
    · rw [goto_pc_other _ hut]
      exact (hf.reader_at u).grow hf hg

/-- A step of a CPU that does not transmit; it only adds to the reports. -/
theorem Flow.read (hf : Flow ops w) (hpc : (w.pc t).transmits = false) (new : List Report)
    {p : Pc W} (hp : p.transmits = false) (hat : ReaderAt ops w p)
    (hnew : ∀ r ∈ new, r.upTo ≤ w.handed.length ∧ Reports (W := W) ops w.handed r) :
    Flow ops ({ w with reports := w.reports ++ new }.goto t p) := by
  have hself := goto_pc_self { w with reports := w.reports ++ new } t p
  have hlock : w.txLock ≠ some t := fun h => by
    rw [(hf.lock_iff t).mp h] at hpc
    cases hpc
  have hholder : ({ w with reports := w.reports ++ new }.goto t p).holder = w.holder := by
    rcases Option.eq_none_or_eq_some w.txLock with h | ⟨u, h⟩
    · exact Eq.trans (holder_free h) (holder_free h).symm
    · have hut : u ≠ t := fun e => hlock (e ▸ h)
      exact Eq.trans (holder_of_lock h) (Eq.trans (goto_pc_other _ hut p) (holder_of_lock h).symm)
  have hg : Grows w ({ w with reports := w.reports ++ new }.goto t p) := by
    refine ⟨⟨[], (List.append_nil _).symm⟩, Nat.le_refl _, ?_⟩
    rw [World.packetsIn, World.packetsIn, hholder]
    exact Nat.le_refl _
  refine ⟨hf.running, fun u => ?_, ?_, ?_, ?_, ?_, fun u => ?_, fun r hr => ?_⟩
  · by_cases hut : u = t
    · rw [hut, hself, hp]
      exact iff_of_false hlock Bool.false_ne_true
    · rw [goto_pc_other _ hut]
      exact hf.lock_iff u
  · rw [hholder]
    exact hf.handed_eq
  · rw [World.packetsIn, hholder]
    exact hf.packets
  · rw [World.bytesIn, hholder]
    exact hf.bytes
  · rw [hholder]
    exact hf.holder_at
  · by_cases hut : u = t
    · rw [hut, hself]
      exact hat.grow hf hg
    · rw [goto_pc_other _ hut]
      exact (hf.reader_at u).grow hf hg
  · rcases List.mem_append.mp hr with h | h
    · exact reports_grow hf hg h
    · exact hnew r h

theorem Flow.look (hf : Flow ops w) (hpc : (w.pc t).transmits = false) {p : Pc W}
    (hp : p.transmits = false) (hat : ReaderAt ops w p) : Flow ops (w.goto t p) := by
  have h := hf.read hpc [] hp hat fun r hr => absurd hr List.not_mem_nil
  rw [List.append_nil] at h
  exact h

/-! ## The lock of the queue -/

theorem Flow.acquire (hf : Flow ops w) (t : ι) (hlock : w.txLock = none)
    (skb : Skb) :
    Flow ops ({ w with txLock := some t, handed := w.handed ++ [skb] }.goto t (.startXmit skb)) := by
  have hself := goto_pc_self { w with txLock := some t, handed := w.handed ++ [skb] } t
    (.startXmit skb)
  have hfree := holder_free hlock
  have hin : w.packetsIn = w.freed.length := by
    rw [World.packetsIn, hfree]
    rfl
  have hbin : w.bytesIn = w.freed.length := by
    rw [World.bytesIn, hfree]
    rfl
  have hhanded : w.handed = w.freed := by
    rw [hf.handed_eq, hfree]
    exact List.append_nil _
  have hholder : ({ w with txLock := some t, handed := w.handed ++ [skb] }.goto t
      (.startXmit skb)).holder = .startXmit skb := Eq.trans (holder_of_lock rfl) hself
  have hg : Grows w ({ w with txLock := some t, handed := w.handed ++ [skb] }.goto t
      (.startXmit skb)) := by
    refine ⟨⟨[skb], rfl⟩, Nat.le_refl _, ?_⟩
    rw [hin, World.packetsIn, hholder]
    exact Nat.le_refl _
  refine ⟨hf.running, fun u => ?_, ?_, ?_, ?_, ?_, fun u => ?_, fun r hr => reports_grow hf hg hr⟩
  · by_cases hut : u = t
    · rw [hut, hself]
      exact iff_of_true rfl rfl
    · rw [goto_pc_other _ hut]
      refine iff_of_false (fun h => hut (Option.some.inj h).symm) fun h => ?_
      rw [(hf.lock_iff u).mpr h] at hlock
      cases hlock
  · rw [hholder]
    exact congrArg (· ++ [skb]) hhanded
  · have h := hf.packets
    rw [World.packetsIn, hholder]
    rw [hin, ← total_append (m := [skb]) (by rw [hhanded])] at h
    exact h
  · have h := hf.bytes
    rw [World.bytesIn, hholder]
    rw [hbin, ← total_append (m := [skb]) (by rw [hhanded])] at h
    exact h
  · rw [hholder]
    trivial
  · by_cases hut : u = t
    · rw [hut, hself]
      trivial
    · rw [goto_pc_other _ hut]
      exact (hf.reader_at u).grow hf hg

theorem Flow.release (hf : Flow ops w) (hpc : w.pc t = .xmitReturn) :
    Flow ops ({ w with txLock := none }.goto t .idle) := by
  have hself := goto_pc_self { w with txLock := none } t .idle
  have hlock : w.txLock = some t := (hf.lock_iff t).mpr (by rw [hpc]; rfl)
  have hold : w.holder = .xmitReturn := (holder_of_lock hlock).trans hpc
  have hholder : ({ w with txLock := none }.goto t .idle).holder = .idle := rfl
  have hg : Grows w ({ w with txLock := none }.goto t .idle) := by
    refine ⟨⟨[], (List.append_nil _).symm⟩, Nat.le_refl _, ?_⟩
    rw [World.packetsIn, World.packetsIn, hholder, hold]
    exact Nat.le_refl _
  refine ⟨hf.running, fun u => ?_, ?_, ?_, ?_, trivial, fun u => ?_,
    fun r hr => reports_grow hf hg hr⟩
  · by_cases hut : u = t
    · rw [hut, hself]
      exact iff_of_false (fun h => by cases h) (fun h => by cases h)
    · rw [goto_pc_other _ hut]
      refine iff_of_false (fun h => by cases h) fun h => ?_
      rw [← hf.lock_iff u, hlock] at h
      exact hut (Option.some.inj h).symm
  · have h := hf.handed_eq
    rw [hold] at h
    exact h
  · have h := hf.packets
    rw [World.packetsIn, hold] at h
    exact h
  · have h := hf.bytes
    rw [World.bytesIn, hold] at h
    exact h
  · by_cases hut : u = t
    · rw [hut, hself]
      trivial
    · rw [goto_pc_other _ hut]
      exact (hf.reader_at u).grow hf hg

/-! ## All steps -/

theorem flow_registered (ι : Type) (W : ℕ) : Flow ops (World.registered ι W) where
  running h := by cases h
  lock_iff t := iff_of_false (fun h => by cases h) (fun h => by cases h)
  handed_eq := rfl
  packets := rfl
  bytes := rfl
  holder_at := trivial
  reader_at _ := trivial
  reports r hr := absurd hr List.not_mem_nil

end Steps

/-- What the CPU that transmits finds. -/
structure Standing (ops : Option Ops) (w : World ι W) (t : ι) (p : Pc W) : Prop where
  lock : w.txLock = some t
  handed_eq : w.handed = w.freed ++ p.frames
  packetsIn_eq : w.packetsIn = w.freed.length + p.packetsAhead
  packets : w.stats.txPackets =
    total (packetWeight W ops) w.handed (w.freed.length + p.packetsAhead)
  bytes : w.stats.txBytes = total (byteWeight W ops) w.handed (w.freed.length + p.bytesAhead)
  holder_at : HolderAt ops w.stats p

theorem Flow.standing (hf : Flow ops w) {p : Pc W} (hpc : w.pc t = p) (hp : p.transmits = true) :
    Standing ops w t p := by
  have hlock : w.txLock = some t := (hf.lock_iff t).mpr (by rw [hpc]; exact hp)
  have hholder : w.holder = p := (holder_of_lock hlock).trans hpc
  have hfr := hf.handed_eq
  have hpk := hf.packets
  have hby := hf.bytes
  have hat := hf.holder_at
  rw [World.packetsIn] at hpk
  rw [World.bytesIn] at hby
  rw [hholder] at hfr hpk hby hat
  exact ⟨hlock, hfr, by rw [World.packetsIn, hholder], hpk, hby, hat⟩

/-- The buffer under way is the next one to be counted. -/
theorem Standing.total_next {p : Pc W} (h : Standing ops w t p) {skb : Skb} (hfr : p.frames = [skb])
    (f : Skb → BitVec W) :
    total f w.handed (w.freed.length + 1) = total f w.handed w.freed.length + f skb := by
  rw [h.handed_eq, hfr]
  exact History.total_next w.freed [] skb

theorem packetWeight_of (h : provides ops .startXmit = true) (skb : Skb) :
    packetWeight W ops skb = 1 := if_pos h

theorem byteWeight_of (h : provides ops .startXmit = true) (skb : Skb) :
    byteWeight W ops skb = skb.len.setWidth W := if_pos h

section Steps

variable [DecidableEq ι]

/-- Without `start_xmit` the buffer is freed at once, and counts nothing. -/
theorem Flow.startXmit (hf : Flow ops w) {skb : Skb} (hpc : w.pc t = .startXmit skb) :
    Flow ops (w.goto t (nvNetStartXmit ops skb)) := by
  have h := hf.standing hpc rfl
  have hin := h.packetsIn_eq
  cases hx : provides ops .startXmit with
  | true =>
    rw [nvNetStartXmit, if_pos hx]
    exact hf.transmit h.lock w.stats w.freed rfl h.handed_eq h.packets h.bytes
      hx (Nat.le_refl _) (Nat.le_of_eq hin)
  | false =>
    have hno : ¬ provides ops .startXmit = true := by simp [hx]
    have hw : packetWeight W ops skb = 0 := if_neg hno
    have hb : byteWeight W ops skb = 0 := if_neg hno
    rw [nvNetStartXmit, if_neg hno]
    refine hf.transmit h.lock w.stats w.freed rfl h.handed_eq ?_ ?_ trivial
      (Nat.le_refl _) (by rw [hin]; exact Nat.le_succ _)
    · change _ = total _ _ (w.freed.length + 1)
      rw [h.total_next rfl, hw, add_zero]
      exact h.packets
    · change _ = total _ _ (w.freed.length + 1)
      rw [h.total_next rfl, hb, add_zero]
      exact h.bytes

theorem Flow.storePackets (hf : Flow ops w) {skb : Skb} {v : BitVec W}
    (hpc : w.pc t = .storePackets skb v) :
    Flow ops ({ w with stats := { w.stats with txPackets := v + 1 } }.goto t (.loadBytes skb)) := by
  have h := hf.standing hpc rfl
  obtain ⟨hx, hv⟩ := h.holder_at
  refine hf.transmit h.lock _ w.freed rfl h.handed_eq ?_ h.bytes hx (Nat.le_refl _)
    (by rw [h.packetsIn_eq]; exact Nat.le_succ _)
  change v + 1 = total _ _ (w.freed.length + 1)
  rw [h.total_next rfl, packetWeight_of hx, hv, h.packets]
  rfl

theorem Flow.storeBytes (hf : Flow ops w) {skb : Skb} {v : BitVec W}
    (hpc : w.pc t = .storeBytes skb v) :
    Flow ops ({ w with stats := { w.stats with txBytes := v + skb.len.setWidth W } }.goto t
      (.kfree skb)) := by
  have h := hf.standing hpc rfl
  obtain ⟨hx, hv⟩ := h.holder_at
  refine hf.transmit h.lock _ w.freed rfl h.handed_eq h.packets ?_ trivial (Nat.le_refl _)
    (Nat.le_of_eq h.packetsIn_eq)
  change v + skb.len.setWidth W = total _ _ (w.freed.length + 1)
  rw [h.total_next rfl, byteWeight_of hx, hv, h.bytes]
  rfl

theorem Flow.kfree (hf : Flow ops w) {skb : Skb} (hpc : w.pc t = .kfree skb) :
    Flow ops ({ w with freed := w.freed ++ [skb] }.goto t .xmitReturn) := by
  have h := hf.standing hpc rfl
  have hlen : (w.freed ++ [skb]).length = w.freed.length + 1 := by simp
  refine hf.transmit h.lock w.stats _ rfl ?_ ?_ ?_ trivial ?_ ?_
  · rw [h.handed_eq]
    exact (List.append_nil _).symm
  · rw [hlen]
    exact h.packets
  · rw [hlen]
    exact h.bytes
  · rw [hlen]
    exact Nat.le_succ _
  · rw [hlen, h.packetsIn_eq]
    exact Nat.le_refl _

omit [DecidableEq ι] in
/-- The packets may have been copied before the last buffer was counted, the bytes after it. -/
theorem Flow.copyBytes (hf : Flow ops w) {since : ℕ} {p : BitVec 64}
    (hpc : w.pc t = .copyBytes since p) :
    Reports (W := W) ops w.handed
      ⟨since, w.handed.length, p, w.stats.txBytes.setWidth 64⟩ := by
  have hr := hf.reader_at t
  rw [hpc] at hr
  obtain ⟨i, hi, hin, hs, hp⟩ := hr
  have hle := hf.packetsIn_le
  have hahead := w.holder.ahead_le
  have hpin : w.packetsIn = w.freed.length + w.holder.packetsAhead := rfl
  have hbin : w.bytesIn = w.freed.length + w.holder.bytesAhead := rfl
  refine ⟨_, _, ⟨i, w.bytesIn, ⟨hi, ?_⟩, ⟨?_, ?_⟩, ?_, rfl, rfl⟩, hp, ?_⟩
  · exact hin.trans hle
  · change since ≤ w.bytesIn
    omega
  · change w.bytesIn ≤ w.handed.length
    omega
  · omega
  · rw [hf.bytes]

theorem Flow.advance (hf : Flow ops w) (h : advance ops w t = some w') : Flow ops w' := by
  unfold DataPath.advance at h
  cases hpc : w.pc t with
  | idle =>
    rw [hpc] at h
    cases h
  | startXmit skb =>
    rw [hpc] at h
    obtain rfl := Option.some.inj h
    exact hf.startXmit hpc
  | loadPackets skb =>
    rw [hpc] at h
    obtain rfl := Option.some.inj h
    have hst := hf.standing hpc rfl
    exact hf.transmit hst.lock w.stats w.freed rfl hst.handed_eq hst.packets
      hst.bytes ⟨hst.holder_at, rfl⟩ (Nat.le_refl _) (Nat.le_of_eq hst.packetsIn_eq)
  | storePackets skb v =>
    rw [hpc] at h
    obtain rfl := Option.some.inj h
    exact hf.storePackets hpc
  | loadBytes skb =>
    rw [hpc] at h
    obtain rfl := Option.some.inj h
    have hst := hf.standing hpc rfl
    exact hf.transmit hst.lock w.stats w.freed rfl hst.handed_eq hst.packets
      hst.bytes ⟨hst.holder_at, rfl⟩ (Nat.le_refl _) (Nat.le_of_eq hst.packetsIn_eq)
  | storeBytes skb v =>
    rw [hpc] at h
    obtain rfl := Option.some.inj h
    exact hf.storeBytes hpc
  | kfree skb =>
    rw [hpc] at h
    obtain rfl := Option.some.inj h
    exact hf.kfree hpc
  | xmitReturn =>
    rw [hpc] at h
    obtain rfl := Option.some.inj h
    exact hf.release hpc
  | getStats since =>
    rw [hpc] at h
    obtain rfl := Option.some.inj h
    have hr := hf.reader_at t
    rw [hpc] at hr
    refine hf.look (by rw [hpc]; rfl) ?_ ?_
    · rw [nvNetGetStats64, ite_self]
      rfl
    · rw [nvNetGetStats64, ite_self]
      exact hr
  | copyPackets since =>
    rw [hpc] at h
    obtain rfl := Option.some.inj h
    have hr := hf.reader_at t
    rw [hpc] at hr
    refine hf.look (by rw [hpc]; rfl) rfl ⟨w.packetsIn, ?_, Nat.le_refl _, hr, ?_⟩
    · exact Nat.le_add_right_of_le hr
    · rw [hf.packets]
  | copyBytes since p =>
    rw [hpc] at h
    obtain rfl := Option.some.inj h
    refine hf.read (by rw [hpc]; rfl) _ rfl trivial fun r hr => ?_
    obtain rfl := List.mem_singleton.mp hr
    exact ⟨Nat.le_refl _, hf.copyBytes hpc⟩

theorem hardStartXmit_eq {skb : Skb} (h : hardStartXmit w t skb = some w') :
    w.txLock = none ∧
      w' = { w with txLock := some t, handed := w.handed ++ [skb] }.goto t (.startXmit skb) := by
  unfold DataPath.hardStartXmit at h
  split at h
  · rename_i hlock
    split at h
    · exact ⟨hlock, (Option.some.inj h).symm⟩
    · cases h
  · cases h

theorem devGetStats_eq (h : devGetStats w t = some w') :
    w.pc t = .idle ∧ w' = w.goto t (.getStats w.freed.length) := by
  unfold DataPath.devGetStats at h
  split at h
  · rename_i hpc
    exact ⟨hpc, (Option.some.inj h).symm⟩
  · cases h

omit [DecidableEq ι] in
/-- A step that changes only the state of the queue. -/
theorem Flow.queue (hf : Flow ops w) {up stopped : Bool} (h : up = true → stopped = false) :
    Flow ops { w with up := up, queueStopped := stopped } where
  running := h
  lock_iff := hf.lock_iff
  handed_eq := hf.handed_eq
  packets := hf.packets
  bytes := hf.bytes
  holder_at := hf.holder_at
  reader_at := hf.reader_at
  reports := hf.reports

theorem step_flow (w : World ι W) (a : Label ι) (w' : World ι W) (hf : Flow ops w)
    (h : step ops w a = some w') : Flow ops w' := by
  cases a with
  | devOpen =>
    simp only [step, nvNetOpen, dummyOpen, ite_self, netifStartQueue] at h
    cases hup : w.up with
    | true =>
      rw [hup, if_pos rfl] at h
      cases h
    | false =>
      rw [hup, if_neg Bool.false_ne_true] at h
      obtain rfl := Option.some.inj h
      exact hf.queue fun _ => rfl
  | devClose =>
    simp only [step, nvNetStop, dummyStop, ite_self, netifStopQueue] at h
    cases hup : w.up with
    | true =>
      rw [hup, if_pos rfl] at h
      obtain rfl := Option.some.inj h
      exact hf.queue fun h => by cases h
    | false =>
      rw [hup, if_neg Bool.false_ne_true] at h
      cases h
  | hardStartXmit t skb =>
    obtain ⟨hlock, rfl⟩ := hardStartXmit_eq h
    exact hf.acquire t hlock skb
  | devGetStats t =>
    obtain ⟨hpc, rfl⟩ := devGetStats_eq h
    exact hf.look (by rw [hpc]; rfl) rfl (Nat.le_refl _)
  | advance t => exact hf.advance h

end Steps

/-! ## Whole runs -/

theorem total_packetWeight (l : List Skb) :
    total (packetWeight W ops) l l.length =
      if provides ops .startXmit then BitVec.ofNat W l.length else 0 := by
  rw [show packetWeight W ops = fun _ => if provides ops .startXmit then 1 else 0 from rfl,
    total_const _ (Nat.le_refl l.length)]
  split
  · exact nsmul_one l.length
  · exact nsmul_zero l.length

/-- What the users of the interface may rely on. -/
structure Accounted (ops : Option Ops) (w : World ι W) : Prop where
  running : w.up = true → w.queueStopped = false
  /-- one buffer at most is not freed yet, and it is the last -/
  freed_in_order : ∃ rest, w.handed = w.freed ++ rest ∧ rest.length ≤ 1 ∧
    (w.txLock = none → rest = [])
  packets : w.txLock = none → w.stats.txPackets =
    if provides ops .startXmit then BitVec.ofNat W w.handed.length else 0
  bytes : w.txLock = none → w.stats.txBytes = (w.handed.map (byteWeight W ops)).sum
  reports : ∀ r ∈ w.reports, Reports (W := W) ops w.handed r
  at_rest : ∀ r ∈ w.reports, r.since = r.upTo →
    r.txPackets = (total (packetWeight W ops) w.handed r.upTo).setWidth 64 ∧
      r.txBytes = (total (byteWeight W ops) w.handed r.upTo).setWidth 64

theorem Flow.accounted (hf : Flow ops w) : Accounted ops w := by
  have hfree := fun hlock : w.txLock = none => holder_free hlock
  have hall : w.txLock = none → w.handed = w.freed := fun hlock => by
    rw [hf.handed_eq, hfree hlock]
    exact List.append_nil _
  refine ⟨hf.running, ⟨w.holder.frames, hf.handed_eq, ?_, fun hlock => ?_⟩, fun hlock => ?_,
    fun hlock => ?_, fun r hr => (hf.reports r hr).2, fun r hr hrest => ?_⟩
  · cases w.holder <;> simp [Pc.frames]
  · rw [hfree hlock]
    rfl
  · rw [hf.packets, World.packetsIn, hfree hlock, ← hall hlock]
    exact total_packetWeight w.handed
  · rw [hf.bytes, World.bytesIn, hfree hlock, ← hall hlock]
    exact total_length w.handed
  · obtain ⟨packets, bytes, hc, hp, hb⟩ := (hf.reports r hr).2
    rw [hrest] at hc
    rw [hp, hb, hc.at_rest.1, hc.at_rest.2]
    exact ⟨rfl, rfl⟩

/-- In every order of the steps of any number of CPUs: each buffer is freed once, the counters are
right whenever nothing is being transmitted, and a report gives the totals of two moments of its
call, the bytes of no earlier one than the packets but for one buffer. -/
theorem accounted_throughout [DecidableEq ι] (ops : Option Ops) (acts : List (Label ι)) :
    Throughout (step ops) (Accounted ops) (World.registered ι W) acts :=
  throughout_of_along (G := fun _ _ => True) (fun _ h => h.accounted)
    (fun w a w' hf _ h => step_flow w a w' hf h) acts _ (flow_registered ι W) (along_true acts _)

end LinuxDriverFramework.NvNet.DataPath
