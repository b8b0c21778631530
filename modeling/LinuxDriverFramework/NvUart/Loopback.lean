import LinuxDriverFramework.NvUart.Chars

/-! # Which characters arrive, and how many are reported

* `Echoes flag`: a prefix of the fifo has moved to the receive buffer, every byte with this flag;
  `Pushes flag`: the same for the buffer of `nv_uart_push_rx`.
* `startTx_echoes`, `pushRx_pushes`: both hold with the flag `TTY_BREAK`.
* `normal_iff`: they hold with `TTY_NORMAL` just when nothing is moved.
* `pushRx_counted_iff`: the count returned is that of the bytes placed just when all of them are. -/

namespace LinuxDriverFramework.NvUart.Chars
set_option autoImplicit false

/-! ## With which flag -/

/-- The transmission has moved a prefix of the fifo, all of it unless it is stopped. -/
def Echoes (flag : UInt8) (stopAfter : Option ℕ) (st st' : UartState) : Prop :=
  ∃ sent, st.fifo = sent ++ st'.fifo ∧ (stopAfter = none → st'.fifo = []) ∧
    st'.rx.chars = st.rx.chars ++ sent.map (·, flag)

def Pushes (flag : UInt8) (bytes : List UInt8) (st st' : UartState) : Prop :=
  st'.rx.chars = st.rx.chars ++ bytes.map (·, flag)

theorem insertAll_chars (b : RxBuffer) (flag : UInt8) (bytes : List UInt8) :
    (b.insertAll flag bytes).chars = b.chars ++ (bytes.take b.room).map (·, flag) := by
  rw [insertAll_eq]

theorem insertAll_room {b : RxBuffer} {bytes : List UInt8} (h : bytes.length ≤ b.room)
    (flag : UInt8) : (b.insertAll flag bytes).chars = b.chars ++ bytes.map (·, flag) := by
  rw [insertAll_chars, List.take_of_length_le h]

theorem map_flag_inj {a b : UInt8} (hab : a ≠ b) {l m : List UInt8}
    (h : l.map (·, a) = m.map (·, b)) : l = [] := by
  cases l with
  | nil => rfl
  | cons ch l =>
    cases m with
    | nil => cases h
    | cons ch' m => exact absurd (Prod.mk.inj (List.cons.inj h).1).2 hab

theorem break_ne_normal : ttyBreak ≠ ttyNormal := by decide

@[simp] theorem length_bytesOf (buf : ℕ → UInt8) (count : ℤ) :
    (bytesOf buf count).length = count.toNat := by
  rw [bytesOf, List.length_map, List.length_range]

section Flag

variable (core : UartCore) {st : UartState}

def sentState (stopAfter : Option ℕ) (st : UartState) : UartState :=
  ⟨st.rx.insertAll ttyBreak (st.fifo.take (taken stopAfter 0 st.fifo.length)),
    st.fifo.drop (taken stopAfter 0 st.fifo.length)⟩

theorem sentState_chars (stopAfter : Option ℕ) (h : st.fifo.length ≤ st.rx.room) :
    (sentState stopAfter st).rx.chars = st.rx.chars ++
      (st.fifo.take (taken stopAfter 0 st.fifo.length)).map (·, ttyBreak) :=
  insertAll_room ((List.length_take_le' _ _).trans h) ttyBreak

theorem startTx_echoes (stopAfter : Option ℕ) (h : st.fifo.length ≤ st.rx.room) :
    demoStartTx core stopAfter ⟨some st⟩ = ⟨some (sentState stopAfter st)⟩ ∧
      Echoes ttyBreak stopAfter st (sentState stopAfter st) := by
  refine ⟨demoStartTx_open core st stopAfter, _, (List.take_append_drop _ _).symm, ?_,
    sentState_chars stopAfter h⟩
  rintro rfl
  exact List.drop_length

/-- Nothing is taken from an empty fifo, or if the transmission is stopped at once. -/
theorem taken_nil_iff (stopAfter : Option ℕ) (fifo : List UInt8) :
    fifo.take (taken stopAfter 0 fifo.length) = [] ↔ fifo = [] ∨ stopAfter = some 0 := by
  rw [List.take_eq_nil_iff, or_comm]
  apply or_congr_right'
  intro hne
  have hpos : 0 < fifo.length := List.length_pos_iff.mpr hne
  cases stopAfter with
  | none =>
    simp only [taken, reduceCtorEq, iff_false]
    omega
  | some n =>
    simp only [taken, Option.some.injEq]
    omega

theorem startTx_normal_iff (stopAfter : Option ℕ) (h : st.fifo.length ≤ st.rx.room) :
    (∃ st', demoStartTx core stopAfter ⟨some st⟩ = ⟨some st'⟩ ∧
      Echoes ttyNormal stopAfter st st') ↔ st.fifo = [] ∨ stopAfter = some 0 := by
  obtain ⟨hend, hechoes⟩ := startTx_echoes core stopAfter h
  rw [← taken_nil_iff]
  constructor
  · rintro ⟨st', hst', sent, -, -, hchars⟩
    obtain rfl : sentState stopAfter st = st' :=
      Option.some.inj (NvUartPort.mk.inj (hend.symm.trans hst'))
    rw [sentState_chars stopAfter h] at hchars
    exact map_flag_inj break_ne_normal (List.append_cancel_left hchars)
  · intro hnil
    obtain ⟨sent, hfifo, hall, hchars⟩ := hechoes
    refine ⟨_, hend, sent, hfifo, hall, ?_⟩
    rw [sentState_chars stopAfter h, hnil] at hchars
    have hsent : sent = [] := by
      simpa using (List.append_cancel_left hchars).symm
    rw [sentState_chars stopAfter h, hnil, hsent]
    rfl

theorem pushRx_pushes (st : UartState) (buf : ℕ → UInt8) (count : ℤ) (h : count ≤ st.rx.room) :
    ∃ st', (pushRx core (some ⟨some st⟩) (some buf) count).1 = some ⟨some st'⟩ ∧
      Pushes ttyBreak (bytesOf buf count) st st' := by
  by_cases hcount : 0 < count
  · rw [pushRx_open core st buf hcount]
    exact ⟨_, rfl, insertAll_room (by rw [length_bytesOf]; omega) ttyBreak⟩
  · have hle : count ≤ 0 := by omega
    have hzero : count.toNat = 0 := by omega
    refine ⟨st, by simp only [pushRx, if_pos hle], ?_⟩
    simp [Pushes, bytesOf, hzero]

theorem pushRx_normal_iff (buf : ℕ → UInt8) (count : ℤ) (h : count ≤ st.rx.room) :
    (∃ st', (pushRx core (some ⟨some st⟩) (some buf) count).1 = some ⟨some st'⟩ ∧
      Pushes ttyNormal (bytesOf buf count) st st') ↔ count ≤ 0 := by
  obtain ⟨st₁, hend, hpushes⟩ := pushRx_pushes core st buf count h
  have hnil : bytesOf buf count = [] ↔ count ≤ 0 := by
    rw [← List.length_eq_zero_iff, length_bytesOf]
    omega
  rw [← hnil]
  constructor
  · rintro ⟨st', hst', hnormal⟩
    obtain rfl : st₁ = st' := by
      simpa using hend.symm.trans hst'
    exact map_flag_inj break_ne_normal (List.append_cancel_left (hpushes.symm.trans hnormal))
  · intro hno
    refine ⟨st₁, hend, ?_⟩
    rw [Pushes, hno] at hpushes ⊢
    exact hpushes

/-- Characters arrive as normal data just when none arrives. -/
theorem normal_iff (st : UartState) (stopAfter : Option ℕ) (buf : ℕ → UInt8) (count : ℤ)
    (hfifo : st.fifo.length ≤ st.rx.room) (hcount : count ≤ st.rx.room) :
    ((∃ st', demoStartTx core stopAfter ⟨some st⟩ = ⟨some st'⟩ ∧
      Echoes ttyNormal stopAfter st st') ↔ st.fifo = [] ∨ stopAfter = some 0) ∧
    ((∃ st', (pushRx core (some ⟨some st⟩) (some buf) count).1 = some ⟨some st'⟩ ∧
      Pushes ttyNormal (bytesOf buf count) st st') ↔ count ≤ 0) :=
  ⟨startTx_normal_iff core stopAfter hfifo, pushRx_normal_iff core buf count hcount⟩

end Flag

def insertingCore : UartCore where
  insertChar := fun b _ _ ch flag => b.insert ch flag
  insertChar_ok := fun _ _ _ _ => rfl

def twoToSend : UartState := ⟨⟨[], 16⟩, [104, 105]⟩

theorem normal_iff_two :
    ((∃ st', demoStartTx insertingCore none ⟨some twoToSend⟩ = ⟨some st'⟩ ∧
      Echoes ttyNormal none twoToSend st') ↔ twoToSend.fifo = [] ∨ (none : Option ℕ) = some 0) ∧
    ((∃ st', (pushRx insertingCore (some ⟨some twoToSend⟩) (some fun _ => 7) 3).1 =
        some ⟨some st'⟩ ∧
      Pushes ttyNormal (bytesOf (fun _ => 7) 3) twoToSend st') ↔ (3 : ℤ) ≤ 0) :=
  normal_iff insertingCore twoToSend none (fun _ => 7) 3 (by decide) (by decide)

/-- Both characters arrive with `TTY_BREAK`. -/
theorem looped_as_break :
    demoStartTx insertingCore none ⟨some twoToSend⟩ =
      ⟨some ⟨⟨[(104, ttyBreak), (105, ttyBreak)], 14⟩, []⟩⟩ ∧
    ¬ ∀ (core : UartCore) (st : UartState) (stopAfter : Option ℕ), st.fifo.length ≤ st.rx.room →
      ∃ st', demoStartTx core stopAfter ⟨some st⟩ = ⟨some st'⟩ ∧
        Echoes ttyNormal stopAfter st st' := by
  have hend : demoStartTx insertingCore none ⟨some twoToSend⟩ =
      ⟨some ⟨⟨[(104, ttyBreak), (105, ttyBreak)], 14⟩, []⟩⟩ := by decide
  refine ⟨hend, fun h => ?_⟩
  obtain ⟨st', hst', sent, -, -, hchars⟩ := h insertingCore twoToSend none (by decide)
  rw [hend] at hst'
  cases hst'
  exact absurd (map_flag_inj (l := [104, 105]) break_ne_normal hchars) (by decide)

/-! ## How many -/

/-- The result is the number of bytes that were placed, which are some of the buffer's in order. -/
def Counted (bytes : List UInt8) (st st' : UartState) (ret : Except Errno ℤ) : Prop :=
  ∃ placed, st'.rx.chars = st.rx.chars ++ placed ∧ ret = .ok (placed.length : ℤ) ∧
    (placed.map (·.1)).Sublist bytes

section Count

variable (core : UartCore)

theorem map_fst_flag (flag : UInt8) (l : List UInt8) : (l.map (·, flag)).map (·.1) = l := by
  rw [List.map_map]
  exact List.map_id l

/-- `nv_uart_push_rx` reports what it has placed just when there is space for all of it. -/
theorem pushRx_counted_iff (st : UartState) (buf : ℕ → UInt8) (count : ℤ) (h : 0 < count) :
    (∃ st', (pushRx core (some ⟨some st⟩) (some buf) count).1 = some ⟨some st'⟩ ∧
      Counted (bytesOf buf count) st st' (pushRx core (some ⟨some st⟩) (some buf) count).2) ↔
      count ≤ st.rx.room := by
  rw [pushRx_open core st buf h]
  have hchars := insertAll_chars st.rx 1 (bytesOf buf count)
  constructor
  · rintro ⟨st', hst', placed, hplaced, hret, -⟩
    cases hst'
    have heq : ((bytesOf buf count).take st.rx.room).map (·, 1) = placed :=
      List.append_cancel_left (hchars.symm.trans hplaced)
    have hlen : placed.length = min st.rx.room count.toNat := by
      rw [← heq, List.length_map, List.length_take, length_bytesOf]
    have hcount : count = placed.length := Except.ok.inj hret
    omega
  · intro hroom
    have hlen : (bytesOf buf count).length ≤ st.rx.room := by
      rw [length_bytesOf]
      omega
    refine ⟨_, rfl, (bytesOf buf count).map (·, 1), ?_, ?_, ?_⟩
    · rw [List.take_of_length_le hlen] at hchars
      exact hchars
    · have hcount : ((bytesOf buf count).length : ℤ) = count := by
        rw [length_bytesOf]
        omega
      rw [List.length_map, hcount]
    · rw [map_fst_flag]

end Count

theorem pushRx_counted_iff_full :
    (∃ st', (pushRx insertingCore (some ⟨some ⟨⟨[], 1⟩, []⟩⟩) (some fun _ => 7) 3).1 =
        some ⟨some st'⟩ ∧
      Counted (bytesOf (fun _ => 7) 3) ⟨⟨[], 1⟩, []⟩ st'
        (pushRx insertingCore (some ⟨some ⟨⟨[], 1⟩, []⟩⟩) (some fun _ => 7) 3).2) ↔
      (3 : ℤ) ≤ (⟨⟨[], 1⟩, []⟩ : UartState).rx.room :=
  pushRx_counted_iff insertingCore ⟨⟨[], 1⟩, []⟩ (fun _ => 7) 3 (by decide)

/-- Space for one of three bytes: one is placed, three are reported. -/
theorem pushed_into_full_buffer :
    pushRx insertingCore (some ⟨some ⟨⟨[], 1⟩, []⟩⟩) (some fun _ => 7) 3 =
      (some ⟨some ⟨⟨[(7, 1)], 0⟩, []⟩⟩, .ok 3) ∧
    ¬ ∀ (core : UartCore) (st : UartState) (buf : ℕ → UInt8) (count : ℤ), 0 < count →
      ∃ st', (pushRx core (some ⟨some st⟩) (some buf) count).1 = some ⟨some st'⟩ ∧
        Counted (bytesOf buf count) st st' (pushRx core (some ⟨some st⟩) (some buf) count).2 := by
  have hend : pushRx insertingCore (some ⟨some ⟨⟨[], 1⟩, []⟩⟩) (some fun _ => 7) 3 =
      (some ⟨some ⟨⟨[(7, 1)], 0⟩, []⟩⟩, .ok 3) := by rfl
  refine ⟨hend, fun h => ?_⟩
  obtain ⟨st', hst', placed, hplaced, hret, -⟩ :=
    h insertingCore ⟨⟨[], 1⟩, []⟩ (fun _ => 7) 3 (by decide)
  rw [hend] at hst' hret
  cases hst'
  have hone : placed.length = 1 := by
    rw [← show [(7, 1)] = placed from hplaced]
    rfl
  have hthree : (3 : ℤ) = placed.length := Except.ok.inj hret
  omega

end LinuxDriverFramework.NvUart.Chars
