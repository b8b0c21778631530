import LinuxDriverFramework.Foundations.Runs
import LinuxDriverFramework.NvI2c.Demo
import LinuxDriverFramework.NvSpi.Demo

/-! # The cached register and the chip

`reg_store` sets the cached register before it writes to the bus, and leaves it so when that write
fails; `reg_show` reports the cached register. One call at a time, the two agree exactly as long as
no write fails for a new value.

* `Demo`: the two drivers; `Demo.Sends` is all that the proofs need to know of their messages.
* `Attr`: one bound device, and the value of the last successful `reg_store`.
* `Reported`: what `reg_show` promises; `harmless`: the calls that keep the promise. -/

namespace LinuxDriverFramework.RegDemo
open Foundations
set_option autoImplicit false

inductive Demo
  | i2c | spi
  deriving DecidableEq, Repr

namespace Demo

def send : Demo → Send
  | .i2c => NvI2c.demoSend
  | .spi => NvSpi.demoSend

def regShow : Demo → Option BusDev → Code (Except Errno String)
  | .i2c => NvI2c.regShow
  | .spi => NvSpi.regShow

def regStore : Demo → Option BusDev → List UInt8 → ℕ → Code (Except Errno ℕ)
  | .i2c => NvI2c.regStore
  | .spi => NvSpi.regStore

def demoProbe : Demo → BusDev → Code (BusDev × Ret)
  | .i2c => NvI2c.demoProbe
  | .spi => NvSpi.demoProbe

def message : Demo → UInt8 → BusOp
  | .i2c, reg => .smbusWriteByteData NvI2c.demoReg reg
  | .spi, reg => .spiWrite [0x00, reg]

theorem message_value (demo : Demo) (reg : UInt8) : (demo.message reg).value = some reg := by
  cases demo <;> rfl

theorem send_eq (demo : Demo) (priv : Bool) (reg : UInt8) :
    demo.send (some ⟨true, priv⟩) reg = call (.bus (demo.message reg)) := by
  cases demo <;> rfl

theorem regStore_eq (demo : Demo) : demo.regStore = regStoreBody demo.send := by
  cases demo <;> rfl

theorem regShow_eq (demo : Demo) : demo.regShow = regShowBody := by
  cases demo <;> rfl

end Demo

def bound : BusDev := ⟨true, true⟩

/-- The value that `reg_store` makes of a text. -/
def textValue (buf : List UInt8) : Option UInt8 :=
  match kstrtouint buf with
  | .ok val => if 0xff < val then none else some (UInt8.ofNat val)
  | .error _ => none

/-! ## One call -/

theorem regStore_of_none (demo : Demo) {buf : List UInt8} (h : textValue buf = none) (count : ℕ) :
    ∃ e, demo.regStore (some bound) buf count = .done (.error e) := by
  rw [demo.regStore_eq]
  unfold textValue at h
  simp only [regStoreBody, hasPriv, bound, Option.any_some, Bool.not_true, Bool.false_eq_true,
    if_false]
  cases hk : kstrtouint buf with
  | error e => exact ⟨e, rfl⟩
  | ok val =>
    simp only [hk] at h
    split at h
    · rename_i hbig
      exact ⟨.EINVAL, by simp only [if_pos hbig]; rfl⟩
    · cases h

theorem regStore_of_some (demo : Demo) {buf : List UInt8} {v : UInt8} (h : textValue buf = some v)
    (count : ℕ) : demo.regStore (some bound) buf count =
      .call (.setReg v) fun _ => .call .readReg fun reg =>
        .call (.bus (demo.message reg)) (storeResult count) := by
  rw [demo.regStore_eq]
  unfold textValue at h
  simp only [regStoreBody, hasPriv, bound, Option.any_some, Bool.not_true, Bool.false_eq_true,
    if_false]
  cases hk : kstrtouint buf with
  | error e =>
    simp only [hk] at h
    cases h
  | ok val =>
    simp only [hk] at h
    split at h
    · cases h
    · rename_i hsmall
      obtain rfl := Option.some.inj h
      simp only [if_neg hsmall, storeSend, demo.send_eq]
      rfl

structure Attr where
  dev : BusDev
  data : Data
  /-- the value of the last `reg_store` that returned a count, 0 if there was none -/
  last : UInt8
  deriving DecidableEq, Repr

/-- One call of `reg_store`, and how the bus write in it ends. -/
structure Store where
  buf : List UInt8
  count : ℕ
  fails : Option Errno

/-- A device after a probe whose first write succeeded. -/
def probed (demo : Demo) (before : Data) : Attr :=
  let r := (demo.demoProbe ⟨true, false⟩).exec (perform none) before
  ⟨r.2.1, r.1, 0⟩

def Attr.store (demo : Demo) (s : Attr) (c : Store) : Data × Except Errno ℕ :=
  (demo.regStore (some s.dev) c.buf c.count).exec (perform c.fails) s.data

def Attr.shown (demo : Demo) (s : Attr) : Except Errno String :=
  ((demo.regShow (some s.dev)).exec (perform none) s.data).2

def step (demo : Demo) (s : Attr) (c : Store) : Option Attr :=
  let r := s.store demo c
  some { s with
    data := r.1
    last := match r.2, textValue c.buf with
      | .ok _, some v => v
      | _, _ => s.last }

theorem store_of_none (demo : Demo) {s : Attr} (hs : s.dev = bound) {c : Store}
    (h : textValue c.buf = none) : ∃ e, s.store demo c = (s.data, .error e) := by
  obtain ⟨e, he⟩ := regStore_of_none demo h c.count
  exact ⟨e, by rw [Attr.store, hs, he, Program.exec]⟩

theorem store_of_some (demo : Demo) {s : Attr} (hs : s.dev = bound) {c : Store} {v : UInt8}
    (h : textValue c.buf = some v) : s.store demo c =
      match c.fails with
      | some e => ({ s.data with reg := v }, .error e)
      | none => (⟨v, v⟩, .ok c.count) := by
  rw [Attr.store, hs, regStore_of_some demo h]
  simp only [Program.exec, perform]
  cases c.fails with
  | some e => rfl
  | none =>
    simp only [demo.message_value, Option.getD_some]
    rfl

theorem shown_eq (demo : Demo) {s : Attr} (hs : s.dev = bound) :
    s.shown demo = .ok (formatReg s.data.reg) := by
  rw [Attr.shown, hs, demo.regShow_eq]
  rfl

/-! ## Runs -/

/-- `reg_show` reports the value of the last `reg_store` that returned success, and the chip has
that value. -/
structure Reported (demo : Demo) (s : Attr) : Prop where
  shown : s.shown demo = .ok (formatReg s.last)
  chip : s.data.chip = s.last

/-- The bus write succeeds, or sends what the register had before, or there is none. -/
def harmless (s : Attr) (c : Store) : Bool :=
  c.fails.isNone || (textValue c.buf).all (· == s.data.reg)

structure Agree (s : Attr) : Prop where
  dev : s.dev = bound
  reg : s.data.reg = s.last
  chip : s.data.chip = s.last

theorem probed_agree (demo : Demo) (before : Data) : Agree (probed demo before) := by
  have hprobed : probed demo before = ⟨bound, ⟨0, 0⟩, 0⟩ := by
    cases demo <;> rfl
  rw [hprobed]
  exact ⟨rfl, rfl, rfl⟩

theorem Agree.reported {s : Attr} (h : Agree s) (demo : Demo) : Reported demo s where
  shown := by rw [shown_eq demo h.dev, h.reg]
  chip := h.chip

theorem step_agree (demo : Demo) {s s' : Attr} {c : Store} (h : Agree s) (hc : harmless s c = true)
    (hs : step demo s c = some s') : Agree s' := by
  obtain rfl := Option.some.inj hs
  cases hv : textValue c.buf with
  | none =>
    obtain ⟨e, he⟩ := store_of_none demo h.dev hv
    simp only [he]
    exact h
  | some v =>
    simp only [store_of_some demo h.dev hv]
    cases hf : c.fails with
    | none => exact ⟨h.dev, rfl, rfl⟩
    | some e =>
      have hsame : v = s.data.reg := by simpa [harmless, hf, hv] using hc
      exact ⟨h.dev, hsame.trans h.reg, h.chip⟩

/-- A failed write leaves the new value in the register. -/
theorem not_reported_of_harmful (demo : Demo) {s : Attr} {c : Store} (h : Agree s)
    (hc : harmless s c ≠ true) : ∃ s', step demo s c = some s' ∧ ¬ Reported demo s' := by
  refine ⟨_, rfl, fun hr => hc ?_⟩
  have hshown := hr.shown
  unfold harmless
  cases hv : textValue c.buf with
  | none => simp
  | some v =>
    rw [shown_eq demo (by exact h.dev)] at hshown
    simp only [store_of_some demo h.dev hv, hv] at hshown
    cases hf : c.fails with
    | none => simp
    | some e =>
      simp only [hf] at hshown
      have hlast := formatReg_injective (Except.ok.inj hshown)
      simpa [hlast] using h.reg.symm

/-- The promise holds throughout a run exactly if no write fails for a value that differs from the
one before. -/
theorem reg_reported_iff (demo : Demo) (before : Data) (stores : List Store) :
    Throughout (step demo) (Reported demo) (probed demo before) stores ↔
      Along (step demo) (fun s c => harmless s c = true) (probed demo before) stores :=
  throughout_iff_along (I := Agree) (D := fun _ _ => True) (fun _ h => h.reported demo)
    (fun _ _ _ h _ hc hs => step_agree demo h hc hs)
    (fun _ _ h _ hc => not_reported_of_harmful demo h hc) stores _ (probed_agree demo before)
    (along_true stores _)

/-- `"7"` on a bus that does not answer. -/
def storeSeven : Store := ⟨[55], 1, some (.kernel 6)⟩

/-- The call returns an error, and 7 is what `reg_show` reports from then on; the chip has 0. -/
theorem failed_store_shows :
    (∃ s, run (step .i2c) (probed .i2c ⟨0, 0⟩) [storeSeven] = some s ∧
      ((probed .i2c ⟨0, 0⟩).store .i2c storeSeven).2 = .error (.kernel 6) ∧
      (probed .i2c ⟨0, 0⟩).shown .i2c = .ok (formatReg 0) ∧ s.shown .i2c = .ok (formatReg 7) ∧
      s.data.chip = 0 ∧ ¬ Reported .i2c s) ∧
    ∃ s, run (step .spi) (probed .spi ⟨0, 0⟩) [storeSeven] = some s ∧
      ((probed .spi ⟨0, 0⟩).store .spi storeSeven).2 = .error (.kernel 6) ∧
      (probed .spi ⟨0, 0⟩).shown .spi = .ok (formatReg 0) ∧ s.shown .spi = .ok (formatReg 7) ∧
      s.data.chip = 0 ∧ ¬ Reported .spi s := by
  have hne : formatReg 7 ≠ formatReg 0 := by decide
  exact ⟨⟨_, rfl, rfl, rfl, rfl, rfl, fun h => hne (Except.ok.inj h.shown)⟩,
    _, rfl, rfl, rfl, rfl, rfl, fun h => hne (Except.ok.inj h.shown)⟩

end LinuxDriverFramework.RegDemo
