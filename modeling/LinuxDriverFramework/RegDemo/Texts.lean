import LinuxDriverFramework.Kernel.Notation
import LinuxDriverFramework.RegDemo.Cache

/-! # The texts of the register attribute

`reg_store` takes the texts that write a number up to 255 in a notation of C, and no others; what
`reg_show` prints is one of them and stores the same value.

* `textValue_iff`: the text and the value of one call.
* `TextsServed`, `texts_served`. -/

namespace LinuxDriverFramework.RegDemo
open Foundations
set_option autoImplicit false

theorem textValue_iff (buf : List UInt8) (v : UInt8) :
    textValue buf = some v ↔ Writes buf v.toNat := by
  have hv := v.toNat_lt
  constructor
  · intro h
    unfold textValue at h
    split at h
    · rename_i val hval
      split at h
      · cases h
      · rename_i hsmall
        obtain rfl := Option.some.inj h
        have hmod : (UInt8.ofNat val).toNat = val := by
          rw [UInt8.toNat_ofNat']
          omega
        rw [hmod]
        exact ((kstrtouint_iff buf val).mp hval).1
    · cases h
  · intro h
    have hok : kstrtouint buf = .ok v.toNat := (kstrtouint_iff buf _).mpr ⟨h, by omega⟩
    have hsmall : ¬ 0xff < v.toNat := by omega
    simp only [textValue, hok, if_neg hsmall, UInt8.ofNat_toNat]

theorem textValue_none {buf : List UInt8} (h : ∀ v : UInt8, ¬ Writes buf v.toNat) :
    textValue buf = none := by
  cases hv : textValue buf with
  | none => rfl
  | some v => exact absurd ((textValue_iff buf v).mp hv) (h v)

/-- What the attribute of a bound device does with texts. -/
structure TextsServed (demo : Demo) (s : Attr) : Prop where
  accepted : ∀ (c : Store) (v : UInt8), Writes c.buf v.toNat →
    (s.store demo c).1.reg = v ∧
      (s.store demo c).2 = match c.fails with
        | some e => .error e
        | none => .ok c.count
  refused : ∀ c : Store, (∀ v : UInt8, ¬ Writes c.buf v.toNat) →
    ∃ e, s.store demo c = (s.data, .error e)
  /-- the test programs write `"0x%x\n"`, and every value has a text -/
  written : ∀ (v : UInt8) (count : ℕ) (fails : Option Errno),
    (s.store demo ⟨hexText v.toNat, count, fails⟩).1.reg = v
  /-- the text that is shown can be stored, and changes nothing in the register -/
  shown : ∃ text, s.shown demo = .ok text ∧ Writes (textBytes text) s.data.reg.toNat ∧
    ∀ count, s.store demo ⟨textBytes text, count, none⟩ =
      (⟨s.data.reg, s.data.reg⟩, .ok count)

theorem store_writes (demo : Demo) {s : Attr} (hs : s.dev = bound) (c : Store) {v : UInt8}
    (h : Writes c.buf v.toNat) : s.store demo c =
      match c.fails with
      | some e => ({ s.data with reg := v }, .error e)
      | none => (⟨v, v⟩, .ok c.count) :=
  store_of_some demo hs ((textValue_iff c.buf v).mpr h)

theorem store_writes_reg (demo : Demo) {s : Attr} (hs : s.dev = bound) (c : Store) {v : UInt8}
    (h : Writes c.buf v.toNat) : (s.store demo c).1.reg = v := by
  rw [store_writes demo hs c h]
  cases c.fails <;> rfl

theorem served_of_bound (demo : Demo) {s : Attr} (hs : s.dev = bound) : TextsServed demo s where
  accepted c v h := by
    refine ⟨store_writes_reg demo hs c h, ?_⟩
    rw [store_writes demo hs c h]
    cases c.fails <;> rfl
  refused c h := store_of_none demo hs (textValue_none h)
  written v count fails := store_writes_reg demo hs _ (writes_hexText v.toNat)
  shown := by
    refine ⟨_, shown_eq demo hs, writes_formatReg s.data.reg, fun count => ?_⟩
    exact store_writes demo hs ⟨_, count, none⟩ (writes_formatReg s.data.reg)

theorem step_dev (demo : Demo) {s s' : Attr} {c : Store} (h : step demo s c = some s') :
    s'.dev = s.dev := by
  obtain rfl := Option.some.inj h
  rfl

/-- Throughout every run of stores, whatever their texts and however the bus behaves. -/
theorem texts_served (demo : Demo) (before : Data) (stores : List Store) :
    Throughout (step demo) (TextsServed demo) (probed demo before) stores :=
  throughout_of_along (I := fun s => s.dev = bound) (fun _ hs => served_of_bound demo hs)
    (fun _ _ _ hs _ hstep => (step_dev demo hstep).trans hs) stores _ (probed_agree demo before).dev
    (along_true stores _)

end LinuxDriverFramework.RegDemo
