import LinuxDriverFramework.Kernel.Base

/-! # Numbers as text

What sysfs attributes read and print: `kstrtouint` with base 0 on the bytes of a C string, which
ends at its first zero byte or with the list, and the format `"0x%02x\n"`. -/

namespace LinuxDriverFramework
set_option autoImplicit false

def erange : Errno := .kernel 34

/-- `_tolower`, which only makes sense on letters. -/
def toLower (c : UInt8) : UInt8 := c ||| 0x20

/-- The value of a digit, in bases up to 16. -/
def digitValue (c : UInt8) : Option ℕ :=
  if 48 ≤ c.toNat ∧ c.toNat ≤ 57 then some (c.toNat - 48)
  else if 97 ≤ (toLower c).toNat ∧ (toLower c).toNat ≤ 102 then some ((toLower c).toNat - 97 + 10)
  else none

/-- `_parse_integer_fixup_radix` for base 0: the base, and what is left to read. -/
def fixupRadix : List UInt8 → ℕ × List UInt8
  | 48 :: x :: d :: s =>
    if toLower x = 120 ∧ (digitValue d).isSome then (16, d :: s) else (8, 48 :: x :: d :: s)
  | 48 :: s => (8, 48 :: s)
  | s => (10, s)

/-- `_parse_integer`: the value of the digits in front, added to `acc`, and their number. -/
def parseInteger (base : ℕ) : ℕ → List UInt8 → ℕ × ℕ
  | acc, [] => (acc, 0)
  | acc, c :: s =>
    match digitValue c with
    | some v =>
      if v < base then
        let r := parseInteger base (acc * base + v) s
        (r.1, r.2 + 1)
      else (acc, 0)
    | none => (acc, 0)

/-- The end of the string, after one newline at most. -/
def atEnd : List UInt8 → Bool
  | [] => true
  | c :: s => c == 0 || c == 10 && (s.isEmpty || s.head? == some 0)

/-- `kstrtoull(s, 0, ..)`. -/
def kstrtoull (s : List UInt8) : Except Errno ℕ :=
  let (base, s) := fixupRadix (if s.head? = some 43 then s.tail else s)
  let (val, n) := parseInteger base 0 s
  if 2 ^ 64 ≤ val then .error erange
  else if n = 0 then .error .EINVAL
  else if atEnd (s.drop n) then .ok val
  else .error .EINVAL

/-- `kstrtouint(s, 0, ..)`. -/
def kstrtouint (s : List UInt8) : Except Errno ℕ :=
  match kstrtoull s with
  | .error e => .error e
  | .ok val => if val < 2 ^ 32 then .ok val else .error erange

/-- The text of `"0x%02x\n"`. -/
def formatReg (val : UInt8) : String :=
  String.ofList ['0', 'x', Nat.digitChar (val.toNat / 16), Nat.digitChar (val.toNat % 16), '\n']

theorem digitChar_injective : ∀ a b : Fin 16, Nat.digitChar a = Nat.digitChar b → a = b := by decide

theorem formatReg_injective {v v' : UInt8} (h : formatReg v = formatReg v') : v = v' := by
  have hv := v.toNat_lt
  have hv' := v'.toNat_lt
  have hl := String.ofList_injective h
  simp only [List.cons.injEq, and_true, true_and] at hl
  obtain ⟨hhi, hlo⟩ := hl
  have h₁ := digitChar_injective ⟨v.toNat / 16, by omega⟩ ⟨v'.toNat / 16, by omega⟩ hhi
  have h₂ := digitChar_injective ⟨v.toNat % 16, by omega⟩ ⟨v'.toNat % 16, by omega⟩ hlo
  simp only [Fin.mk.injEq] at h₁ h₂
  apply UInt8.toNat_inj.mp
  omega

/-- `"0x2a\n"`, `"052"` and `"42 "`. -/
example : kstrtouint [48, 120, 50, 97, 10] = .ok 42 ∧ kstrtouint [48, 53, 50] = .ok 42 ∧
    kstrtouint [52, 50, 32] = .error .EINVAL := by decide

end LinuxDriverFramework
