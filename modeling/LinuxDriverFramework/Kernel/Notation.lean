import LinuxDriverFramework.Kernel.Text
import Mathlib.Data.List.TakeWhile
import Mathlib.Data.Nat.Digits.Defs
import Mathlib.Tactic.Ring

/-! # What `kstrtouint` accepts

The grammar of the texts that `kstrtouint` with base 0 takes for a number, and that they are the
only ones.

* `isDigit`, `numeral`: digits of a base and the number that they write.
* `Notation`: the three notations of C.
* `Writes`, `kstrtouint_iff`.
* `hexText`: what the format `"0x%x\n"` prints; `kstrtouint` reads it back. -/

namespace LinuxDriverFramework
set_option autoImplicit false

/-! ## Digits -/

def isDigit (base : ℕ) (c : UInt8) : Bool := (digitValue c).any fun v => decide (v < base)

def digit (c : UInt8) : ℕ := (digitValue c).getD 0

/-- The number that the digits write, the most significant one first. -/
def numeral (base : ℕ) (ds : List UInt8) : ℕ := Nat.ofDigits base (ds.map digit).reverse

theorem numeral_cons (base : ℕ) (c : UInt8) (ds : List UInt8) :
    numeral base (c :: ds) = digit c * base ^ ds.length + numeral base ds := by
  rw [numeral, List.map_cons, List.reverse_cons, Nat.ofDigits_append, Nat.ofDigits_singleton,
    List.length_reverse, List.length_map, numeral]
  ring

theorem isDigit_iff {base : ℕ} {c : UInt8} :
    isDigit base c = true ↔ ∃ v, digitValue c = some v ∧ v < base := by
  cases h : digitValue c <;> simp [isDigit, h]

/-- The loop takes the digits in front. -/
theorem parseInteger_eq (base acc : ℕ) (s : List UInt8) :
    parseInteger base acc s =
      let ds := s.takeWhile (isDigit base)
      (acc * base ^ ds.length + numeral base ds, ds.length) := by
  induction s generalizing acc with
  | nil => simp [parseInteger, numeral]
  | cons c s ih =>
    cases hc : digitValue c with
    | none =>
      have hnot : isDigit base c = false := by simp [isDigit, hc]
      simp [parseInteger, hc, hnot, numeral]
    | some v =>
      by_cases hv : v < base
      · have hdigit : isDigit base c = true := isDigit_iff.mpr ⟨v, hc, hv⟩
        have hvalue : digit c = v := by rw [digit, hc, Option.getD_some]
        simp only [parseInteger, hc, if_pos hv, ih, List.takeWhile_cons, hdigit, if_true,
          List.length_cons, numeral_cons, hvalue, Prod.mk.injEq, and_true]
        ring
      · have hnot : isDigit base c = false := by simp [isDigit, hc, hv]
        simp [parseInteger, hc, hv, hnot, numeral]

theorem digitValue_lt {c : UInt8} {v : ℕ} (h : digitValue c = some v) : v < 16 := by
  unfold digitValue at h
  split at h
  · obtain rfl := Option.some.inj h
    omega
  · split at h
    · obtain rfl := Option.some.inj h
      omega
    · cases h

theorem isDigit_sixteen {c : UInt8} (h : (digitValue c).isSome) : isDigit 16 c = true := by
  obtain ⟨v, hv⟩ := Option.isSome_iff_exists.mp h
  exact isDigit_iff.mpr ⟨v, hv, digitValue_lt hv⟩

/-- Neither `x` nor `X` is an octal digit. -/
theorem not_x_of_octal {c : UInt8} (h : isDigit 8 c = true) : toLower c ≠ 120 := by
  have hall : ∀ i : Fin 256, isDigit 8 (UInt8.ofNat i.val) = true →
      toLower (UInt8.ofNat i.val) ≠ 120 := by decide +kernel
  have hc := hall ⟨c.toNat, c.toNat_lt⟩
  rw [UInt8.ofNat_toNat] at hc
  exact hc h

/-! ## Notations -/

inductive Notation : List UInt8 → ℕ → Prop
  | hex (x : UInt8) (ds : List UInt8) (hx : toLower x = 120) (hne : ds ≠ [])
      (hds : ∀ c ∈ ds, isDigit 16 c = true) : Notation (48 :: x :: ds) (numeral 16 ds)
  | octal (ds : List UInt8) (hds : ∀ c ∈ ds, isDigit 8 c = true) :
      Notation (48 :: ds) (numeral 8 (48 :: ds))
  | decimal (c : UInt8) (ds : List UInt8) (hc : c ≠ 48) (hds : ∀ d ∈ c :: ds, isDigit 10 d = true) :
      Notation (c :: ds) (numeral 10 (c :: ds))

/-- A plus sign or none, a number, and then the end of the string or a newline before it. -/
def Writes (s : List UInt8) (n : ℕ) : Prop :=
  ∃ sign body tail, (sign = [] ∨ sign = [43]) ∧ Notation body n ∧ atEnd tail = true ∧
    s = sign ++ (body ++ tail)

/-- The text without its sign. -/
def unsigned (s : List UInt8) : List UInt8 := if s.head? = some 43 then s.tail else s

theorem kstrtouint_ok_iff {s : List UInt8} {n : ℕ} :
    kstrtouint s = .ok n ↔
      let r := fixupRadix (unsigned s)
      let ds := r.2.takeWhile (isDigit r.1)
      n = numeral r.1 ds ∧ n < 2 ^ 32 ∧ ds ≠ [] ∧ atEnd (r.2.drop ds.length) = true := by
  generalize hr : fixupRadix (unsigned s) = r
  obtain ⟨base, rest⟩ := r
  have hvalue : kstrtoull s =
      if 2 ^ 64 ≤ numeral base (rest.takeWhile (isDigit base)) then .error erange
      else if (rest.takeWhile (isDigit base)).length = 0 then .error .EINVAL
      else if atEnd (rest.drop (rest.takeWhile (isDigit base)).length) then
        .ok (numeral base (rest.takeWhile (isDigit base)))
      else .error .EINVAL := by
    unfold unsigned at hr
    simp only [kstrtoull, hr, parseInteger_eq, Nat.zero_mul, Nat.zero_add]
  simp only [kstrtouint, hvalue]
  generalize rest.takeWhile (isDigit base) = ds
  constructor
  · intro h
    split at h
    · cases h
    · rename_i val hval
      split at h
      · rename_i hlt
        obtain rfl := Except.ok.inj h
        split at hval
        · cases hval
        · split at hval
          · cases hval
          · split at hval
            · rename_i hne hend
              obtain rfl := Except.ok.inj hval
              exact ⟨rfl, hlt, fun hnil => hne (by rw [hnil]; rfl), hend⟩
            · cases hval
      · cases h
  · rintro ⟨rfl, hlt, hne, hend⟩
    have hsmall : ¬ 2 ^ 64 ≤ numeral base ds := by omega
    have hlen : ¬ ds.length = 0 := fun h => hne (List.length_eq_zero_iff.mp h)
    simp only [if_neg hsmall, if_neg hlen, hend, if_true, if_pos hlt]

/-! ## The radix -/

theorem fixupRadix_cases (s : List UInt8) :
    (∃ x d rest, s = 48 :: x :: d :: rest ∧ toLower x = 120 ∧ isDigit 16 d = true ∧
      fixupRadix s = (16, d :: rest)) ∨
    (∃ rest, s = 48 :: rest ∧ fixupRadix s = (8, s)) ∨
    (s.head? ≠ some 48 ∧ fixupRadix s = (10, s)) := by
  unfold fixupRadix
  split
  · rename_i x d rest
    split
    · rename_i h
      exact .inl ⟨x, d, rest, rfl, h.1, isDigit_sixteen h.2, rfl⟩
    · exact .inr (.inl ⟨x :: d :: rest, rfl, rfl⟩)
  · rename_i rest _
    exact .inr (.inl ⟨rest, rfl, rfl⟩)
  · rename_i h₁ h₂
    refine .inr (.inr ⟨fun hhead => ?_, rfl⟩)
    cases s with
    | nil => cases hhead
    | cons c rest =>
      obtain rfl := Option.some.inj hhead
      exact h₂ rest rfl

theorem fixupRadix_octal {rest : List UInt8} (h : ∀ x ∈ rest.head?, toLower x ≠ 120) :
    fixupRadix (48 :: rest) = (8, 48 :: rest) := by
  rcases fixupRadix_cases (48 :: rest) with ⟨x, d, rest', hs, hx, -, -⟩ | ⟨rest', -, heq⟩ | ⟨hne, -⟩
  · obtain ⟨-, rfl⟩ := List.cons.inj hs
    exact absurd hx (h x rfl)
  · exact heq
  · exact absurd rfl hne

theorem fixupRadix_decimal {s : List UInt8} (h : s.head? ≠ some 48) : fixupRadix s = (10, s) := by
  rcases fixupRadix_cases s with ⟨x, d, rest, rfl, -⟩ | ⟨rest, rfl, -⟩ | ⟨-, heq⟩
  · exact absurd rfl h
  · exact absurd rfl h
  · exact heq

theorem fixupRadix_hex {x d : UInt8} {rest : List UInt8} (hx : toLower x = 120)
    (hd : isDigit 16 d = true) : fixupRadix (48 :: x :: d :: rest) = (16, d :: rest) := by
  obtain ⟨v, hv, -⟩ := isDigit_iff.mp hd
  have hsome : (digitValue d).isSome := by rw [hv]; rfl
  simp only [fixupRadix, hx, hsome, and_self, if_true]

/-! ## Both directions -/

/-- The end of a string is no digit. -/
theorem atEnd_head {tail : List UInt8} (h : atEnd tail = true) :
    ∀ c ∈ tail.head?, c = 0 ∨ c = 10 := by
  intro c hc
  cases tail with
  | nil => cases hc
  | cons d tail =>
    obtain rfl := Option.some.inj hc
    simp only [atEnd, Bool.or_eq_true, beq_iff_eq, Bool.and_eq_true] at h
    exact h.imp_right fun h => h.1

theorem takeWhile_digits {base : ℕ} {ds tail : List UInt8} (hds : ∀ c ∈ ds, isDigit base c = true)
    (htail : atEnd tail = true) : (ds ++ tail).takeWhile (isDigit base) = ds := by
  have hnone : tail.takeWhile (isDigit base) = [] := by
    cases tail with
    | nil => rfl
    | cons d tail =>
      have hnot : isDigit base d = false := by
        rcases atEnd_head htail d rfl with rfl | rfl <;> rfl
      rw [List.takeWhile_cons_of_neg]
      simp [hnot]
  rw [List.takeWhile_append_of_pos hds, hnone, List.append_nil]

theorem unsigned_append {sign body : List UInt8} {n : ℕ} (tail : List UInt8)
    (hsign : sign = [] ∨ sign = [43]) (hbody : Notation body n) :
    unsigned (sign ++ (body ++ tail)) = body ++ tail := by
  rcases hsign with rfl | rfl
  · have hhead : (body ++ tail).head? ≠ some 43 := by
      cases hbody with
      | hex x ds hx hne hds => exact fun h => by cases h
      | octal ds hds => exact fun h => by cases h
      | decimal c ds hc hds =>
        intro h
        obtain rfl := Option.some.inj h
        cases hds 43 List.mem_cons_self
    rw [List.nil_append, unsigned, if_neg hhead]
  · rfl

theorem kstrtouint_writes {s : List UInt8} {n : ℕ} (h : Writes s n) (hn : n < 2 ^ 32) :
    kstrtouint s = .ok n := by
  obtain ⟨sign, body, tail, hsign, hbody, htail, rfl⟩ := h
  rw [kstrtouint_ok_iff, unsigned_append tail hsign hbody]
  cases hbody with
  | hex x ds hx hne hds =>
    obtain ⟨d, ds, rfl⟩ := List.exists_cons_of_ne_nil hne
    have hradix : fixupRadix (48 :: x :: d :: ds ++ tail) = (16, d :: ds ++ tail) :=
      fixupRadix_hex hx (hds d List.mem_cons_self)
    simp only [hradix, takeWhile_digits hds htail, List.drop_left]
    exact ⟨trivial, hn, hne, htail⟩
  | octal ds hds =>
    have hzero : ∀ c ∈ 48 :: ds, isDigit 8 c = true := List.forall_mem_cons.mpr ⟨rfl, hds⟩
    have hradix : fixupRadix (48 :: ds ++ tail) = (8, 48 :: ds ++ tail) := by
      refine fixupRadix_octal fun x hx => ?_
      cases ds with
      | nil => rcases atEnd_head htail x hx with rfl | rfl <;> decide
      | cons d ds =>
        obtain rfl := Option.some.inj hx
        exact not_x_of_octal (hds d List.mem_cons_self)
    simp only [hradix, takeWhile_digits hzero htail, List.drop_left]
    exact ⟨trivial, hn, List.cons_ne_nil _ _, htail⟩
  | decimal c ds hc hds =>
    have hradix : fixupRadix (c :: ds ++ tail) = (10, c :: ds ++ tail) :=
      fixupRadix_decimal fun h => hc (Option.some.inj h)
    simp only [hradix, takeWhile_digits hds htail, List.drop_left]
    exact ⟨trivial, hn, List.cons_ne_nil _ _, htail⟩

theorem sign_unsigned (s : List UInt8) :
    ∃ sign, (sign = [] ∨ sign = [43]) ∧ s = sign ++ unsigned s := by
  by_cases h : s.head? = some 43
  · refine ⟨[43], .inr rfl, ?_⟩
    rw [unsigned, if_pos h]
    cases s with
    | nil => cases h
    | cons c s =>
      obtain rfl := Option.some.inj h
      rfl
  · refine ⟨[], .inl rfl, ?_⟩
    rw [unsigned, if_neg h]
    rfl

theorem takeWhile_append_drop (p : UInt8 → Bool) (l : List UInt8) :
    l.takeWhile p ++ l.drop (l.takeWhile p).length = l := by
  have htake := List.prefix_iff_eq_take.mp (List.takeWhile_prefix p (l := l))
  have hsplit := List.take_append_drop (l.takeWhile p).length l
  rw [← htake] at hsplit
  exact hsplit

theorem writes_kstrtouint {s : List UInt8} {n : ℕ} (h : kstrtouint s = .ok n) : Writes s n := by
  rw [kstrtouint_ok_iff] at h
  obtain ⟨sign, hsign, hs⟩ := sign_unsigned s
  suffices hbody : ∃ body tail, Notation body n ∧ atEnd tail = true ∧ unsigned s = body ++ tail by
    obtain ⟨body, tail, hbody, htail, heq⟩ := hbody
    exact ⟨sign, body, tail, hsign, hbody, htail, by rw [← heq, ← hs]⟩
  rcases fixupRadix_cases (unsigned s) with ⟨x, d, rest, hu, hx, hd, hradix⟩ | ⟨rest, hu, hradix⟩ |
    ⟨hhead, hradix⟩
  · simp only [hradix] at h
    obtain ⟨rfl, -, hne, hend⟩ := h
    refine ⟨48 :: x :: (d :: rest).takeWhile (isDigit 16), _,
      .hex x _ hx hne fun c hc => List.mem_takeWhile_imp hc, hend, ?_⟩
    rw [hu, List.cons_append, List.cons_append, takeWhile_append_drop]
  · simp only [hradix] at h
    obtain ⟨rfl, -, hne, hend⟩ := h
    have htake : (unsigned s).takeWhile (isDigit 8) = 48 :: rest.takeWhile (isDigit 8) := by
      rw [hu, List.takeWhile_cons_of_pos rfl]
    refine ⟨(unsigned s).takeWhile (isDigit 8), _, ?_, hend, (takeWhile_append_drop _ _).symm⟩
    rw [htake]
    exact .octal _ fun c hc => List.mem_takeWhile_imp hc
  · simp only [hradix] at h
    obtain ⟨rfl, -, hne, hend⟩ := h
    refine ⟨(unsigned s).takeWhile (isDigit 10), _, ?_, hend, (takeWhile_append_drop _ _).symm⟩
    cases hu : unsigned s with
    | nil =>
      rw [hu] at hne
      exact absurd rfl hne
    | cons c rest =>
      rw [hu] at hne hhead
      have hc : isDigit 10 c = true := by
        by_contra hc
        exact hne (List.takeWhile_cons_of_neg hc)
      rw [List.takeWhile_cons_of_pos hc]
      refine .decimal c _ (fun h48 => hhead (by rw [h48]; rfl)) ?_
      exact List.forall_mem_cons.mpr ⟨hc, fun c hc => List.mem_takeWhile_imp hc⟩

/-- The texts that are accepted, with their numbers. -/
theorem kstrtouint_iff (s : List UInt8) (n : ℕ) :
    kstrtouint s = .ok n ↔ Writes s n ∧ n < 2 ^ 32 :=
  ⟨fun h => ⟨writes_kstrtouint h, (kstrtouint_ok_iff.mp h).2.1⟩, fun h => kstrtouint_writes h.1 h.2⟩

/-! ## What the drivers and their tests print -/

/-- The character of a digit up to 15, lower case. -/
def hexChar (d : ℕ) : UInt8 := UInt8.ofNat (Nat.digitChar d).toNat

/-- The text of `"0x%x\n"`. -/
def hexText (n : ℕ) : List UInt8 :=
  48 :: 120 :: ((if n = 0 then [0] else Nat.digits 16 n).map hexChar).reverse ++ [10]

theorem digitValue_hexChar {d : ℕ} (h : d < 16) : digitValue (hexChar d) = some d := by
  have hall : ∀ i : Fin 16, digitValue (hexChar i.val) = some i.val := by decide
  exact hall ⟨d, h⟩

theorem numeral_hexChars {l : List ℕ} (h : ∀ d ∈ l, d < 16) :
    (∀ c ∈ (l.map hexChar).reverse, isDigit 16 c = true) ∧
      numeral 16 (l.map hexChar).reverse = Nat.ofDigits 16 l := by
  constructor
  · intro c hc
    obtain ⟨d, hd, rfl⟩ := List.mem_map.mp (List.mem_reverse.mp hc)
    exact isDigit_iff.mpr ⟨d, digitValue_hexChar (h d hd), h d hd⟩
  · have hvalues : (l.map hexChar).map digit = l := by
      rw [List.map_map]
      refine (List.map_congr_left fun d hd => ?_).trans (List.map_id l)
      exact congrArg (·.getD 0) (digitValue_hexChar (h d hd))
    rw [numeral, List.map_reverse, List.reverse_reverse, hvalues]

/-- Digits behind `0x`, and a newline. -/
theorem writes_hexChars {l : List ℕ} (hne : l ≠ []) (h : ∀ d ∈ l, d < 16) :
    Writes (48 :: 120 :: (l.map hexChar).reverse ++ [10]) (Nat.ofDigits 16 l) := by
  obtain ⟨hdigits, hvalue⟩ := numeral_hexChars h
  have hne' : (l.map hexChar).reverse ≠ [] := by simpa using hne
  rw [← hvalue]
  exact ⟨[], _, [10], .inl rfl, .hex 120 _ rfl hne' hdigits, rfl, rfl⟩

theorem writes_hexText (n : ℕ) : Writes (hexText n) n := by
  by_cases hn : n = 0
  · subst hn
    exact writes_hexChars (l := [0]) (List.cons_ne_nil _ _) (by decide)
  · have hdigits := writes_hexChars (Nat.digits_ne_nil_iff_ne_zero.mpr hn)
      fun d hd => Nat.digits_lt_base (by decide) hd
    rw [Nat.ofDigits_digits] at hdigits
    rw [hexText, if_neg hn]
    exact hdigits

/-- The bytes of a text of ASCII characters. -/
def textBytes (text : String) : List UInt8 := text.toList.map fun c => UInt8.ofNat c.toNat

theorem writes_formatReg (v : UInt8) : Writes (textBytes (formatReg v)) v.toNat := by
  have hv := v.toNat_lt
  have hdigits := writes_hexChars (l := [v.toNat % 16, v.toNat / 16]) (List.cons_ne_nil _ _)
    (by
      intro d hd
      simp only [List.mem_cons, List.not_mem_nil, or_false] at hd
      omega)
  have hvalue : Nat.ofDigits 16 [v.toNat % 16, v.toNat / 16] = v.toNat := by
    rw [Nat.ofDigits_cons, Nat.ofDigits_singleton]
    exact Nat.mod_add_div v.toNat 16
  rw [hvalue] at hdigits
  have hbytes : textBytes (formatReg v) =
      48 :: 120 :: ([v.toNat % 16, v.toNat / 16].map hexChar).reverse ++ [10] := by
    rw [textBytes, formatReg, String.toList_ofList]
    rfl
  rw [hbytes]
  exact hdigits

end LinuxDriverFramework
