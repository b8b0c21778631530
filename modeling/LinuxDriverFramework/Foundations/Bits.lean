import Mathlib.Data.Nat.Prime.Basic
import Mathlib.Tactic.Common

/-! # Adding by or-ing

In words of `w` bits, or-ing a number into `x` adds it as long as it stays below the lowest bit set
in `x`. That bit is `x.gcd (2 ^ w)`, which is `2 ^ w` itself for `x = 0`.

* `or_eq_add_of_dvd`: no carry below a power of two that divides `x`.
* `or_gcd`: or-ing the lowest bit adds nothing.
* `or_mod_eq_add_iff`: the numbers below `n` are all added exactly if `n` is at most that bit. -/

namespace Foundations
set_option autoImplicit false

variable {x w : ℕ}

theorem gcd_two_pow (x w : ℕ) : ∃ t ≤ w, x.gcd (2 ^ w) = 2 ^ t :=
  (Nat.dvd_prime_pow Nat.prime_two).mp (Nat.gcd_dvd_right x (2 ^ w))

theorem or_eq_add_of_dvd {t i : ℕ} (h : 2 ^ t ∣ x) (hi : i < 2 ^ t) : x ||| i = x + i := by
  obtain ⟨y, rfl⟩ := h
  exact (Nat.two_pow_add_eq_or_of_lt hi y).symm

/-- A word and the next multiple of its lowest bit are at most the modulus apart. -/
theorem add_gcd_le (hx : x < 2 ^ w) : x + x.gcd (2 ^ w) ≤ 2 ^ w := by
  obtain ⟨y, hy⟩ := Nat.gcd_dvd_left x (2 ^ w)
  obtain ⟨z, hz⟩ := Nat.gcd_dvd_right x (2 ^ w)
  generalize hg : x.gcd (2 ^ w) = g at hy hz
  have hyz : y < z := by
    rw [hy, hz] at hx
    exact Nat.lt_of_mul_lt_mul_left hx
  calc x + g = g * (y + 1) := by rw [hy, Nat.mul_succ]
    _ ≤ g * z := Nat.mul_le_mul_left g hyz
    _ = 2 ^ w := hz.symm

/-- The lowest bit of a word, unless the word is 0, is set. -/
theorem testBit_gcd {t : ℕ} (ht : x.gcd (2 ^ w) = 2 ^ t) (hlt : t < w) : x.testBit t = true := by
  obtain ⟨y, hy⟩ : 2 ^ t ∣ x := ht ▸ Nat.gcd_dvd_left x (2 ^ w)
  have hodd : y % 2 = 1 := by
    by_contra hne
    -- an even quotient would make the next power of two a common divisor
    obtain ⟨z, hz⟩ : 2 ∣ y := by omega
    have hdvd : 2 ^ (t + 1) ∣ x := ⟨z, by rw [hy, hz, Nat.pow_succ, Nat.mul_assoc]⟩
    have hle : 2 ^ (t + 1) ∣ 2 ^ t := ht ▸ Nat.dvd_gcd hdvd (Nat.pow_dvd_pow 2 hlt)
    have hpow := Nat.le_of_dvd (Nat.two_pow_pos t) hle
    rw [Nat.pow_succ] at hpow
    have hpos := Nat.two_pow_pos t
    omega
  rw [hy, Nat.testBit_two_pow_mul]
  simp [Nat.testBit_zero, hodd]

theorem or_gcd (hx : x < 2 ^ w) : (x ||| x.gcd (2 ^ w)) % 2 ^ w = x := by
  obtain ⟨t, htw, ht⟩ := gcd_two_pow x w
  rw [ht]
  obtain hlt | rfl := Nat.lt_or_eq_of_le htw
  · have hset := testBit_gcd ht hlt
    have hor : x ||| 2 ^ t = x := by
      apply Nat.eq_of_testBit_eq
      intro j
      rw [Nat.testBit_or, Nat.testBit_two_pow]
      by_cases hj : t = j
      · rw [← hj, hset, Bool.true_or]
      · rw [decide_eq_false hj, Bool.or_false]
    rw [hor, Nat.mod_eq_of_lt hx]
  · -- only 0 is a multiple of the modulus
    have hzero : x = 0 := Nat.eq_zero_of_dvd_of_lt (ht ▸ Nat.gcd_dvd_left x (2 ^ t)) hx
    rw [hzero, Nat.zero_or, Nat.mod_self]

theorem or_mod_eq_add_iff (hx : x < 2 ^ w) (n : ℕ) :
    (∀ i < n, (x ||| i) % 2 ^ w = x + i) ↔ n ≤ x.gcd (2 ^ w) := by
  obtain ⟨t, -, ht⟩ := gcd_two_pow x w
  constructor
  · intro hall
    by_contra hn
    have hbit := hall (x.gcd (2 ^ w)) (Nat.lt_of_not_le hn)
    rw [or_gcd hx, ht] at hbit
    have hpos := Nat.two_pow_pos t
    omega
  · intro hn i hi
    have hdvd : 2 ^ t ∣ x := ht ▸ Nat.gcd_dvd_left x (2 ^ w)
    have hlt : i < 2 ^ t := ht ▸ hi.trans_le hn
    have hroom := add_gcd_le hx
    rw [or_eq_add_of_dvd hdvd hlt, Nat.mod_eq_of_lt (by omega)]

end Foundations
