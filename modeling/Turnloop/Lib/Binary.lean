import Mathlib.Algebra.CharP.Two
import Mathlib.Algebra.Polynomial.Div
import Mathlib.Data.ZMod.Basic
import Mathlib.Data.Nat.Bitwise
import Mathlib.Tactic

/-! Numbers as polynomials over the field of two elements. -/

namespace Turnloop.Lib

open Polynomial

/-- The polynomial whose coefficients are the binary digits of a number. -/
noncomputable def binary (n : ℕ) : (ZMod 2)[X] := Nat.ofDigits X (Nat.digits 2 n)

variable {n k : ℕ}

@[simp] lemma binary_zero : binary 0 = 0 := by
  rw [binary, Nat.digits_zero]
  rfl

lemma binary_bit (b : Bool) (n : ℕ) : binary (Nat.bit b n) = (b.toNat : (ZMod 2)[X]) + X * binary n := by
  have hb : Nat.bit b n = b.toNat + 2 * n := by
    cases b <;> simp [Nat.bit, Nat.add_comm]
  by_cases hz : b.toNat ≠ 0 ∨ n ≠ 0
  · rw [binary, hb, Nat.digits_add 2 (by norm_num) _ _ (by cases b <;> decide) hz]
    rfl
  · push Not at hz
    rw [hb, hz.1, hz.2]
    simp

lemma binary_xor (m n : ℕ) : binary (m ^^^ n) = binary m + binary n := by
  induction m using Nat.binaryRec generalizing n with
  | zero => simp
  | bit b m ih =>
    obtain ⟨c, n, rfl⟩ : ∃ c n', n = Nat.bit c n' := ⟨n.bodd, n.div2, (Nat.bit_bodd_div2 n).symm⟩
    have hd : ((b != c).toNat : (ZMod 2)[X]) = b.toNat + c.toNat := by
      cases b <;> cases c <;> simp [one_add_one_eq_two, CharTwo.two_eq_zero]
    rw [Nat.xor_bit, binary_bit, binary_bit, binary_bit, ih, hd]
    ring

lemma binary_double (n : ℕ) : binary (2 * n) = X * binary n := by
  have h := binary_bit false n
  simpa [Nat.bit] using h

lemma binary_mul_two_pow (n k : ℕ) : binary (n * 2 ^ k) = binary n * X ^ k := by
  induction k with
  | zero => simp
  | succ k ih =>
    rw [pow_succ, ← mul_assoc, mul_comm _ 2, binary_double, ih]
    ring

lemma binary_one : binary 1 = 1 := by simpa [Nat.bit] using binary_bit true 0

lemma binary_two_pow (k : ℕ) : binary (2 ^ k) = X ^ k := by
  have h := binary_mul_two_pow 1 k
  rwa [one_mul, binary_one, one_mul] at h

lemma binary_two_pow_add (h : n < 2 ^ k) : binary (2 ^ k + n) = X ^ k + binary n := by
  induction k generalizing n with
  | zero =>
    obtain rfl : n = 0 := by simpa using h
    simpa using binary_one
  | succ k ih =>
    obtain ⟨b, n, rfl⟩ : ∃ b n', n = Nat.bit b n' := ⟨n.bodd, n.div2, (Nat.bit_bodd_div2 n).symm⟩
    have hl : n < 2 ^ k := by
      cases b <;> simp only [Nat.bit, cond] at h <;> omega
    have hu : 2 ^ (k + 1) + Nat.bit b n = Nat.bit b (2 ^ k + n) := by
      cases b <;> simp only [Nat.bit, cond] <;> omega
    rw [hu, binary_bit, binary_bit, ih hl]
    ring

lemma degree_binary_lt (h : n < 2 ^ k) : (binary n).degree < k := by
  induction k generalizing n with
  | zero =>
    obtain rfl : n = 0 := by simpa using h
    simp
  | succ k ih =>
    obtain ⟨b, n, rfl⟩ : ∃ b n', n = Nat.bit b n' := ⟨n.bodd, n.div2, (Nat.bit_bodd_div2 n).symm⟩
    have hl : n < 2 ^ k := by
      cases b <;> simp only [Nat.bit, cond] at h <;> omega
    have hc := (degree_lt_iff_coeff_zero _ _).mp (ih hl)
    refine (degree_lt_iff_coeff_zero _ _).mpr fun i hi => ?_
    obtain ⟨i, rfl⟩ : ∃ j, i = j + 1 := ⟨i - 1, by omega⟩
    rw [binary_bit, coeff_add, coeff_X_mul, hc i (by omega), add_zero, coeff_natCast_ite,
      if_neg (by omega), Nat.cast_zero]

end Turnloop.Lib
