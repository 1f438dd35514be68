import Mathlib.Data.Nat.Digits.Lemmas
import Mathlib.Tactic

/-! Numerals: the digits of a number, the most significant first. -/

namespace Turnloop.Lib

open List

def numeral (b n : ℕ) : List ℕ := if n = 0 then [0] else (Nat.digits b n).reverse

def numeralValue (b : ℕ) (ds : List ℕ) : ℕ := ds.foldl (fun v d => v * b + d) 0

variable {b n : ℕ}

lemma numeral_ne_nil (b n : ℕ) : numeral b n ≠ [] := by
  unfold numeral
  split_ifs with h
  · simp
  · rw [ne_eq, reverse_eq_nil_iff]
    exact Nat.digits_ne_nil_iff_ne_zero.mpr h

lemma numeral_lt (hb : 1 < b) {d : ℕ} (hd : d ∈ numeral b n) : d < b := by
  unfold numeral at hd
  split_ifs at hd with h
  · obtain rfl := mem_singleton.mp hd
    omega
  · exact Nat.digits_lt_base hb (mem_reverse.mp hd)

lemma numeralValue_reverse (b : ℕ) (ds : List ℕ) : numeralValue b ds.reverse = Nat.ofDigits b ds := by
  rw [Nat.ofDigits_eq_foldr, numeralValue, foldl_reverse]
  congr 1
  funext d v
  rw [Nat.cast_id]
  ring

lemma numeralValue_numeral (b n : ℕ) : numeralValue b (numeral b n) = n := by
  unfold numeral
  split_ifs with h
  · rw [h]
    simp [numeralValue]
  · rw [numeralValue_reverse, Nat.ofDigits_digits]

end Turnloop.Lib
