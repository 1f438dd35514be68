import Mathlib.Tactic

/-! The Adler-32 checksum, in 32-bit words. -/

namespace Turnloop.Mongodb

open List

def BASE : ℕ := 65521

/-- The sum of two words, where it is a word. -/
def checkedAdd (a b : ℕ) : Option ℕ := if a + b < 2 ^ 32 then some (a + b) else none

def adlerByte (s : ℕ × ℕ) (byte : UInt8) : Option (ℕ × ℕ) := do
  let low ← checkedAdd s.1 byte.toNat
  let high ← checkedAdd s.2 low
  pure (low, high)

def adlerChunks (s : ℕ × ℕ) (input : List UInt8) : Option (ℕ × ℕ) :=
  if input = [] then some s
  else do
    let (low, high) ← (input.take 5552).foldlM adlerByte s
    adlerChunks (low % BASE, high % BASE) (input.drop 5552)
termination_by input.length
decreasing_by
  have := length_pos_iff.mpr ‹_›
  rw [length_drop]
  omega

def adler32 (input : List UInt8) : Option ℕ := do
  let (low, high) ← adlerChunks (1, 0) input
  pure ((high <<< 16) % 2 ^ 32 ||| low)

/-- The two sums without reduction. -/
def sums (s : ℕ × ℕ) (byte : UInt8) : ℕ × ℕ := (s.1 + byte.toNat, s.2 + (s.1 + byte.toNat))

/-- A run of bytes is short enough if its second sum, at its largest, is a word. -/
lemma foldlM_adlerByte (chunk : List UInt8)
    (h : 2 * s.2 + 2 * (chunk.length * s.1) + 255 * (chunk.length * (chunk.length + 1)) < 2 ^ 33) :
    chunk.foldlM adlerByte s = some (chunk.foldl sums s) := by
  induction chunk generalizing s with
  | nil => rfl
  | cons b chunk ih =>
    have hb : b.toNat ≤ 255 := Nat.le_of_lt_succ b.toNat_lt
    have hm := Nat.mul_le_mul_left chunk.length hb
    have hp := Nat.zero_le (chunk.length * s.1)
    rw [length_cons] at h
    have hy : adlerByte s b = some (sums s b) := by
      rw [adlerByte, checkedAdd, if_pos (by nlinarith), Option.bind_eq_bind, Option.bind_some, checkedAdd,
        if_pos (by nlinarith)]
      rfl
    rw [foldlM_cons, hy]
    refine ih ?_
    simp only [sums]
    nlinarith

lemma foldl_sums_mod (input : List UInt8) (h₁ : s.1 ≡ t.1 [MOD BASE]) (h₂ : s.2 ≡ t.2 [MOD BASE]) :
    (input.foldl sums s).1 ≡ (input.foldl sums t).1 [MOD BASE] ∧ (input.foldl sums s).2 ≡ (input.foldl sums t).2
    [MOD BASE] := by
  induction input generalizing s t with
  | nil => exact ⟨h₁, h₂⟩
  | cons b input ih => exact ih (h₁.add_right _) (h₂.add (h₁.add_right _))

lemma adlerChunks_sums {input : List UInt8} (h₁ : s.1 < BASE) (h₂ : s.2 < BASE) :
    adlerChunks s input = some ((input.foldl sums s).1 % BASE, (input.foldl sums s).2 % BASE) := by
  induction s, input using adlerChunks.induct with
  | case1 s =>
    rw [adlerChunks, if_pos rfl]
    simp [Nat.mod_eq_of_lt, h₁, h₂]
  | case2 s input hn ih =>
    have hp : 0 < BASE := by decide
    have hb : (input.take 5552).length ≤ 5552 := length_take_le ..
    have ho : (input.take 5552).length * s.1 ≤ 5552 * 65520 := Nat.mul_le_mul hb (Nat.le_of_lt_succ h₁)
    have hi : (input.take 5552).length * ((input.take 5552).length + 1) ≤ 5552 * 5553 :=
      Nat.mul_le_mul hb (Nat.succ_le_succ hb)
    have hs : s.2 < 65521 := h₂
    have hr := foldlM_adlerByte (s := s) (input.take 5552) (by omega)
    rw [adlerChunks, if_neg hn, hr]
    change adlerChunks _ _ = _
    rw [ih _ _ (Nat.mod_lt _ hp) (Nat.mod_lt _ hp)]
    obtain ⟨hl, hh⟩ := foldl_sums_mod
      (s := (((input.take 5552).foldl sums s).1 % BASE, ((input.take 5552).foldl sums s).2 % BASE))
      (t := (input.take 5552).foldl sums s) (input.drop 5552) (Nat.mod_modEq ..) (Nat.mod_modEq ..)
    rw [← foldl_append, take_append_drop] at hl hh
    rw [hl, hh]

/-- The first sum after `n` bytes. -/
def lowAfter (input : List UInt8) (n : ℕ) : ℕ := (1 + ((input.take n).map UInt8.toNat).sum) % BASE

def highOf (input : List UInt8) : ℕ := (∑ i ∈ Finset.range input.length, lowAfter input (i + 1)) % BASE

lemma foldl_sums (input : List UInt8) : input.foldl sums (1, 0) =
    (1 + (input.map UInt8.toNat).sum, ∑ i ∈
      Finset.range input.length, (1 + ((input.take (i + 1)).map UInt8.toNat).sum)) := by
  induction input using reverseRecOn with
  | nil => rfl
  | append_singleton input b ih =>
    have he : ∑ i ∈ Finset.range input.length, (1 + (((input ++ [b]).take (i + 1)).map UInt8.toNat).sum) =
        ∑ i ∈ Finset.range input.length, (1 + ((input.take (i + 1)).map UInt8.toNat).sum) :=
      Finset.sum_congr rfl fun i hi => by rw [take_append_of_le_length (Finset.mem_range.mp hi)]
    rw [foldl_append, ih, length_append, length_singleton, Finset.sum_range_succ, he]
    simp [sums, add_assoc]

theorem adler32_exact (input : List UInt8) :
    adler32 input = some (highOf input * 65536 + lowAfter input input.length) := by
  have hl : lowAfter input input.length < 2 ^ 16 := (Nat.mod_lt _ (by decide)).trans (by decide)
  have hh : highOf input < 2 ^ 16 := (Nat.mod_lt _ (by decide)).trans (by decide)
  have hr : adlerChunks (1, 0) input = some (lowAfter input input.length, highOf input) := by
    rw [adlerChunks_sums (by decide) (by decide), foldl_sums, lowAfter, take_length, highOf, Finset.sum_nat_mod]
    rfl
  have hw : (highOf input <<< 16) % 2 ^ 32 = 2 ^ 16 * highOf input := by
    rw [Nat.shiftLeft_eq, Nat.mod_eq_of_lt (by omega), Nat.mul_comm]
  rw [adler32, hr]
  change some ((highOf input <<< 16) % 2 ^ 32 ||| lowAfter input input.length) = _
  rw [hw, ← Nat.two_pow_add_eq_or_of_lt hl, Nat.mul_comm]

end Turnloop.Mongodb
