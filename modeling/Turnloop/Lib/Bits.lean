import Mathlib.Data.Nat.Bitwise
import Mathlib.Tactic

/-! Words of bits, the most significant bit first, and the trees that bits lead through. -/

namespace Turnloop.Lib

open List

def bits : ℕ → ℕ → List Bool
  | 0, _ => []
  | w + 1, n => n.testBit w :: bits w n

variable {a b w n m : ℕ}

@[simp] lemma length_bits (w n : ℕ) : (bits w n).length = w := by
  induction w with
  | zero => rfl
  | succ w ih => rw [bits, length_cons, ih]

lemma bits_congr (h : ∀ i < w, n.testBit i = m.testBit i) : bits w n = bits w m := by
  induction w with
  | zero => rfl
  | succ w ih => rw [bits, bits, h w (Nat.lt_succ_self w), ih fun i hi => h i (Nat.lt_succ_of_lt hi)]

lemma testBit_of_bits (h : bits w n = bits w m) {i : ℕ} (hi : i < w) : n.testBit i = m.testBit i := by
  induction w with
  | zero => cases hi
  | succ w ih =>
    obtain ⟨hp, hr⟩ := cons.inj h
    rcases Nat.lt_succ_iff_lt_or_eq.mp hi with hi | rfl
    · exact ih hr hi
    · exact hp

lemma bits_inj (hn : n < 2 ^ w) (hm : m < 2 ^ w) (h : bits w n = bits w m) : n = m := by
  apply Nat.eq_of_testBit_eq
  intro i
  by_cases hi : i < w
  · exact testBit_of_bits h hi
  · have hp : 2 ^ w ≤ 2 ^ i := Nat.pow_le_pow_right (by norm_num) (not_lt.mp hi)
    rw [Nat.testBit_lt_two_pow (hn.trans_le hp), Nat.testBit_lt_two_pow (hm.trans_le hp)]

lemma bits_add (a b n : ℕ) : bits (a + b) n = bits a (n / 2 ^ b) ++ bits b n := by
  induction a with
  | zero => rw [Nat.zero_add]; rfl
  | succ a ih => rw [Nat.succ_add, bits, ih, bits, cons_append, Nat.testBit_div_two_pow, Nat.add_comm a b]

lemma bits_mod (h : w ≤ b) : bits w (n % 2 ^ b) = bits w n := by
  refine bits_congr fun i hi => ?_
  rw [Nat.testBit_mod_two_pow, decide_eq_true (hi.trans_le h), Bool.true_and]

lemma bits_append (hm : m < 2 ^ b) : bits (a + b) (n * 2 ^ b + m) = bits a n ++ bits b m := by
  have hd : (n * 2 ^ b + m) / 2 ^ b = n := by
    rw [Nat.mul_comm, Nat.mul_add_div (Nat.two_pow_pos b), Nat.div_eq_of_lt hm, Nat.add_zero]
  have ho : (n * 2 ^ b + m) % 2 ^ b = m := by
    rw [Nat.mul_comm, Nat.mul_add_mod, Nat.mod_eq_of_lt hm]
  rw [bits_add, hd, ← bits_mod (n := n * 2 ^ b + m) (Nat.le_refl b), ho]

lemma bits_ones (w : ℕ) : bits w (2 ^ w - 1) = List.replicate w true := by
  induction w with
  | zero => rfl
  | succ w ih =>
    have hl : bits w (2 ^ (w + 1) - 1) = bits w (2 ^ w - 1) := by
      refine bits_congr fun i hi => ?_
      rw [Nat.testBit_two_pow_sub_one, Nat.testBit_two_pow_sub_one, decide_eq_true hi,
        decide_eq_true (Nat.lt_succ_of_lt hi)]
    rw [bits, hl, ih, Nat.testBit_two_pow_sub_one, decide_eq_true (Nat.lt_succ_self w), replicate_succ]

inductive Trie (α : Type) where
  | nil
  | node (symbol : Option α) (zero one : Trie α)

namespace Trie

variable {α : Type}

def insert (s : α) : List Bool → Trie α → Trie α
  | [], .nil => .node (some s) .nil .nil
  | [], .node _ zero one => .node (some s) zero one
  | false :: bs, .nil => .node none (insert s bs .nil) .nil
  | true :: bs, .nil => .node none .nil (insert s bs .nil)
  | false :: bs, .node x zero one => .node x (insert s bs zero) one
  | true :: bs, .node x zero one => .node x zero (insert s bs one)

def child : Trie α → Bool → Trie α
  | .nil, _ => .nil
  | .node _ zero _, false => zero
  | .node _ _ one, true => one

def spells : List Bool → Trie α → Option α
  | _, .nil => none
  | [], .node x _ _ => x
  | false :: bs, .node none zero _ => spells bs zero
  | true :: bs, .node none _ one => spells bs one
  | _ :: _, .node (some _) _ _ => none

lemma spells_cons {b : Bool} {bs : List Bool} {t : Trie α} {s : α} (h : t.spells (b :: bs) = some s) :
    ∃ zero one, t = .node none zero one ∧ (t.child b).spells bs = some s := by
  cases t with
  | nil => cases h
  | node x zero one =>
    cases x with
    | some => cases b <;> cases h
    | none => cases b <;> exact ⟨zero, one, rfl, h⟩

lemma spells_nil {t : Trie α} {s : α} (h : t.spells [] = some s) : ∃ zero one, t = .node (some s) zero one := by
  cases t with
  | nil => cases h
  | node x zero one =>
    obtain rfl : x = some s := h
    exact ⟨zero, one, rfl⟩

lemma spells_insert {s x : α} {bs q : List Bool} {t : Trie α} (h : (t.insert s bs).spells q = some x) :
    q = bs ∧ x = s ∨ t.spells q = some x := by
  induction bs generalizing t q with
  | nil =>
    cases q with
    | nil => cases t <;> exact .inl ⟨rfl, (Option.some.inj h).symm⟩
    | cons b => cases t <;> cases b <;> cases h
  | cons b bs ih =>
    -- a tree that is not there yet is one without symbols
    have hn : ∀ zero one, ((node none zero one).insert s (b :: bs)).spells q = some x →
        q = b :: bs ∧ x = s ∨ (node none zero one).spells q = some x := by
      intro zero one h
      cases q with
      | nil => cases b <;> cases h
      | cons c =>
        cases b <;> cases c
        · exact (ih h).imp_left fun ⟨hq, hx⟩ => ⟨congrArg _ hq, hx⟩
        · exact .inr h
        · exact .inr h
        · exact (ih h).imp_left fun ⟨hq, hx⟩ => ⟨congrArg _ hq, hx⟩
    cases t with
    | nil =>
      have hl : (node none nil nil).spells q = (nil : Trie α).spells q := by
        cases q with
        | nil => rfl
        | cons c => cases c <;> simp only [spells]
      rw [← hl]
      exact hn nil nil (by cases b <;> exact h)
    | node y zero one =>
      cases y with
      | none => exact hn zero one h
      | some =>
        cases q with
        | nil => cases b <;> exact .inr h
        | cons c => cases b <;> cases c <;> cases h

end Trie

end Turnloop.Lib
