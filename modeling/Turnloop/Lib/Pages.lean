import Mathlib.Tactic

/-! Storage split into pages of a fixed size, and its agreement with the flat list of all slots. -/

namespace Turnloop.Lib.Pages

open List

variable {α : Type*} {n : ℕ} {pages : List (List α)}

def lookup (n : ℕ) (pages : List (List α)) (i : ℕ) : Option α :=
  pages[i / n]?.bind (fun page => page[i % n]?)

def write (n : ℕ) (pages : List (List α)) (i : ℕ) (x : α) : List (List α) :=
  pages.modify (i / n) (fun page => page.set (i % n) x)

inductive Regular (n : ℕ) : List (List α) → Prop
  | nil : Regular n []
  | last {page} : page.length ≤ n → Regular n [page]
  | cons {page pages} : page.length = n → pages ≠ [] → Regular n pages → Regular n (page :: pages)

lemma beyond (hn : 0 < n) (hi : ¬i < n) : i / n = (i - n) / n + 1 ∧ i % n = (i - n) % n :=
  ⟨Nat.div_eq_sub_div hn (not_lt.mp hi), Nat.mod_eq_sub_mod (not_lt.mp hi)⟩

lemma lookup_flatten (hn : 0 < n) (h : Regular n pages) (i : ℕ) : lookup n pages i = pages.flatten[i]? := by
  induction h generalizing i with
  | nil => simp [lookup]
  | @last page hp =>
    by_cases hi : i < n
    · simp [lookup, Nat.div_eq_of_lt hi, Nat.mod_eq_of_lt hi]
    · simp [lookup, (beyond hn hi).1, getElem?_eq_none (l := page) (i := i) (by omega)]
  | @cons page pages hp _ _ ih =>
    by_cases hi : i < n
    · simp [lookup, Nat.div_eq_of_lt hi, Nat.mod_eq_of_lt hi, getElem?_append, hp, hi]
    · obtain ⟨hd, hm⟩ := beyond hn hi
      have hs := ih (i - n)
      simp only [lookup] at hs
      simp [lookup, hd, hm, hs, getElem?_append, hp, hi]

lemma write_regular (h : Regular n pages) {i : ℕ} {x : α} : Regular n (write n pages i x) := by
  simp only [write]
  generalize i / n = p
  induction h generalizing p with
  | nil => simpa using Regular.nil
  | last hp => cases p <;> simp only [modify_zero_cons, modify_succ_cons, modify_nil] <;>
      exact .last (by simpa using hp)
  | cons hp hn hr ih =>
    cases p with
    | zero => exact .cons (by simpa using hp) hn hr
    | succ p =>
      rw [modify_succ_cons]
      refine .cons hp ?_ (ih p)
      rwa [← length_pos_iff, length_modify, length_pos_iff]

lemma write_flatten (hn : 0 < n) (h : Regular n pages) (i : ℕ) (x : α) : (write n pages i x).flatten =
    pages.flatten.set i x := by
  induction h generalizing i with
  | nil => simp [write]
  | @last page hp =>
    by_cases hi : i < n
    · simp [write, Nat.div_eq_of_lt hi, Nat.mod_eq_of_lt hi]
    · simp [write, (beyond hn hi).1, set_eq_of_length_le (l := page) (i := i) (by omega)]
  | @cons page pages hp _ _ ih =>
    by_cases hi : i < n
    · simp [write, Nat.div_eq_of_lt hi, Nat.mod_eq_of_lt hi, hp, hi]
    · obtain ⟨hd, hm⟩ := beyond hn hi
      have hs := ih (i - n)
      simp only [write] at hs
      simp [write, hd, hm, hs, set_append, hp, hi]

@[simp] lemma write_length (pages : List (List α)) (i : ℕ) (x : α) : (write n pages i x).length =
    pages.length := by simp [write]

lemma Regular.concat {page : List α} (h : Regular n pages) (hf : pages.flatten.length = pages.length * n)
    (hp : page.length ≤ n) :
    Regular n (pages ++ [page]) := by
  induction h with
  | nil => exact .last hp
  | @last => exact .cons (by simpa using hf) (by simp) (.last hp)
  | @cons q pages hq hn hr ih =>
    refine .cons hq (by simp) (ih ?_)
    simp only [flatten_cons, length_append, length_cons, hq, Nat.add_mul] at hf
    omega

end Turnloop.Lib.Pages
