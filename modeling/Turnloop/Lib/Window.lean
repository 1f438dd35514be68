import Mathlib.Tactic

/-! The first place in a list where a word stands. -/

namespace Turnloop.Lib

open List Option

variable {α : Type} [DecidableEq α] {w x y : List α} {n m : ℕ}

def position (w : List α) : List α → Option ℕ
  | [] => none
  | a :: x => if w <+: a :: x then some 0 else (position w x).map (· + 1)

lemma position_some (h : position w x = some n) : w <+: x.drop n ∧ n < x.length := by
  induction x generalizing n with
  | nil => cases h
  | cons a x ih =>
    rw [position] at h
    split_ifs at h with hw
    · cases h
      exact ⟨hw, Nat.succ_pos _⟩
    · obtain ⟨k, hk, rfl⟩ := map_eq_some_iff.mp h
      obtain ⟨hd, hl⟩ := ih hk
      exact ⟨hd, Nat.succ_lt_succ hl⟩

lemma position_le (h : position w x = some n) : n + w.length ≤ x.length := by
  obtain ⟨hw, _⟩ := position_some h
  have := hw.length_le
  rw [length_drop] at this
  omega

lemma position_append (h : position w x = some n) {y : List α} : position w (x ++ y) = some n := by
  induction x generalizing n with
  | nil => cases h
  | cons a x ih =>
    rw [position] at h
    rw [cons_append, position]
    split_ifs at h with hw
    · cases h
      exact if_pos (hw.trans ⟨y, rfl⟩)
    · obtain ⟨k, hk, rfl⟩ := map_eq_some_iff.mp h
      have hl : w.length ≤ (a :: x).length := by
        have := position_le hk
        simp only [length_cons]
        omega
      have hw' : ¬ w <+: a :: (x ++ y) := fun hg =>
        hw (prefix_of_prefix_length_le hg ⟨y, rfl⟩ hl)
      rw [if_neg hw', ih hk, map_some]

lemma position_beyond (h : position w x = none) (h' : position w (x ++ y) = some n) (hw : w ≠ []) :
    x.length < n + w.length := by
  induction x generalizing n with
  | nil => exact Nat.lt_add_left n (length_pos_of_ne_nil hw)
  | cons a x ih =>
    rw [position] at h
    rw [cons_append, position] at h'
    split_ifs at h with hx
    split_ifs at h' with hy
    · cases h'
      by_contra hle
      rw [Nat.zero_add, not_lt] at hle
      exact hx (prefix_of_prefix_length_le hy ⟨y, rfl⟩ hle)
    · obtain ⟨k, hk, rfl⟩ := map_eq_some_iff.mp h'
      have := ih (map_eq_none_iff.mp h) hk
      simp only [length_cons]
      omega

lemma position_skip {a : α} (h : a ∉ y) (w x : List α) :
    position (a :: w) (y ++ x) = (position (a :: w) x).map (· + y.length) := by
  induction y with
  | nil => simp
  | cons b y ih =>
    have hb : ¬ a :: w <+: b :: (y ++ x) := by
      rintro ⟨z, hz⟩
      exact h (mem_cons.mpr (.inl (cons.inj hz).1))
    rw [List.cons_append, position, if_neg hb, ih fun hm => h (List.mem_cons_of_mem b hm), Option.map_map]
    rfl

lemma position_here (w x : List α) (hw : w ≠ []) : position w (w ++ x) = some 0 := by
  cases w with
  | nil => exact absurd rfl hw
  | cons => exact if_pos ⟨x, rfl⟩

end Turnloop.Lib
