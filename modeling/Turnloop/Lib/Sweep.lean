import Mathlib.Tactic
import Turnloop.Lib.Bag

/-! Growable arrays whose elements are taken out while they are walked over. -/

namespace Turnloop.Lib

open List

variable {α : Type} {p : α → Bool} {l : List α} {i : ℕ}

def swapRemove (l : List α) (i : ℕ) : List α :=
  match l.getLast? with
  | none => []
  | some last => (l.set i last).dropLast

lemma length_swapRemove (l : List α) (i : ℕ) : (swapRemove l i).length = l.length - 1 := by
  unfold swapRemove
  cases h : l.getLast? with
  | none => simp [getLast?_eq_none_iff.mp h]
  | some => simp

lemma swapRemove_perm (h : i < l.length) : (l[i] :: swapRemove l i).Perm l := by
  have hn : l ≠ [] := ne_nil_of_length_pos (by omega)
  have hl := getLast?_eq_some_getLast hn
  have hr : (swapRemove l i).Perm (l.eraseIdx i) := by
    rw [swapRemove, hl]
    exact Multiset.coe_eq_coe.mp (coe_dropLast_set hl h)
  exact (hr.cons _).trans (getElem_cons_eraseIdx_perm h)

lemma getElem_swapRemove {j : ℕ} (hj : j < i) (hi : i < l.length) : (swapRemove l i)[j]? = l[j]? := by
  have hn : l ≠ [] := ne_nil_of_length_pos (by omega)
  rw [swapRemove, getLast?_eq_some_getLast hn, getElem?_dropLast, getElem?_set_ne (by omega),
    if_pos (by rw [length_set]; omega)]

/-- From position `i` on, every element with the property is taken out; its place is looked at again. -/
def sweep (p : α → Bool) (l : List α) (i : ℕ) : List α × List α :=
  if h : i < l.length then
    if p l[i] then ((sweep p (swapRemove l i) i).1, l[i] :: (sweep p (swapRemove l i) i).2)
    else sweep p l (i + 1)
  else (l, [])
termination_by l.length - i
decreasing_by
  all_goals try rw [length_swapRemove]
  all_goals omega

structure Swept (p : α → Bool) (l kept gone : List α) : Prop where
  perm : (kept ++ gone).Perm l
  kept : ∀ x ∈ kept, p x = false
  gone : ∀ x ∈ gone, p x = true

lemma sweep_swept (p : α → Bool) {l : List α} {i : ℕ} (h : ∀ j x, j < i → l[j]? = some x → p x = false) :
    Swept p l (sweep p l i).1 (sweep p l i).2 := by
  induction l, i using sweep.induct p with
  | case1 l i hi hp ih =>
    have ih := ih fun j x hj hx => h j x hj (getElem_swapRemove hj hi ▸ hx)
    rw [sweep, dif_pos hi, if_pos hp]
    refine ⟨?_, ih.kept, ?_⟩
    · exact perm_middle.trans ((ih.perm.cons _).trans (swapRemove_perm hi))
    · intro x hx
      rcases mem_cons.mp hx with rfl | hx
      · exact hp
      · exact ih.gone x hx
  | case2 l i hi hp ih =>
    rw [sweep, dif_pos hi, if_neg hp]
    refine ih fun j x hj hx => ?_
    rcases Nat.lt_succ_iff_lt_or_eq.mp hj with hj | rfl
    · exact h j x hj hx
    · rw [getElem?_eq_getElem hi, Option.some.injEq] at hx
      exact hx ▸ Bool.eq_false_iff.mpr hp
  | case3 l i hi =>
    rw [sweep, dif_neg hi]
    refine ⟨by simp, fun x hx => ?_, by simp⟩
    obtain ⟨j, hj, rfl⟩ := getElem_of_mem (show x ∈ l from hx)
    exact h j l[j] (by omega) (getElem?_eq_getElem hj)

lemma sweep_zero (p : α → Bool) (l : List α) : Swept p l (sweep p l 0).1 (sweep p l 0).2 :=
  sweep_swept p fun _ _ hj => absurd hj (Nat.not_lt_zero _)

def rposition (p : α → Bool) (l : List α) : Option ℕ :=
  (l.reverse.findIdx? p).map fun i => l.length - 1 - i

lemma rposition_none (h : rposition p l = none) : ∀ x ∈ l, p x = false := by
  intro x hx
  have hi := findIdx?_eq_none_iff.mp (Option.map_eq_none_iff.mp h)
  exact hi x (mem_reverse.mpr hx)

lemma rposition_some (h : rposition p l = some i) : ∃ hi : i < l.length, p l[i] = true := by
  obtain ⟨j, hj, rfl⟩ := Option.map_eq_some_iff.mp h
  obtain ⟨hl, hp, -⟩ := findIdx?_eq_some_iff_getElem.mp hj
  rw [length_reverse] at hl
  refine ⟨by omega, ?_⟩
  rwa [getElem_reverse] at hp

end Turnloop.Lib
