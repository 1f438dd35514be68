import Mathlib.Data.Multiset.Basic
import Mathlib.Data.List.Perm.Basic
import Mathlib.Tactic

/-! Lists that are updated in place, as multisets. -/

namespace Turnloop.Lib

open List Multiset

variable {α β : Type} {l : List α} {i : ℕ}

lemma coe_map_eq_cons (g : α → β) (h : i < l.length) : ((l.map g : List β) : Multiset β) =
    g l[i] ::ₘ ((l.eraseIdx i).map g : List β) := by
  rw [Multiset.cons_coe, ← List.map_cons, Multiset.coe_eq_coe]
  exact ((List.getElem_cons_eraseIdx_perm h).map g).symm

lemma coe_map_set (g : α → β) (h : i < l.length) {a : α} :
    (((l.set i a).map g : List β) : Multiset β) = g a ::ₘ ((l.eraseIdx i).map g : List β) := by
  rw [Multiset.cons_coe, ← List.map_cons, Multiset.coe_eq_coe]
  exact (List.set_perm_cons_eraseIdx h a).map g

lemma coe_map_modify (g : α → β) (f : α → α) (h : i < l.length) :
    (((l.modify i f).map g : List β) : Multiset β) = g (f l[i]) ::ₘ ((l.eraseIdx i).map g : List β) := by
  rw [modify_eq_set_getElem?, getElem?_eq_getElem h]
  exact coe_map_set g h

lemma map_modify_same (g : α → β) (f : α → α) (h : ∀ a, l[i]? = some a → g (f a) = g a) :
    (l.modify i f).map g = l.map g := by
  apply ext_getElem?
  intro j
  rw [getElem?_map, getElem?_map, getElem?_modify]
  rcases eq_or_ne i j with rfl | hi
  · cases ha : l[i]? with
    | none => rfl
    | some a => simp [h a ha]
  · simp [hi]

lemma coe_filterMap_set {a : α} (g : α → Option β) (h : l[i]? = some a) (b : α) :
    (((l.set i b).filterMap g : List β) : Multiset β) + ((g a).toList : Multiset β) =
      ((l.filterMap g : List β) : Multiset β) + ((g b).toList : Multiset β) := by
  obtain ⟨hi, rfl⟩ := List.getElem?_eq_some_iff.mp h
  have ho : (l.filterMap g).Perm ((g l[i]).toList ++ (l.eraseIdx i).filterMap g) := by
    refine ((getElem_cons_eraseIdx_perm hi).symm.filterMap g).trans ?_
    cases hg : g l[i] <;> simp [hg]
  have hn : ((l.set i b).filterMap g).Perm ((g b).toList ++ (l.eraseIdx i).filterMap g) := by
    refine ((set_perm_cons_eraseIdx hi b).filterMap g).trans ?_
    cases hg : g b <;> simp [hg]
  rw [coe_eq_coe.mpr ho, coe_eq_coe.mpr hn, ← coe_add, ← coe_add]
  abel

lemma coe_dropLast_set {last : α} (hl : l.getLast? = some last) (h : i < l.length) :
    (((l.set i last).dropLast : List α) : Multiset α) = (l.eraseIdx i : List α) := by
  obtain ⟨init, rfl⟩ := getLast?_eq_some_iff.mp hl
  rw [coe_eq_coe]
  rw [length_append, length_singleton] at h
  rcases Nat.lt_or_ge i init.length with hi | hi
  · rw [set_append_left i last hi, dropLast_concat, eraseIdx_append_of_lt_length hi]
    exact (set_perm_cons_eraseIdx hi last).trans (perm_append_singleton last _).symm
  · obtain rfl : i = init.length := by omega
    rw [set_append_right _ _ le_rfl, eraseIdx_append_of_length_le le_rfl]
    simp

end Turnloop.Lib
