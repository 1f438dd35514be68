import Mathlib.Tactic

/-! Histories: lists that grow at their end, and what holds of every entry given what came before it. -/

namespace Turnloop.Lib

open List

variable {α : Type} {P : List α → α → Prop} {log : List α}

def Every (P : List α → α → Prop) (log : List α) : Prop :=
  ∀ (pre : List α) (e : α) (post : List α), log = pre ++ e :: post → P pre e

namespace Every

lemma nil : Every P [] := by
  intro _ e _ h
  simp at h

lemma concat (h : Every P log) {e : α} (he : P log e) : Every P (log ++ [e]) := by
  intro pre x post hp
  rcases eq_nil_or_concat post with rfl | ⟨post', y, rfl⟩
  · obtain ⟨rfl, hx⟩ := append_inj' hp rfl
    obtain rfl := singleton_inj.mp hx
    exact he
  · apply h pre x post'
    rw [concat_eq_append, ← cons_append, ← append_assoc] at hp
    exact (append_inj' hp rfl).1

lemma append (h : Every P log) {es : List α} (he : ∀ pre, log <+: pre → ∀ e ∈ es, P pre e) : Every P (log ++ es) := by
  induction es generalizing log with
  | nil => rwa [append_nil]
  | cons e es ih =>
    rw [append_cons]
    apply ih (h.concat (he log prefix_rfl e mem_cons_self))
    intro pre hp x hx
    exact he pre ((prefix_append log [e]).trans hp) x (mem_cons_of_mem e hx)

end Every

end Turnloop.Lib
