import Mathlib.Tactic
import Mathlib.Data.Multiset.Count
import Mathlib.Algebra.Order.BigOperators.Group.Multiset

/-! Finite maps as multisets of pairs with distinct keys. -/

namespace Turnloop.Lib

variable {K V : Type}

def Keyed (m : Multiset (K × V)) : Prop := (m.map Prod.fst).Nodup

namespace Keyed

variable {m : Multiset (K × V)} {k : K} {v w : V}

lemma cons : Keyed ((k, v) ::ₘ m) ↔ (∀ w, (k, w) ∉ m) ∧ Keyed m := by
  simp [Keyed, Multiset.nodup_cons]

lemma absent (h : Keyed ((k, v) ::ₘ m)) (w : V) : (k, w) ∉ m := (cons.mp h).1 w

lemma tail (h : Keyed ((k, v) ::ₘ m)) : Keyed m := (cons.mp h).2

lemma set (h : Keyed ((k, v) ::ₘ m)) : Keyed ((k, w) ::ₘ m) := cons.mpr (cons.mp h)

lemma unique (h : Keyed m) (hv : (k, v) ∈ m) (hw : (k, w) ∈ m) : v = w := by
  obtain ⟨_, rfl⟩ := Multiset.exists_cons_of_mem hv
  rcases Multiset.mem_cons.mp hw with he | hw
  · exact (Prod.ext_iff.mp he).2.symm
  · exact absurd hw (h.absent w)

lemma ne_of_mem (h : Keyed ((k, v) ::ₘ m)) {k' : K} (hw : (k', w) ∈ m) : k' ≠ k := by
  rintro rfl
  exact h.absent w hw

lemma eq_of_mem (h : Keyed ((k, v) ::ₘ m)) (hw : (k, w) ∈ (k, v) ::ₘ m) : w = v :=
  h.unique hw (Multiset.mem_cons_self _ _)

end Keyed

lemma mem_head {m S : Multiset (K × V)} {k : K} {v : V} (h : m = (k, v) ::ₘ S) : (k, v) ∈ m :=
  h ▸ Multiset.mem_cons_self _ _

lemma mem_rest {m S : Multiset (K × V)} {k k' : K} {v w : V} (h : m = (k, v) ::ₘ S) (hw : (k', w) ∈ S) : (k', w) ∈ m :=
  h ▸ Multiset.mem_cons_of_mem hw

lemma mem_replaced {m : Multiset (K × V)} {k k' : K} {v w : V} (h : (k', v) ∈ (k, w) ::ₘ m) : (k' = k ∧ v = w) ∨
    (k', v) ∈ m := by
  simpa using h

lemma ite_toNat (b : Bool) : (if b = true then 1 else 0) = b.toNat := by cases b <;> rfl

lemma countP_le_one {α : Type} {p : α → Bool} {l : List α} (h : l.Pairwise fun a b => p a = true → ¬p b = true) :
    l.countP p ≤ 1 := by
  induction h with
  | nil => simp
  | @cons a l ha hl ih =>
    rw [List.countP_cons]
    cases hp : p a with
    | false => simpa using ih
    | true =>
      have hn : l.countP p = 0 := List.countP_eq_zero.mpr fun b hb => ha b hb hp
      simp [hn]

lemma countP_set {α : Type} (p : α → Bool) {l : List α} {i : ℕ} {a : α} (hi : l[i]? = some a) (b : α) :
    (l.set i b).countP p + (p a).toNat = l.countP p + (p b).toNat := by
  induction l generalizing i with
  | nil => simp at hi
  | cons c l ih =>
    cases i with
    | zero =>
      obtain rfl : c = a := by simpa using hi
      simp only [List.set_cons_zero, List.countP_cons, ite_toNat]
      omega
    | succ i =>
      have hr := ih (i := i) (by simpa using hi)
      simp only [List.set_cons_succ, List.countP_cons]
      omega

section

variable {α : Type}

def tally (f : α → ℕ) (m : Multiset α) : ℕ := (m.map f).sum

@[simp] lemma tally_cons (f : α → ℕ) (a : α) (m : Multiset α) : tally f (a ::ₘ m) = f a + tally f m := by
  simp [tally]

def total (f : α → ℕ) (l : List α) : ℕ := (l.map f).sum

@[simp] lemma total_nil (f : α → ℕ) : total f [] = 0 := rfl

@[simp] lemma total_cons (f : α → ℕ) (a : α) (l : List α) : total f (a :: l) = f a + total f l := by simp [total]

@[simp] lemma total_append (f : α → ℕ) (l l' : List α) : total f (l ++ l') = total f l + total f l' := by simp [total]

end

end Turnloop.Lib
