import Turnloop.Table.Definitions

/-! The invariant of the table, and what each operation does to the flat list of its slots. -/

namespace Turnloop.Table

open Lib List

variable {T : Type} {t : Table T} {s : Slot T} {i g : ℕ}

lemma generationOf_le (k : Key) : generationOf k ≤ lastGeneration := by
  have hk := k.toNat_lt
  simp only [generationOf, lastGeneration]
  omega

lemma index_lt (k : Key) : index k < 2 ^ 32 := Nat.mod_lt _ (by decide)

lemma pack_toNat (hg : g ≤ lastGeneration) (hi : i < 2 ^ 32) : (pack g i).toNat = g * 2 ^ 32 + i := by
  simp only [lastGeneration] at hg
  rw [pack, UInt64.toNat_ofNat', ← Nat.shiftLeft_add_eq_or_of_lt hi, Nat.shiftLeft_eq]
  omega

lemma index_pack (hg : g ≤ lastGeneration) (hi : i < 2 ^ 32) : index (pack g i) = i := by
  rw [index, pack_toNat hg hi]
  omega

lemma generationOf_pack (hg : g ≤ lastGeneration) (hi : i < 2 ^ 32) : generationOf (pack g i) = g := by
  rw [generationOf, pack_toNat hg hi]
  omega

@[simp] lemma pack_unpack (k : Key) : pack (generationOf k) (index k) = k := by
  apply UInt64.toNat_inj.mp
  rw [pack_toNat (generationOf_le k) (index_lt k), generationOf, index]
  omega

def slots (t : Table T) : List (Slot T) := t.pages.flatten

structure Shaped (t : Table T) : Prop where
  regular : Pages.Regular PAGE t.pages
  built : t.slots.length = min (t.pages.length * PAGE) t.ceiling
  nodup : t.free.Nodup
  vacant : ∀ i ∈ t.free, ∃ s : Slot T, t.slots[i]? = some s ∧ s.value = none
  bounded : ∀ (i : ℕ) (s : Slot T), t.slots[i]? = some s → s.generation ≤ lastGeneration
  balance : t.live + t.free.length = t.slots.length
  retired : ∀ (i : ℕ) (s : Slot T), t.slots[i]? = some s → s.value = none → i ∉ t.free → s.generation = lastGeneration

structure Valid (t : Table T) : Prop extends Shaped t where
  small : t.ceiling ≤ 2 ^ 32

namespace Shaped

lemma slot_eq (h : Shaped t) (i : ℕ) : t.slot i = t.slots[i]? :=
  Pages.lookup_flatten (by decide) h.regular i

lemma slot_lt (h : Shaped t) (hs : t.slots[i]? = some s) : i < t.ceiling := by
  have hi := (List.getElem?_eq_some_iff.mp hs).1
  have hb := h.built
  omega

lemma live_le (h : Shaped t) : t.live ≤ t.ceiling := by
  have hb := h.built
  have hl := h.balance
  omega

lemma occupied_not_free (h : Shaped t) (hs : t.slots[i]? = some s) (hv : s.value ≠ none) : i ∉ t.free := by
  intro hi
  obtain ⟨_, hs', hn⟩ := h.vacant i hi
  rw [hs] at hs'
  exact hv (Option.some.inj hs' ▸ hn)

end Shaped

lemma Valid.index_lt (h : Valid t) (hs : t.slots[i]? = some s) : i < 2 ^ 32 :=
  (h.slot_lt hs).trans_le h.small

/-- A key some `insert` has handed out: its generation is over, or its slot is taken or retired. -/
def Used (t : Table T) (k : Key) : Prop :=
  ∃ s, t.slots[index k]? = some s ∧ (generationOf k < s.generation ∨ (generationOf k = s.generation ∧ index k ∉ t.free))

def Spent (t : Table T) (i : ℕ) : Prop :=
  ∃ s, t.slots[i]? = some s ∧ s.value = none ∧ i ∉ t.free

lemma get_eq (h : Shaped t) (k : Key) (v : T) :
    t.get k = some v ↔ ∃ s, t.slots[index k]? = some s ∧ s.generation = generationOf k ∧ s.value = some v := by
  rw [get, h.slot_eq]
  cases hs : t.slots[index k]? with
  | none => simp
  | some s => by_cases hg : s.generation = generationOf k <;> simp [hg]

lemma Used.of_get (h : Shaped t) {k : Key} {v : T} (hg : t.get k = some v) : t.Used k := by
  obtain ⟨s, hs, he, hv⟩ := (get_eq h k v).mp hg
  exact ⟨s, hs, .inr ⟨he.symm, h.occupied_not_free hs (by simp [hv])⟩⟩

def ready (t : Table T) : Table T := if t.free.isEmpty then t.grow.1 else t

@[simp] lemma grow_live (t : Table T) : t.grow.1.live = t.live := by
  rw [grow]
  split <;> rfl

@[simp] lemma grow_ceiling (t : Table T) : t.grow.1.ceiling = t.ceiling := by
  rw [grow]
  split <;> rfl

lemma grow_slots : ∃ m, t.grow.1.slots = t.slots ++ List.replicate m ⟨1, none⟩ := by
  rw [grow]
  split
  · exact ⟨0, by simp⟩
  · exact ⟨min PAGE (t.ceiling - t.pages.length * PAGE), by simp [slots]⟩

lemma grow_fresh (h : Shaped t) (hb : t.pages.length * PAGE < t.ceiling) :
    ∃ m, 0 < m ∧ t.grow.1.slots = t.slots ++ List.replicate m ⟨1, none⟩ ∧
      t.grow.1.free = List.range' t.slots.length m ++ t.free ∧ t.grow.2 = true := by
  have hl : t.slots.length = t.pages.length * PAGE := by
    have := h.built
    omega
  refine ⟨min PAGE (t.ceiling - t.pages.length * PAGE), ?_, ?_, ?_, ?_⟩
  · simp only [PAGE] at *
    omega
  · simp [grow, not_le.mpr hb, slots]
  · simp [grow, not_le.mpr hb, hl]
  · simp [grow, not_le.mpr hb]

lemma grow_shaped (h : Shaped t) : Shaped t.grow.1 := by
  by_cases hb : t.pages.length * PAGE < t.ceiling
  · have hl : t.slots.length = t.pages.length * PAGE := by
      have := h.built
      omega
    obtain ⟨m, _, hs, hf, _⟩ := grow_fresh h hb
    have hm : t.grow.1.slots.length = t.slots.length + m := by simp [hs]
    have ho : ∀ i ∈ t.free, i < t.slots.length := by
      intro i hi
      obtain ⟨s, hs, _⟩ := h.vacant i hi
      exact (List.getElem?_eq_some_iff.mp hs).1
    have hn : ∀ i s, t.grow.1.slots[i]? = some s → t.slots.length ≤ i → s = ⟨1, none⟩ ∧ i < t.slots.length + m := by
      intro i s hi hg
      rw [hs, getElem?_append_right hg, getElem?_replicate] at hi
      split at hi
      · exact ⟨(Option.some.inj hi).symm, by omega⟩
      · cases hi
    have hk : ∀ i, i < t.slots.length → t.grow.1.slots[i]? = t.slots[i]? := by
      intro i hi
      rw [hs, getElem?_append_left hi]
    refine ⟨?_, ?_, ?_, ?_, ?_, ?_, ?_⟩
    · rw [grow, if_neg (not_le.mpr hb)]
      exact h.regular.concat (by simpa [slots] using hl) (by simp)
    · have hp : t.grow.1.pages.length = t.pages.length + 1 := by simp [grow, not_le.mpr hb]
      have hm' : m = min PAGE (t.ceiling - t.pages.length * PAGE) := by
        simpa [grow, not_le.mpr hb, slots] using hs.symm
      rw [hm, hp, grow_ceiling, hl, hm', Nat.add_mul]
      omega
    · rw [hf, nodup_append]
      refine ⟨nodup_range', h.nodup, ?_⟩
      intro a ha b hb' _
      have := ho b hb'
      simp only [mem_range'_1] at ha
      omega
    · intro i hi
      rw [hf, mem_append, mem_range'_1] at hi
      rcases hi with hi | hi
      · refine ⟨⟨1, none⟩, ?_, rfl⟩
        rw [hs, getElem?_append_right hi.1, getElem?_replicate, if_pos (by omega)]
      · rw [hk i (ho i hi)]
        exact h.vacant i hi
    · intro i s hi
      by_cases ht : i < t.slots.length
      · exact h.bounded i s (hk i ht ▸ hi)
      · obtain ⟨rfl, _⟩ := hn i s hi (not_lt.mp ht)
        simp [lastGeneration]
    · have := h.balance
      rw [grow_live, hf, hm, length_append, length_range']
      omega
    · intro i s hi hv hr
      rw [hf, mem_append, mem_range'_1, not_or] at hr
      by_cases ht : i < t.slots.length
      · exact h.retired i s (hk i ht ▸ hi) hv hr.2
      · have := (hn i s hi (not_lt.mp ht)).2
        exact absurd ⟨not_lt.mp ht, this⟩ hr.1
  · rw [grow, if_pos (not_lt.mp hb)]
    exact h

lemma grow_spent (h : Shaped t) (hi : t.grow.1.Spent i) : t.Spent i := by
  by_cases hb : t.pages.length * PAGE < t.ceiling
  · obtain ⟨s, hs, hv, hf⟩ := hi
    obtain ⟨m, _, hl, hr, _⟩ := grow_fresh h hb
    rw [hr, mem_append, mem_range'_1, not_or] at hf
    have ht := (List.getElem?_eq_some_iff.mp hs).1
    rw [hl, length_append, length_replicate] at ht
    rw [hl, getElem?_append_left (by omega)] at hs
    exact ⟨s, hs, hv, hf.2⟩
  · rwa [grow, if_pos (not_lt.mp hb)] at hi

lemma ready_shaped (h : Shaped t) : Shaped t.ready := by
  rw [ready]
  split
  · exact grow_shaped h
  · exact h

@[simp] lemma ready_live (t : Table T) : t.ready.live = t.live := by
  rw [ready]
  split <;> simp

@[simp] lemma ready_ceiling (t : Table T) : t.ready.ceiling = t.ceiling := by
  rw [ready]
  split <;> simp

lemma ready_slots (t : Table T) : ∃ m, t.ready.slots = t.slots ++ List.replicate m ⟨1, none⟩ := by
  rw [ready]
  split
  · exact grow_slots
  · exact ⟨0, by simp⟩

lemma ready_used (h : Shaped t) {k : Key} (hk : t.Used k) : t.ready.Used k := by
  obtain ⟨s, hs, hg⟩ := hk
  obtain ⟨m, hm⟩ := ready_slots t
  have hl := (List.getElem?_eq_some_iff.mp hs).1
  refine ⟨s, by rw [hm, getElem?_append_left hl, hs], hg.imp id ?_⟩
  rintro ⟨hg, hf⟩
  refine ⟨hg, ?_⟩
  rw [ready]
  split
  · by_cases hb : t.pages.length * PAGE < t.ceiling
    · obtain ⟨m, _, _, hr, _⟩ := grow_fresh h hb
      rw [hr, mem_append, mem_range'_1, not_or]
      exact ⟨by omega, hf⟩
    · rw [grow, if_pos (not_lt.mp hb)]
      exact hf
  · exact hf

lemma ready_spent (h : Shaped t) (hi : t.ready.Spent i) : t.Spent i := by
  rw [ready] at hi
  split at hi
  · exact grow_spent h hi
  · exact hi

lemma ready_get (h : Shaped t) (k : Key) : t.ready.get k = t.get k := by
  obtain ⟨m, hm⟩ := ready_slots t
  apply Option.ext
  intro v
  rw [get_eq (ready_shaped h), get_eq h]
  by_cases hl : index k < t.slots.length
  · rw [hm, getElem?_append_left hl]
  · rw [hm, getElem?_append_right (not_lt.mp hl), getElem?_replicate, getElem?_eq_none (not_lt.mp hl)]
    split
    · constructor
      · rintro ⟨s, hs, _, hv⟩
        cases hs
        cases hv
      · rintro ⟨s, hs, _⟩
        cases hs
    · simp

lemma insert_none (h : Shaped t) {v : T} (hr : t.remaining = 0) : t.insert v = (t, none) := by
  have hb := h.built
  have hl := h.balance
  have he := h.live_le
  simp only [remaining] at hr
  have hf : t.free = [] := length_eq_zero_iff.mp (by omega)
  have hc : t.ceiling ≤ t.pages.length * PAGE := by omega
  simp [insert, hf, grow, hc]

lemma ready_free (h : Shaped t) (hr : 0 < t.remaining) :
    ∃ i rest s, t.ready.free = i :: rest ∧ t.ready.slots[i]? = some s ∧ s.value = none := by
  have hn : t.ready.free ≠ [] := by
    rw [ready]
    split
    case isFalse hf => simpa using hf
    case isTrue hf =>
      have hf' : t.free = [] := by simpa using hf
      have hb : t.pages.length * PAGE < t.ceiling := by
        have := h.built
        have := h.balance
        simp only [remaining, hf', length_nil] at *
        omega
      obtain ⟨m, hm, _, hc, _⟩ := grow_fresh h hb
      rw [hc, ← length_pos_iff]
      simp
      omega
  obtain ⟨i, rest, hi⟩ := exists_cons_of_ne_nil hn
  obtain ⟨s, hs, hv⟩ := (ready_shaped h).vacant i (by simp [hi])
  exact ⟨i, rest, s, hi, hs, hv⟩

lemma insert_some (h : Shaped t) (v : T) {rest : List ℕ} (hf : t.ready.free = i :: rest)
    (hs : t.ready.slots[i]? = some s) :
    t.insert v = ({ t.ready.setSlot i { s with value := some v } with
      free := rest
      live := t.live + 1 }, some (pack s.generation i)) := by
  have hl : t.ready.slot i = some s := by rw [(ready_shaped h).slot_eq, hs]
  by_cases he : t.free.isEmpty
  · have hr : t.ready = t.grow.1 := by simp [ready, he]
    have hg : t.grow.2 = true := by
      by_contra hg
      have hb : t.ceiling ≤ t.pages.length * PAGE := by
        by_contra hb
        simp [grow, hb] at hg
      rw [hr, grow, if_pos hb] at hf
      have he' : t.free = [] := by simpa using he
      simp [he'] at hf
    rw [hr] at hf hl
    simp [insert, he, hg, hr, hf, hl]
  · have hr : t.ready = t := by simp [ready, he]
    rw [hr] at hf hl
    simp [insert, hr, hf, hl]

lemma ready_valid (h : Valid t) : Valid t.ready :=
  ⟨ready_shaped h.toShaped, by simpa using h.small⟩

lemma unbuilt_shaped (capacity : ℕ) : Shaped (⟨[], [], capacity, 0⟩ : Table T) :=
  ⟨.nil, by simp [slots], by simp, by simp, by simp [slots], by simp [slots], by simp [slots]⟩

lemma new_shaped (capacity : ℕ) : Shaped (new capacity : Table T) := grow_shaped (unbuilt_shaped capacity)

lemma new_not_spent (capacity i : ℕ) : ¬(new capacity : Table T).Spent i := by
  intro hi
  obtain ⟨s, hs, _⟩ := grow_spent (unbuilt_shaped capacity) hi
  simp [slots] at hs

lemma new_valid (hc : capacity ≤ 2 ^ 32) : Valid (new capacity : Table T) :=
  ⟨new_shaped capacity, by simpa [new] using hc⟩

end Turnloop.Table
