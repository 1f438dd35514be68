import Turnloop.Table.Valid

/-! The table as a finite map. -/

namespace Turnloop.Table

open Lib List Option

variable {T : Type} {t : Table T} {k : Key} {v : T}

def entry (i : ℕ) (s : Slot T) : Option (Key × T) := s.value.map (fun v => (pack s.generation i, v))

def entriesOf (l : List (Slot T)) : List (Key × T) := l.zipIdx.filterMap (fun p => entry p.2 p.1)

def entries (t : Table T) : List (Key × T) := entriesOf t.slots

lemma mem_entriesOf : p ∈ entriesOf l ↔ ∃ i s, l[i]? = some s ∧ entry i s = some p := by
  simp only [entriesOf, mem_filterMap, Prod.exists, mem_zipIdx_iff_getElem?]
  constructor
  · rintro ⟨s, i, hs, he⟩
    exact ⟨i, s, hs, he⟩
  · rintro ⟨i, s, hs, he⟩
    exact ⟨s, i, hs, he⟩

lemma entriesOf_set {l : List (Slot T)} {i : ℕ} (hi : i < l.length) :
    ∃ rest, ∀ s, (entriesOf (l.set i s)).Perm ((entry i s).toList ++ rest) := by
  refine ⟨entriesOf (l.take i) ++ ((l.drop (i + 1)).zipIdx (i + 1)).filterMap (fun p => entry p.2 p.1), ?_⟩
  intro s
  rw [entriesOf, set_eq_take_append_cons_drop, if_pos hi, zipIdx_append, filterMap_append, zipIdx_cons, filterMap_cons]
  simp only [length_take, min_eq_left hi.le, Nat.zero_add]
  cases entry i s with
  | none => exact List.Perm.refl _
  | some =>
    simp only [toList_some, cons_append, nil_append, entriesOf]
    exact perm_middle

lemma entriesOf_replicate (l : List (Slot T)) (m : ℕ) : entriesOf (l ++ List.replicate m ⟨1, none⟩) = entriesOf l := by
  have hn : ∀ j, ((replicate m (⟨1, none⟩ : Slot T)).zipIdx j).filterMap
      (fun p => entry p.2 p.1) = [] := by
    intro j
    rw [filterMap_eq_nil_iff]
    rintro ⟨s, i⟩ hp
    obtain rfl : s = ⟨1, none⟩ := (mem_replicate.mp (fst_mem_of_mem_zipIdx hp)).2
    rfl
  rw [entriesOf, zipIdx_append, filterMap_append, hn, append_nil, entriesOf]

lemma mem_entries (h : Valid t) : (k, v) ∈ t.entries ↔ t.get k = some v := by
  rw [entries, mem_entriesOf, get_eq h.toShaped]
  constructor
  · rintro ⟨i, s, hs, he⟩
    have hg := h.bounded i s hs
    have hi := h.index_lt hs
    simp only [entry, map_eq_some_iff, Prod.mk.injEq] at he
    obtain ⟨_, hv, rfl, rfl⟩ := he
    exact ⟨s, by rw [index_pack hg hi, hs], by rw [generationOf_pack hg hi], hv⟩
  · rintro ⟨s, hs, hg, hv⟩
    exact ⟨index k, s, hs, by simp [entry, hv, hg]⟩

lemma ready_entries {t : Table T} : t.ready.entries = t.entries := by
  obtain ⟨m, hm⟩ := ready_slots t
  rw [entries, hm, entriesOf_replicate, entries]

/-- `t'` is `t` with slot `i` overwritten and the free list and the count adjusted to it. -/
structure Rewritten (t t' : Table T) (i : ℕ) (s s' : Slot T) : Prop where
  old : t.slots[i]? = some s
  pages : t'.pages = Pages.write PAGE t.pages i s'
  ceiling : t'.ceiling = t.ceiling
  free : ∀ j, j ≠ i → (j ∈ t'.free ↔ j ∈ t.free)
  nodup : t'.free.Nodup
  balance : t'.live + t'.free.length = t.live + t.free.length
  vacant : i ∈ t'.free → s'.value = none
  bounded : s'.generation ≤ lastGeneration
  retired : s'.value = none → i ∉ t'.free → s'.generation = lastGeneration
  newer : s.generation ≤ s'.generation
  spent : s.generation = s'.generation → i ∉ t.free → i ∉ t'.free

namespace Rewritten

variable {t' : Table T} {i : ℕ} {s s' : Slot T}

variable (r : Rewritten t t' i s s')
include r

lemma slots_eq (h : Shaped t) : t'.slots = t.slots.set i s' := by
  rw [slots, r.pages]
  exact Pages.write_flatten (by decide) h.regular i s'

lemma self (h : Shaped t) : t'.slots[i]? = some s' := by
  rw [r.slots_eq h, getElem?_set_self (List.getElem?_eq_some_iff.mp r.old).1]

lemma other (h : Shaped t) (hj : j ≠ i) : t'.slots[j]? = t.slots[j]? := by
  rw [r.slots_eq h, getElem?_set_ne hj.symm]

lemma shaped (h : Shaped t) : Shaped t' := by
  have hl : t'.slots.length = t.slots.length := by rw [r.slots_eq h, length_set]
  refine ⟨?_, ?_, r.nodup, ?_, ?_, ?_, ?_⟩
  · rw [r.pages]
    exact Pages.write_regular h.regular
  · rw [hl, r.pages, r.ceiling, Pages.write_length]
    exact h.built
  · intro j hj
    by_cases hi : j = i
    · subst hi
      exact ⟨s', r.self h, r.vacant hj⟩
    · rw [r.other h hi]
      exact h.vacant j ((r.free j hi).mp hj)
  · intro j s₀ hj
    by_cases hi : j = i
    · subst hi
      rw [r.self h] at hj
      exact Option.some.inj hj ▸ r.bounded
    · exact h.bounded j s₀ (r.other h hi ▸ hj)
  · rw [hl, ← h.balance]
    exact r.balance
  · intro j s₀ hj hv hf
    by_cases hi : j = i
    · subst hi
      rw [r.self h] at hj
      cases hj
      exact r.retired hv hf
    · exact h.retired j s₀ (r.other h hi ▸ hj) hv (fun hm => hf ((r.free j hi).mpr hm))

lemma valid (h : Valid t) : Valid t' :=
  ⟨r.shaped h.toShaped, r.ceiling ▸ h.small⟩

lemma mono (h : Shaped t) (hk : t.Used k) : t'.Used k := by
  obtain ⟨s₀, hs, hg⟩ := hk
  by_cases hi : index k = i
  · obtain rfl : s = s₀ := by
      have := r.old
      rw [← hi, hs] at this
      exact (Option.some.inj this).symm
    refine ⟨s', hi ▸ r.self h, ?_⟩
    have hn := r.newer
    rcases hg with _ | ⟨_, hf⟩
    · exact .inl (by omega)
    · by_cases he : s.generation = s'.generation
      · exact .inr ⟨by omega, hi ▸ r.spent he (hi ▸ hf)⟩
      · exact .inl (by omega)
  · refine ⟨s₀, by rw [r.other h hi, hs], hg.imp id (fun hb => ⟨hb.1, ?_⟩)⟩
    exact fun hm => hb.2 ((r.free _ hi).mp hm)

lemma get_eq (h : Shaped t) (k : Key) :
    t'.get k = if index k = i then (if s'.generation = generationOf k then s'.value else none)
      else t.get k := by
  rw [get, get, (r.shaped h).slot_eq, h.slot_eq]
  by_cases hk : index k = i
  · simp [hk, r.self h]
  · rw [r.other h hk, if_neg hk]

lemma spent_other (h : Shaped t) (hj : j ≠ i) (hs : t'.Spent j) : t.Spent j := by
  obtain ⟨s₀, _, hv, hf⟩ := hs
  exact ⟨s₀, by rwa [← r.other h hj], hv, fun hm => hf ((r.free j hj).mpr hm)⟩

lemma entries_perm (h : Shaped t) :
    ∃ rest, t.entries.Perm ((entry i s).toList ++ rest) ∧ t'.entries.Perm ((entry i s').toList ++ rest) := by
  obtain ⟨hi, hs⟩ := List.getElem?_eq_some_iff.mp r.old
  obtain ⟨rest, hr⟩ := entriesOf_set hi
  refine ⟨rest, ?_, ?_⟩
  · have he := hr t.slots[i]
    rwa [set_getElem_self, hs] at he
  · rw [entries, r.slots_eq h]
    exact hr s'

end Rewritten

structure Inserted (t t' : Table T) (k : Key) (v : T) : Prop where
  valid : Valid t'
  fresh : ¬ t.Used k
  used : t'.Used k
  mono : ∀ k', t.Used k' → t'.Used k'
  entries : t'.entries.Perm ((k, v) :: t.entries)
  get_self : t'.get k = some v
  get_other : ∀ k', k' ≠ k → t'.get k' = t.get k'
  ceiling : t'.ceiling = t.ceiling
  live : t'.live = t.live + 1
  spent : ∀ i, t'.Spent i → t.Spent i

lemma insert_rewritten (h : Shaped t) (v : T) (hf : t.ready.free = i :: rest) (hs : t.ready.slots[i]? = some s) :
    Rewritten t.ready (t.insert v).1 i s { s with value := some v } := by
  have hr := ready_shaped h
  have hn := hr.nodup
  rw [hf, nodup_cons] at hn
  rw [insert_some h v hf hs]
  refine ⟨hs, rfl, rfl, ?_, hn.2, ?_, ?_, hr.bounded i s hs, by simp, le_rfl, ?_⟩
  · intro j hj
    simp [hf, hj]
  · simp only [hf, ready_live, length_cons]
    omega
  · exact fun hm => absurd hm hn.1
  · intro _ hm
    exact absurd (by simp [hf]) hm

lemma insert_inserted (h : Valid t) (v : T) (hr : 0 < t.remaining) :
    ∃ k, (t.insert v).2 = some k ∧ Inserted t (t.insert v).1 k v := by
  obtain ⟨i, rest, s, hf, hs, hv⟩ := ready_free h.toShaped hr
  have hv' := ready_valid h
  have hg := hv'.bounded i s hs
  have hi := hv'.index_lt hs
  have hw := insert_rewritten h.toShaped v hf hs
  have he := insert_some h.toShaped v hf hs
  have hb : i ∉ (t.insert v).1.free := by
    have hn := hv'.nodup
    rw [hf, nodup_cons] at hn
    rw [he]
    exact hn.1
  refine ⟨pack s.generation i, by rw [he], hw.valid hv', ?_, ?_,
    fun k' hk' => hw.mono hv'.toShaped (ready_used h.toShaped hk'), ?_, ?_, ?_, ?_, by rw [he], ?_⟩
  · intro hu
    obtain ⟨s', hs', hg'⟩ := ready_used h.toShaped hu
    rw [index_pack hg hi, hs] at hs'
    cases hs'
    rw [generationOf_pack hg hi, index_pack hg hi] at hg'
    rcases hg' with hl | ⟨_, hc⟩
    · exact lt_irrefl _ hl
    · exact hc (by simp [hf])
  · have hd := hw.self hv'.toShaped
    rw [← index_pack hg hi] at hd hb
    exact ⟨_, hd, .inr ⟨generationOf_pack hg hi, hb⟩⟩
  · obtain ⟨rest', hp, hp'⟩ := hw.entries_perm hv'.toShaped
    have ho : t.entries.Perm rest' := by
      rw [← ready_entries]
      simpa [entry, hv] using hp
    have hm : (t.insert v).1.entries.Perm ((pack s.generation i, v) :: rest') := by
      simpa [entry] using hp'
    exact hm.trans (ho.symm.cons _)
  · rw [hw.get_eq hv'.toShaped, if_pos (index_pack hg hi), if_pos (generationOf_pack hg hi).symm]
  · intro k' hk'
    rw [hw.get_eq hv'.toShaped, ← ready_get h.toShaped]
    split
    · rename_i hk
      rw [if_neg (fun hq => hk' (by rw [← pack_unpack k', hk, ← hq])), eq_comm, Option.eq_none_iff_forall_ne_some]
      intro v' hv''
      obtain ⟨s', hs', _, ht⟩ := (Table.get_eq hv'.toShaped k' v').mp hv''
      rw [hk, hs] at hs'
      cases hs'
      simp [hv] at ht
    · rfl
  · rw [hw.ceiling, ready_ceiling]
  · intro j hj
    by_cases hx : j = i
    · subst hx
      obtain ⟨s', hs', hv', _⟩ := hj
      rw [hw.self (ready_shaped h.toShaped)] at hs'
      cases hs'
      cases hv'
    · exact ready_spent h.toShaped (hw.spent_other hv'.toShaped hx hj)

structure Removed (t t' : Table T) (k : Key) (v : T) : Prop where
  valid : Valid t'
  mono : ∀ k', t.Used k' → t'.Used k'
  entries : t.entries.Perm ((k, v) :: t'.entries)
  get_self : t'.get k = none
  get_other : ∀ k', k' ≠ k → t'.get k' = t.get k'
  ceiling : t'.ceiling = t.ceiling
  live : t'.live = t.live ∨ t'.live + 1 = t.live
  spent : ∀ i, t'.Spent i → t.Spent i ∨ k = pack lastGeneration i

lemma remove_none (h : Valid t) (hk : t.get k = none) : t.remove k = (t, none) := by
  rw [get, h.slot_eq] at hk
  rw [remove, h.slot_eq]
  cases hs : t.slots[index k]? with
  | none => rfl
  | some s =>
    by_cases hg : s.generation = generationOf k
    · have hv : s.value = none := by simpa [hs, hg] using hk
      simp [hg, hv]
    · simp [hg]

lemma live_pos (h : Valid t) (hk : t.get k = some v) : 0 < t.live := by
  obtain ⟨s, hs, _, hv⟩ := (get_eq h.toShaped k v).mp hk
  have hn := h.occupied_not_free hs (by simp [hv])
  have hl := (List.getElem?_eq_some_iff.mp hs).1
  -- the free indices are built slots other than this one
  have hu : (index k :: t.free).Subperm (range t.slots.length) := by
    apply subperm_of_subset (nodup_cons.mpr ⟨hn, h.nodup⟩)
    intro i hi
    rw [mem_range]
    rcases mem_cons.mp hi with rfl | hi
    · exact hl
    · obtain ⟨_, hs', _⟩ := h.vacant i hi
      exact (List.getElem?_eq_some_iff.mp hs').1
  have he := hu.length_le
  have hb := h.balance
  simp only [length_cons, length_range] at he
  omega

lemma remove_removed (h : Valid t) (hk : t.get k = some v) : (t.remove k).2 = some v ∧
    Removed t (t.remove k).1 k v := by
  obtain ⟨s, hs, hg, hv⟩ := (get_eq h.toShaped k v).mp hk
  have hn := h.occupied_not_free hs (by simp [hv])
  have ho := live_pos h hk
  have hb := h.bounded _ s hs
  have ht : ∃ s', s'.value = none ∧ (t.remove k).2 = some v ∧ Rewritten t (t.remove k).1 (index k) s s' ∧
      ((t.remove k).1.live = t.live ∨ (t.remove k).1.live + 1 = t.live) ∧
      (index k ∉ (t.remove k).1.free → generationOf k = lastGeneration) := by
    rw [remove, h.slot_eq, hs]
    simp only [hg, ne_eq, not_true_eq_false, if_false, hv]
    by_cases hl : generationOf k + 1 ≤ lastGeneration
    · rw [if_pos hl]
      refine ⟨⟨generationOf k + 1, none⟩, rfl, rfl, ⟨hs, rfl, rfl, ?_, ?_, ?_, fun _ => rfl, hl, ?_, ?_, ?_⟩, ?_⟩
      · intro j hj
        simp [hj]
      · exact nodup_cons.mpr ⟨hn, h.nodup⟩
      · simp only [length_cons]
        omega
      · exact fun _ hm => absurd (by simp) hm
      · exact hg ▸ Nat.le_succ _
      · exact fun he => absurd he (by simp [hg])
      · exact ⟨.inr (by simp only; omega), fun hm => absurd (by simp) hm⟩
    · have ha : generationOf k = lastGeneration := by
        have := generationOf_le k
        omega
      rw [if_neg hl]
      refine ⟨⟨generationOf k, none⟩, rfl, rfl, ⟨hs, rfl, rfl, fun _ _ => Iff.rfl, h.nodup, rfl, fun _ => rfl,
        hg ▸ hb, fun _ _ => ha, hg.le, fun _ => id⟩, Or.inl rfl, fun _ => ha⟩
  obtain ⟨s', hv', hr, hw, hc, hl⟩ := ht
  obtain ⟨rest, hp, hp'⟩ := hw.entries_perm h.toShaped
  refine ⟨hr, hw.valid h, fun _ => hw.mono h.toShaped, ?_, ?_, ?_, hw.ceiling, hc, ?_⟩
  · have hd : entry (index k) s = some (k, v) := by simp [entry, hv, hg]
    have hq : (t.remove k).1.entries.Perm rest := by simpa [entry, hv'] using hp'
    rw [hd] at hp
    exact hp.trans (hq.symm.cons _)
  · rw [hw.get_eq h.toShaped, if_pos rfl, hv', ite_self]
  · intro k' hk'
    rw [hw.get_eq h.toShaped]
    split
    · rename_i hu
      rw [hv', ite_self, eq_comm, Option.eq_none_iff_forall_ne_some]
      intro v' hv''
      obtain ⟨s₀, hs₀, hg₀, _⟩ := (Table.get_eq h.toShaped k' v').mp hv''
      rw [hu, hs] at hs₀
      cases hs₀
      exact hk' (by rw [← pack_unpack k', ← hg₀, hu, hg, pack_unpack])
    · rfl
  · intro i hi
    by_cases hu : i = index k
    · subst hu
      refine .inr ?_
      obtain ⟨_, _, _, hf⟩ := hi
      rw [← hl hf, pack_unpack]
    · exact .inl (hw.spent_other h.toShaped hu hi)

structure Modified (t t' : Table T) (k : Key) (v v' : T) : Prop where
  valid : Valid t'
  used : ∀ k', t'.Used k' ↔ t.Used k'
  get_self : t'.get k = some v'
  get_other : ∀ k', k' ≠ k → t'.get k' = t.get k'
  ceiling : t'.ceiling = t.ceiling
  live : t'.live = t.live
  entries : ∃ rest, t.entries.Perm ((k, v) :: rest) ∧ t'.entries.Perm ((k, v') :: rest)

lemma getMut_fst (t : Table T) (k : Key) : (t.getMut k).map Prod.fst = t.get k := by
  rw [getMut, get]
  cases t.slot (index k) with
  | none => rfl
  | some s =>
    by_cases hg : s.generation = generationOf k
    · cases hv : s.value <;> simp [hg, hv]
    · simp [hg]

lemma getMut_none (hk : t.get k = none) : t.getMut k = none := by
  rw [← getMut_fst] at hk
  exact map_eq_none_iff.mp hk

lemma modify_none (hk : t.get k = none) (f : T → T) : t.modify k f = t := by
  rw [modify, getMut_none hk]

lemma modify_modified (h : Valid t) (hk : t.get k = some v) (f : T → T) : Modified t (t.modify k f) k v (f v) := by
  obtain ⟨s, hs, hg, hv⟩ := (get_eq h.toShaped k v).mp hk
  have hn := h.occupied_not_free hs (by simp [hv])
  have he : t.modify k f = t.setSlot (index k) { s with value := some (f v) } := by
    rw [modify, getMut, h.slot_eq, hs]
    simp [hg, hv]
  have hr : Rewritten t (t.modify k f) (index k) s { s with value := some (f v) } := by
    rw [he]
    exact ⟨hs, rfl, rfl, fun _ _ => Iff.rfl, h.nodup, rfl, fun hm => absurd hm hn, h.bounded _ s hs,
      by simp, le_rfl, fun _ => id⟩
  obtain ⟨rest, hp, hp'⟩ := hr.entries_perm h.toShaped
  refine ⟨hr.valid h, ?_, ?_, ?_, hr.ceiling, by rw [he]; rfl, rest, ?_, ?_⟩
  · intro k'
    refine ⟨?_, hr.mono h.toShaped⟩
    rintro ⟨s', hs', hu⟩
    have hf : (t.modify k f).free = t.free := by rw [he]; rfl
    rw [hf] at hu
    by_cases hi : index k' = index k
    · rw [hi, hr.self h.toShaped] at hs'
      cases hs'
      exact ⟨s, by rw [hi, hs], hu⟩
    · exact ⟨s', by rw [← hr.other h.toShaped hi, hs'], hu⟩
  · rw [hr.get_eq h.toShaped, if_pos rfl, if_pos hg]
  · intro k' hk'
    rw [hr.get_eq h.toShaped]
    split
    · rename_i hi
      have hb : s.generation ≠ generationOf k' :=
        fun hb => hk' (by rw [← pack_unpack k', ← hb, hi, hg, pack_unpack])
      rw [if_neg hb, eq_comm, Option.eq_none_iff_forall_ne_some]
      intro v' hv''
      obtain ⟨s₀, hs₀, hg₀, _⟩ := (Table.get_eq h.toShaped k' v').mp hv''
      rw [hi, hs] at hs₀
      exact hb (Option.some.inj hs₀ ▸ hg₀)
    · rfl
  · simpa [entry, hv, hg] using hp
  · simpa [entry, hg] using hp'

end Turnloop.Table
