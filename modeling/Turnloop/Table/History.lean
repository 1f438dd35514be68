import Turnloop.Table.Entries

/-! Whole histories of a table. -/

namespace Turnloop.Table

open List

variable {T : Type}

inductive Action (T : Type) where
  | insert (value : T)
  | remove (key : Key)
  | get (key : Key)

structure History (T : Type) where
  table : Table T
  issued : List (Key × T)
  removed : List Key

namespace History

def start (ceiling : ℕ) : History T := ⟨new ceiling, [], []⟩

def step (h : History T) : Action T → History T
  | .insert v =>
    match h.table.insert v with
    | (t, none) => { h with table := t }
    | (t, some k) => { h with table := t, issued := (k, v) :: h.issued }
  | .remove k =>
    match h.table.remove k with
    | (t, none) => { h with table := t }
    | (t, some _) => { h with table := t, removed := k :: h.removed }
  | .get _ => h

def run (ceiling : ℕ) (actions : List (Action T)) : History T := actions.foldl step (start ceiling)

def Retired (h : History T) (i : ℕ) : Prop := pack lastGeneration i ∈ h.removed

instance (h : History T) (i : ℕ) : Decidable (h.Retired i) := by unfold Retired; infer_instance

def Occupied (h : History T) (i : ℕ) : Prop := ∃ s, h.table.slot i = some s ∧ s.value ≠ none

instance (h : History T) (i : ℕ) : Decidable (h.Occupied i) :=
  match hs : h.table.slot i with
  | none => isFalse (by simp [Occupied, hs])
  | some ⟨g, none⟩ => isFalse (by simp [Occupied, hs])
  | some ⟨g, some v⟩ => isTrue ⟨_, hs, by simp⟩

def occupied (h : History T) : ℕ := (List.range h.table.slots.length).countP (fun i => h.Occupied i)

def retired (h : History T) : ℕ := (List.range h.table.slots.length).countP (fun i => h.Retired i)

structure Sound (c : ℕ) (h : History T) : Prop where
  valid : Valid h.table
  ceiling : h.table.ceiling = c
  nodup : (h.issued.map Prod.fst).Nodup
  used : ∀ p ∈ h.issued, h.table.Used p.1
  index_lt : ∀ p ∈ h.issued, index p.1 < c
  live : ∀ p ∈ h.issued, p.1 ∉ h.removed → h.table.get p.1 = some p.2
  gone : ∀ k ∈ h.removed, h.table.Used k ∧ h.table.get k = none
  spent : ∀ i, h.table.Spent i → h.Retired i

lemma sound_start {ceiling : ℕ} (hc : ceiling ≤ 2 ^ 32) : (start ceiling : History T).Sound ceiling := by
  refine ⟨new_valid hc, by simp [start, new], by simp [start], by simp [start], by simp [start], by simp [start],
    by simp [start], fun i hi => absurd hi (new_not_spent ceiling i)⟩

lemma sound_insert {h : History T} (hs : h.Sound c) : (h.step (.insert v)).Sound c := by
  by_cases hr : 0 < h.table.remaining
  · obtain ⟨k, hk, hi⟩ := insert_inserted hs.valid v hr
    have hq : h.step (.insert v) = { h with table := (h.table.insert v).1, issued := (k, v) :: h.issued } := by
      rw [step, Prod.ext (x := h.table.insert v) (y := (_, some k)) rfl hk]
    have hn : ∀ k', h.table.Used k' → k' ≠ k := fun k' hu he => hi.fresh (he ▸ hu)
    rw [hq]
    refine ⟨hi.valid, hi.ceiling.trans hs.ceiling, ?_, ?_, ?_, ?_, ?_, fun i hb => hs.spent i (hi.spent i hb)⟩
    · simp only [map_cons, nodup_cons]
      refine ⟨?_, hs.nodup⟩
      intro hm
      obtain ⟨p, hp, rfl⟩ := mem_map.mp hm
      exact hi.fresh (hs.used p hp)
    · intro p hp
      rcases mem_cons.mp hp with rfl | hp
      · exact hi.used
      · exact hi.mono _ (hs.used p hp)
    · intro p hp
      rcases mem_cons.mp hp with rfl | hp
      · obtain ⟨s, hl, _⟩ := hi.used
        exact (hi.ceiling.trans hs.ceiling) ▸ hi.valid.slot_lt hl
      · exact hs.index_lt p hp
    · intro p hp hc
      rcases mem_cons.mp hp with rfl | hp
      · exact hi.get_self
      · rw [hi.get_other _ (hn _ (hs.used p hp))]
        exact hs.live p hp hc
    · intro k' hk'
      obtain ⟨hu, hg⟩ := hs.gone k' hk'
      exact ⟨hi.mono _ hu, by rw [hi.get_other _ (hn _ hu), hg]⟩
  · have hq : h.step (.insert v) = h := by
      rw [step, insert_none hs.valid.toShaped (by omega)]
    rwa [hq]

lemma sound_remove {h : History T} (hs : h.Sound c) : (h.step (.remove k)).Sound c := by
  cases hg : h.table.get k with
  | none =>
    have he : h.step (.remove k) = h := by rw [step, remove_none hs.valid hg]
    rwa [he]
  | some v =>
    obtain ⟨hr, hm⟩ := remove_removed hs.valid hg
    have he : h.step (.remove k) = { h with table := (h.table.remove k).1, removed := k :: h.removed } := by
      rw [step, Prod.ext (x := h.table.remove k) (y := (_, some v)) rfl hr]
    rw [he]
    refine ⟨hm.valid, hm.ceiling.trans hs.ceiling, hs.nodup, fun p hp => hm.mono _ (hs.used p hp),
      hs.index_lt, ?_, ?_, ?_⟩
    · intro p hp hb
      simp only [mem_cons, not_or] at hb
      rw [hm.get_other _ hb.1]
      exact hs.live p hp hb.2
    · intro k' hk'
      rcases mem_cons.mp hk' with rfl | hk'
      · exact ⟨hm.mono _ (.of_get hs.valid.toShaped hg), hm.get_self⟩
      · obtain ⟨hu, hn⟩ := hs.gone k' hk'
        refine ⟨hm.mono _ hu, ?_⟩
        by_cases hk : k' = k
        · exact hk ▸ hm.get_self
        · rw [hm.get_other _ hk, hn]
    · intro i hi
      rcases hm.spent i hi with hi | rfl
      · exact mem_cons_of_mem _ (hs.spent i hi)
      · exact mem_cons_self

lemma sound_step {h : History T} (hs : h.Sound c) : (h.step a).Sound c := by
  cases a with
  | insert v => exact sound_insert hs
  | remove k => exact sound_remove hs
  | get => exact hs

lemma sound_foldl (hs : h.Sound c) (actions : List (Action T)) : (actions.foldl step h).Sound c := by
  induction actions generalizing h with
  | nil => exact hs
  | cons a actions ih => exact ih (sound_step hs)

lemma run_sound {ceiling : ℕ} (hc : ceiling ≤ 2 ^ 32) (actions : List (Action T)) :
    (run ceiling actions).Sound ceiling :=
  sound_foldl (sound_start hc) actions

namespace Sound

variable {c : ℕ} {h : History T}

lemma not_retired_of_free (hs : h.Sound c) (hi : i ∈ h.table.free) : ¬h.Retired i := by
  intro hr
  obtain ⟨s, hl, _⟩ := hs.valid.vacant i hi
  have ht := hs.valid.index_lt hl
  obtain ⟨_, hs', hg⟩ := (hs.gone _ hr).1
  rw [index_pack le_rfl ht, hl] at hs'
  cases hs'
  rw [generationOf_pack le_rfl ht, index_pack le_rfl ht] at hg
  rcases hg with hg | ⟨_, hn⟩
  · exact absurd (hs.valid.bounded i s hl) (not_le.mpr hg)
  · exact hn hi

lemma not_occupied_of_retired (hs : h.Sound c) (hr : h.Retired i) : ¬h.Occupied i := by
  rintro ⟨s, hl, hv⟩
  rw [hs.valid.slot_eq] at hl
  have ht := hs.valid.index_lt hl
  obtain ⟨⟨_, hs', hg⟩, hn⟩ := hs.gone _ hr
  rw [index_pack le_rfl ht, hl] at hs'
  cases hs'
  rw [generationOf_pack le_rfl ht] at hg
  have he : s.generation = lastGeneration := by
    have := hs.valid.bounded i s hl
    omega
  obtain ⟨v, hv⟩ := Option.ne_none_iff_exists'.mp hv
  have hb : h.table.get (pack lastGeneration i) = some v := by
    rw [get_eq hs.valid.toShaped, index_pack le_rfl ht, generationOf_pack le_rfl ht]
    exact ⟨s, hl, he, hv⟩
  rw [hn] at hb
  cases hb

lemma free_iff (hs : h.Sound c) (i : ℕ) :
    i ∈ h.table.free ↔ i < h.table.slots.length ∧ ¬h.Occupied i ∧ ¬h.Retired i := by
  constructor
  · intro hi
    obtain ⟨s, hl, hv⟩ := hs.valid.vacant i hi
    refine ⟨(List.getElem?_eq_some_iff.mp hl).1, ?_, hs.not_retired_of_free hi⟩
    rintro ⟨_, hs', hv'⟩
    rw [hs.valid.slot_eq, hl] at hs'
    exact hv' (Option.some.inj hs' ▸ hv)
  · rintro ⟨ht, ho, hr⟩
    by_contra hf
    have hl := getElem?_eq_getElem ht
    refine hr (hs.spent i ⟨_, hl, ?_, hf⟩)
    by_contra hv
    exact ho ⟨_, by rw [hs.valid.slot_eq, hl], hv⟩

lemma live_eq (hs : h.Sound c) : h.table.live = h.occupied + h.retired := by
  have hf : (range h.table.slots.length).countP (fun i => i ∈ h.table.free) = h.table.free.length := by
    rw [countP_eq_length_filter]
    apply List.Perm.length_eq
    rw [perm_ext_iff_of_nodup (nodup_range.filter _) hs.valid.nodup]
    intro i
    have := hs.free_iff i
    simp only [mem_filter, mem_range, decide_eq_true_eq]
    tauto
  have hu : ∀ l : List ℕ, (∀ i ∈ l, i < h.table.slots.length) →
    l.countP (fun i => h.Occupied i) + l.countP (fun i => h.Retired i) +
        l.countP (fun i => i ∈ h.table.free) = l.length := by
    intro l hl
    induction l with
    | nil => rfl
    | cons i l ih =>
      have hi := hl i mem_cons_self
      have hx := hs.free_iff i
      have hc := hs.not_occupied_of_retired (i := i)
      have := ih (fun j hj => hl j (mem_cons_of_mem _ hj))
      simp only [countP_cons, length_cons, decide_eq_true_eq]
      by_cases ho : h.Occupied i <;> by_cases hr : h.Retired i <;> simp_all <;> omega
  have ha := hu _ (fun i hi => mem_range.mp hi)
  rw [hf, length_range] at ha
  have hb := hs.valid.balance
  rw [occupied, retired]
  omega

end Sound

end History

open History

theorem table_safe {ceiling : ℕ} (hc : ceiling ≤ 2 ^ 32) (actions : List (Action T)) :
    let h := run ceiling actions
    (h.issued.map Prod.fst).Nodup ∧
    (∀ k ∈ h.removed, h.table.get k = none ∧ h.table.getMut k = none ∧ h.table.remove k = (h.table, none)) ∧
    (∀ p ∈ h.issued, p.1 ∉ h.removed →
      h.table.get p.1 = some p.2 ∧ (h.table.getMut p.1).map Prod.fst = some p.2 ∧ (h.table.remove p.1).2 = some p.2) ∧
    (∀ p ∈ h.issued, index p.1 < ceiling) ∧
    h.table.free.Nodup ∧
    (∀ i, i ∈ h.table.free ↔ (h.table.slot i).isSome ∧ ¬h.Occupied i ∧ ¬h.Retired i) ∧
    h.table.live = h.occupied + h.retired ∧
    ∀ v, (h.table.insert v).2.isSome ↔ 0 < h.table.remaining := by
  have hs := run_sound hc actions
  refine ⟨hs.nodup, ?_, ?_, hs.index_lt, hs.valid.nodup, ?_, hs.live_eq, ?_⟩
  · intro k hk
    have hg := (hs.gone k hk).2
    exact ⟨hg, getMut_none hg, remove_none hs.valid hg⟩
  · intro p hp hr
    have hg := hs.live p hp hr
    exact ⟨hg, by rw [getMut_fst, hg], (remove_removed hs.valid hg).1⟩
  · intro i
    rw [hs.free_iff, hs.valid.slot_eq]
    simp
  · intro v
    by_cases hr : 0 < (run ceiling actions).table.remaining
    · obtain ⟨k, hk, _⟩ := insert_inserted hs.valid v hr
      simp [hk, hr]
    · rw [insert_none hs.valid.toShaped (by omega)]
      simp [hr]

theorem table_safe_reused_slot :
    let h := run 2 ([.insert 7, .insert 8, .remove (pack 1 0), .insert 9] : List (Action ℕ))
    pack 1 0 ∈ h.removed ∧ h.table.get (pack 1 0) = none ∧ h.table.get (pack 2 0) = some 9 := by
  have ha := table_safe (show 2 ≤ 2 ^ 32 by decide)
    ([.insert 7, .insert 8, .remove (pack 1 0), .insert 9] : List (Action ℕ))
  exact ⟨by decide, (ha.2.1 (pack 1 0) (by decide)).1, (ha.2.2.1 (pack 2 0, 9) (by decide) (by decide)).1⟩

structure Filled (c n : ℕ) (t : Table T) : Prop where
  shaped : Shaped t
  ceiling : t.ceiling = c
  built : n ≤ t.slots.length
  free : t.free = List.range' n (t.slots.length - n)
  first : ∀ s ∈ t.slots, s.generation = 1

namespace Filled

variable {c n : ℕ} {t : Table T}

lemma grow (hf : Filled c n t) (hn : t.slots.length = n) : Filled c n t.grow.1 := by
  by_cases hb : t.pages.length * PAGE < t.ceiling
  · obtain ⟨m, _, hl, hr, _⟩ := grow_fresh hf.shaped hb
    have he : t.free = [] := by rw [hf.free, hn, Nat.sub_self, range'_zero]
    refine ⟨grow_shaped hf.shaped, by simpa using hf.ceiling, ?_, ?_, ?_⟩
    · rw [hl, length_append]
      omega
    · rw [hr, he, hl, length_append, length_replicate, append_nil, hn, Nat.add_sub_cancel_left]
    · intro s hs
      rw [hl, mem_append] at hs
      rcases hs with hs | hs
      · exact hf.first s hs
      · rw [eq_of_mem_replicate hs]
  · rwa [Table.grow, if_pos (not_lt.mp hb)]

lemma new (c : ℕ) : Filled c 0 (Table.new c : Table T) :=
  grow ⟨unbuilt_shaped c, rfl, Nat.zero_le _, by simp [slots], by simp [slots]⟩ (by simp [slots])

lemma ready (hf : Filled c n t) : Filled c n t.ready := by
  rw [Table.ready]
  split
  case isFalse => exact hf
  case isTrue he =>
    refine hf.grow ?_
    have hl : t.slots.length - n = 0 := by simpa [hf.free] using he
    have := hf.built
    omega

lemma insert (hf : Filled c n t) (hn : n < c) (v : T) : (t.insert v).2 = some (pack 1 n) ∧
    Filled c (n + 1) (t.insert v).1 := by
  have hr : 0 < t.remaining := by
    have hb := hf.shaped.balance
    have := hf.built
    rw [hf.free, length_range'] at hb
    rw [remaining, hf.ceiling]
    omega
  obtain ⟨i, _, s, hd, hs, _⟩ := ready_free hf.shaped hr
  have hy := hf.ready
  have hc := hy.free
  rw [hd] at hc
  obtain ⟨m, hm⟩ : ∃ m, t.ready.slots.length - n = m + 1 := by
    refine Nat.exists_eq_succ_of_ne_zero (fun hz => ?_)
    rw [hz] at hc
    cases hc
  rw [hm, range'_succ, cons_eq_cons] at hc
  obtain ⟨rfl, rfl⟩ := hc
  have hg : s.generation = 1 := hy.first s (mem_of_getElem? hs)
  have hw := insert_rewritten hf.shaped v hd hs
  have hl := hw.slots_eq hy.shaped
  have he := insert_some hf.shaped v hd hs
  refine ⟨by rw [he, hg], hw.shaped hy.shaped, ?_, ?_, ?_, ?_⟩
  · rw [hw.ceiling, hy.ceiling]
  · rw [hl, length_set]
    omega
  · rw [hl, length_set, he, Nat.sub_add_eq, hm, Nat.add_sub_cancel]
  · intro s' hs'
    rw [hl] at hs'
    rcases mem_or_eq_of_mem_set hs' with hs' | rfl
    · exact hy.first s' hs'
    · exact hg

end Filled

lemma fill (v : T) (hn : n ≤ c) : Filled c n (run c (List.replicate n (.insert v))).table ∧
      (run c (List.replicate n (.insert v))).issued.map Prod.fst = (List.range n).reverse.map (pack 1) := by
  induction n with
  | zero => exact ⟨.new c, rfl⟩
  | succ n ih =>
    obtain ⟨hf, hi⟩ := ih (by omega)
    obtain ⟨hk, hf'⟩ := hf.insert (by omega) v
    have he : run c (replicate (n + 1) (.insert v)) = (run c (replicate n (.insert v))).step (.insert v) := by
      rw [run, replicate_succ', foldl_append]
      rfl
    rw [he, step, Prod.ext (x := (run c (replicate n (.insert v))).table.insert v) (y := (_, some _)) rfl hk]
    refine ⟨hf', ?_⟩
    rw [map_cons, hi, range_succ, reverse_append]
    rfl

theorem keys_repeat_past_half :
    ¬((run (2 ^ 32 + 1) (List.replicate (2 ^ 32 + 1) (.insert ()))).issued.map Prod.fst).Nodup := by
  rw [(fill () le_rfl).2]
  intro hn
  have hm : ∀ i, i < 2 ^ 32 + 1 → i ∈ (range (2 ^ 32 + 1)).reverse := by
    intro i hi
    rw [mem_reverse, mem_range]
    exact hi
  have hb := inj_on_of_nodup_map hn (hm 0 (by omega)) (hm (2 ^ 32) (by omega)) (by decide)
  omega

end Turnloop.Table
