import Turnloop.Table.Entries
import Mathlib.Data.Multiset.Basic

/-! A table as a finite map, with its keys renamed and part of its values left out. -/

namespace Turnloop.Table

variable {T K : Type} {t t' : Table T} {k : Key} {v v' w : T} {name : Key → K} {bare : T → T}

def view (name : Key → K) (bare : T → T) (t : Table T) : Multiset (K × T) :=
  (t.entries : Multiset (Key × T)).map (Prod.map name bare)

lemma entries_new (capacity : ℕ) : (new capacity : Table T).entries = [] := by
  obtain ⟨m, hm⟩ : ∃ m, (new capacity : Table T).slots = List.replicate m ⟨1, none⟩ := by
    rw [new, grow]
    split
    · exact ⟨0, rfl⟩
    · exact ⟨min PAGE capacity, by simp [slots]⟩
  rw [entries, hm, ← List.nil_append (List.replicate m _), entriesOf_replicate]
  rfl

lemma view_new (capacity : ℕ) : (new capacity : Table T).view name bare = 0 := by
  rw [view, entries_new]
  rfl

lemma remaining_new (capacity : ℕ) : (new capacity : Table T).remaining = capacity := by
  rw [new, grow]
  split <;> rfl

lemma mem_view (h : Valid t) (inj : name.Injective) : (name k, w) ∈ t.view name bare ↔ ∃ v, t.get k = some v ∧
    bare v = w := by
  simp only [view, Multiset.mem_map, Multiset.mem_coe, Prod.exists, Prod.map_apply, Prod.mk.injEq]
  constructor
  · rintro ⟨_, v, hv, hk, rfl⟩
    obtain rfl := inj hk
    exact ⟨v, (mem_entries h).mp hv, rfl⟩
  · rintro ⟨v, hv, rfl⟩
    exact ⟨k, v, (mem_entries h).mpr hv, rfl, rfl⟩

lemma exists_of_mem_view (h : Valid t) (hp : p ∈ t.view name bare) :
    ∃ k v, p = (name k, bare v) ∧ t.get k = some v := by
  obtain ⟨⟨k, v⟩, hv, rfl⟩ := Multiset.mem_map.mp hp
  exact ⟨k, v, rfl, (mem_entries h).mp hv⟩

lemma view_of_perm (hp : t.entries.Perm ((k, v) :: l)) :
    t.view name bare = (name k, bare v) ::ₘ (l : Multiset (Key × T)).map (Prod.map name bare) := by
  rw [view, Multiset.coe_eq_coe.mpr hp, ← Multiset.cons_coe, Multiset.map_cons]
  rfl

lemma Inserted.view (i : Inserted t t' k v) : t'.view name bare = (name k, bare v) ::ₘ t.view name bare :=
  view_of_perm i.entries

lemma Inserted.remaining (i : Inserted t t' k v) : t'.remaining = t.remaining - 1 := by
  have hc := i.ceiling
  have hl := i.live
  unfold Table.remaining
  omega

lemma insert_eq_some (h : Valid t) (hi : t.insert v = (t', some k)) : Inserted t t' k v := by
  rcases Nat.eq_zero_or_pos t.remaining with hr | hr
  · rw [insert_none h.toShaped hr] at hi
    cases hi
  · obtain ⟨_, hk', ins⟩ := insert_inserted h v hr
    rw [hi] at hk' ins
    exact Option.some.inj hk' ▸ ins

lemma Removed.view (r : Removed t t' k v) : t.view name bare = (name k, bare v) ::ₘ t'.view name bare :=
  view_of_perm r.entries

lemma Removed.remaining (r : Removed t t' k v) : t.remaining ≤ t'.remaining ∧ t'.remaining ≤ t.remaining + 1 := by
  have hc := r.ceiling
  have hl := r.live
  unfold Table.remaining
  omega

lemma view_modify (h : Valid t) (inj : name.Injective) (hS : t.view name bare = (name k, v) ::ₘ S)
    (hf : ∀ raw, t.get k = some raw → bare raw = v → bare (f raw) = w) :
    (t.modify k f).view name bare = (name k, w) ::ₘ S := by
  obtain ⟨raw, hr, rfl⟩ := (mem_view h inj).mp (hS ▸ Multiset.mem_cons_self _ _)
  obtain ⟨_, hp, hp'⟩ := (modify_modified h hr f).entries
  rw [view_of_perm hp, Multiset.cons_inj_right] at hS
  rw [view_of_perm hp', hf raw hr rfl, hS]

/-- A table in order that remembers the keys handed out by `t`. -/
structure Later (t t' : Table T) : Prop where
  valid : Valid t'
  used : ∀ k, t.Used k → t'.Used k

namespace Later

lemma refl (h : Valid t) : Later t t := ⟨h, fun _ hk => hk⟩

lemma trans (l : Later t t') (l' : Later t' t'') : Later t t'' :=
  ⟨l'.valid, fun k hk => l'.used k (l.used k hk)⟩

end Later

lemma Inserted.later (i : Inserted t t' k v) : Later t t' := ⟨i.valid, i.mono⟩

lemma Removed.later (r : Removed t t' k v) : Later t t' := ⟨r.valid, r.mono⟩

lemma modify_later (h : Valid t) (k : Key) (f : T → T) : Later t (t.modify k f) := by
  cases hk : t.get k with
  | none =>
    rw [modify_none hk]
    exact .refl h
  | some =>
    have m := modify_modified h hk f
    exact ⟨m.valid, fun k' hk' => (m.used k').mpr hk'⟩

@[simp] lemma modify_remaining (t : Table T) (k : Key) (f : T → T) : (t.modify k f).remaining = t.remaining := by
  rw [modify, getMut]
  cases t.slot (index k) with
  | none => rfl
  | some s =>
    by_cases hg : s.generation = generationOf k
    · cases hv : s.value <;> simp [hg, hv, setSlot, remaining]
    · simp [hg]

/-- A table that differs from `t` in what is left out, at most. -/
structure Relinked (bare : T → T) (t t' : Table T) : Prop extends Later t t' where
  view : ∀ {K : Type} (name : Key → K), t'.view name bare = t.view name bare

namespace Relinked

lemma refl (h : Valid t) : Relinked bare t t := ⟨.refl h, fun _ => rfl⟩

lemma trans (l : Relinked bare t t') (l' : Relinked bare t' t'') : Relinked bare t t'' :=
  ⟨l.toLater.trans l'.toLater, fun name => (l'.view name).trans (l.view name)⟩

end Relinked

lemma modify_relinked (h : Valid t) (k : Key) (same : ∀ v, bare (f v) = bare v) : Relinked bare t (t.modify k f) := by
  refine ⟨modify_later h k f, fun name => ?_⟩
  cases hk : t.get k with
  | none => rw [modify_none hk]
  | some =>
    obtain ⟨_, hp, hp'⟩ := (modify_modified h hk f).entries
    rw [view_of_perm hp, view_of_perm hp', same]

end Turnloop.Table
