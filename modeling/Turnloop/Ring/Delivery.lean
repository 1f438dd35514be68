import Turnloop.Ring.Simulation

/-! What the consumers of the queue receive. -/

namespace Turnloop.Ring

variable {k : ℕ} {P C T : Type} {i : Fin (2 ^ k)}

def Push.slot : Push k T → Option (Fin (2 ^ k))
  | .claimed _ i | .counted _ i | .written i => some i
  | _ => none

def Pop.slot : Pop k T → Option (Fin (2 ^ k))
  | .claimed i | .taken i _ | .uncounted i _ => some i
  | _ => none

def Pop.Settled : Pop k T → Prop
  | .check | .done _ => True
  | _ => False

instance (φ : Pop k T) : Decidable φ.Settled :=
  match φ with
  | .check | .done _ => isTrue trivial
  | .start | .probe _ _ | .claimed _ | .taken _ _ | .uncounted _ _ | .undefined => isFalse id

def Machine.published (m : Machine k P C T) : Finset (Fin (2 ^ k)) :=
  Finset.univ.filter (fun i => m.state i = .published)

lemma Machine.mem_published {m : Machine k P C T} : i ∈ m.published ↔ m.state i = .published := by
  simp [published]

namespace Tracks

variable {arg : P → T} {stage : P → Stage k C} {m : Machine k P C T} {c : C} {p : P} {v : T}

variable (h : Tracks arg stage m)
include h

lemma push_slot (hp : (m.pushes p).slot = some i) : (stage p).cell = some i ∧ (stage p).consumer = none := by
  rw [h.push p] at hp
  cases hs : stage p <;> rw [hs] at hp <;> cases hp <;> exact ⟨rfl, rfl⟩

lemma pop_slot (hc : (m.pops c).slot = some i) : ∃ p, (stage p).cell = some i ∧ (stage p).consumer = some c := by
  cases hφ : m.pops c with
  | claimed =>
    obtain ⟨p, hs⟩ := h.leased_of_claimed hφ
    rw [hφ] at hc
    exact ⟨p, by rw [hs]; exact hc, by rw [hs]; rfl⟩
  | taken =>
    obtain ⟨p, hs, _⟩ := h.taken_of_taken hφ
    rw [hφ] at hc
    exact ⟨p, by rw [hs]; exact hc, by rw [hs]; rfl⟩
  | uncounted =>
    obtain ⟨p, hs, _⟩ := h.uncounted_of_uncounted hφ
    rw [hφ] at hc
    exact ⟨p, by rw [hs]; exact hc, by rw [hs]; rfl⟩
  | check | start | probe | done | undefined =>
    rw [hφ] at hc
    cases hc

lemma pop_slot_unique {c' : C} (hc : (m.pops c).slot = some i) (hc' : (m.pops c').slot = some i) : c = c' := by
  obtain ⟨p, hp, hb⟩ := h.pop_slot hc
  obtain ⟨p', hp', hb'⟩ := h.pop_slot hc'
  obtain rfl := h.cells p p' i hp hp'
  exact Option.some.inj (hb.symm.trans hb')

lemma push_slot_unique {p' : P} (hp : (m.pushes p).slot = some i) (hp' : (m.pushes p').slot = some i) : p = p' :=
  h.cells p p' i (h.push_slot hp).1 (h.push_slot hp').1

lemma push_pop_apart (hp : (m.pushes p).slot = some i) : (m.pops c).slot ≠ some i := by
  intro hc
  obtain ⟨p', hp', ho⟩ := h.pop_slot hc
  obtain rfl := h.cells p p' i (h.push_slot hp).1 hp'
  cases (h.push_slot hp).2.symm.trans ho

lemma claimed_value (hc : m.pops c = .claimed i) : (m.value i).isSome := by
  obtain ⟨p, hs⟩ := h.leased_of_claimed hc
  have hl := h.slot p i (by rw [hs]; rfl)
  rw [Machine.value, hl, hs]
  rfl

lemma not_undefined (c : C) : m.pops c ≠ .undefined := by
  intro hc
  obtain ⟨p, _, hp⟩ := h.carrier hc id
  cases hs : stage p <;> rw [hs] at hp <;> cases hp

lemma delivered_ok (hc : m.pops c = .done (some v)) : ∃ p, v = arg p ∧ m.pushes p = .ok := by
  obtain ⟨p, hs, rfl⟩ := h.delivered_of_done hc
  exact ⟨p, rfl, by rw [h.push p, hs]; rfl⟩

lemma delivered_once (ha : Function.Injective arg) {c' : C} (hc : m.pops c = .done (some v))
    (hc' : m.pops c' = .done (some v)) : c = c' := by
  obtain ⟨p, hs, rfl⟩ := h.delivered_of_done hc
  obtain ⟨_, hs', ha'⟩ := h.delivered_of_done hc'
  obtain rfl := ha ha'
  rw [hs] at hs'
  cases hs'
  rfl

lemma refused_value (hp : m.pushes p = .err v) : v = arg p := by
  rw [h.push p] at hp
  cases hs : stage p <;> rw [hs] at hp <;> cases hp
  rfl

lemma published_tallied : m.published ⊆ tallied stage := by
  intro i hi
  obtain ⟨p, hs⟩ := h.full_of_published (Machine.mem_published.mp hi)
  exact mem_tallied.mpr ⟨p, by rw [hs]; rfl⟩

lemma published_le_occupied : m.published.card ≤ m.queue.occupied := by
  rw [h.occupied]
  exact Finset.card_le_card h.published_tallied

lemma taken_occupied (hc : m.pops c = .taken i v) : 0 < m.queue.occupied := by
  obtain ⟨p, hs, _⟩ := h.taken_of_taken hc
  rw [h.occupied, Finset.card_pos]
  exact ⟨i, mem_tallied.mpr ⟨p, by rw [hs]; rfl⟩⟩

lemma empty_unpublished (he : m.queue.isEmpty) : m.published = ∅ := by
  have hl := h.published_le_occupied
  have hz : m.queue.occupied = 0 := by simpa [Queue.isEmpty] using he
  exact Finset.card_eq_zero.mp (by omega)

lemma all_delivered (hu : m.published = ∅) (ho : ∀ c, (m.pops c).Settled) (hp : m.pushes p = .ok) :
    ∃ c, m.pops c = .done (some (arg p)) := by
  rw [h.push p] at hp
  cases hs : stage p with
  | delivered c => exact ⟨c, by rw [h.pop p c (by rw [hs]; rfl), hs]; rfl⟩
  | full i =>
    have hl := h.slot p i (by rw [hs]; rfl)
    have hm : i ∈ m.published := by
      rw [Machine.mem_published, Machine.state, hl, hs]
      rfl
    simp [hu] at hm
  | leased i c | taken i c | uncounted i c =>
    have hc := ho c
    rw [h.pop p c (by rw [hs]; rfl), hs] at hc
    exact hc.elim
  | start | probe | err | claimed | counted | written =>
    rw [hs] at hp
    cases hp

end Tracks

end Turnloop.Ring
