import Turnloop.Ring.Delivery

/-! Once the producers stop, the pops that follow empty the queue. -/

namespace Turnloop.Ring

variable {k : ℕ} {P C T : Type}

lemma probed_val {k : ℕ} (hk : k < 64) : (probed k first offset).val = (first + offset) % 2 ^ k := by
  simp only [probed, Nat.and_two_pow_sub_one_eq_mod, word]
  exact Nat.mod_mod_of_dvd _ (Nat.pow_dvd_pow 2 hk.le)

lemma probed_surjective (hk : k < 64) (first : ℕ) (i : Fin (2 ^ k)) : ∃ j < 2 ^ k, probed k first j = i := by
  have hp := Nat.two_pow_pos k
  refine ⟨(i.val + (2 ^ k - first % 2 ^ k)) % 2 ^ k, Nat.mod_lt _ hp, Fin.ext ?_⟩
  have hl := Nat.mod_lt first hp
  rw [probed_val hk, Nat.add_mod_mod, ← Nat.mod_add_mod]
  have hu : first % 2 ^ k + (i.val + (2 ^ k - first % 2 ^ k)) = i.val + 2 ^ k := by omega
  rw [hu, Nat.add_mod_right, Nat.mod_eq_of_lt i.isLt]

def Pop.left : Pop k T → ℕ
  | .check => 2 ^ k + 5
  | .start => 2 ^ k + 4
  | .probe _ offset => 2 ^ k - offset - 1 + 4
  | .claimed _ => 3
  | .taken _ _ => 2
  | .uncounted _ _ => 1
  | .done _ | .undefined => 0

lemma Pop.step_left (q : Queue k T) (φ : Pop k T) : (φ.step q).2.left ≤ φ.left - 1 := by
  have hp := Nat.two_pow_pos k
  cases φ with
  | check | claimed =>
    rw [Pop.step]
    split <;> simp [Pop.left]
  | start =>
    simp only [Pop.step, Pop.left]
    omega
  | probe first offset =>
    rw [Pop.step]
    split
    · simp only [Pop.left]
      omega
    · split
      · simp only [Pop.left]
        omega
      · simp [Pop.left]
  | taken | uncounted | done | undefined => simp [Pop.step, Pop.left]

section

variable [DecidableEq P] [DecidableEq C] {arg : P → T} {stage : P → Stage k C} {m : Machine k P C T}

lemma exec_left (m : Machine k P C T) (actions : List (Action P C)) (c : C) :
    ((m.exec actions).pops c).left ≤ (m.pops c).left - actions.count (.pop c) := by
  induction actions generalizing m with
  | nil => simp [Machine.exec]
  | cons a actions ih =>
    have hr := ih (m.step a)
    have hp : ((m.step a).pops c).left ≤ (m.pops c).left - [a].count (.pop c) := by
      cases a with
      | push => simp [Machine.step]
      | pop c' =>
        by_cases hc : c' = c
        · subst hc
          simpa [Machine.step] using (m.pops c').step_left m.queue
        · simp [Machine.step, hc, Function.update_of_ne (Ne.symm hc)]
    change (((m.step a).exec actions).pops c).left ≤ _
    rw [List.count_cons]
    simp only [List.count_singleton] at hp
    omega

lemma pop_returns (hk : k < 64) (arg : P → T) (c : C) (hc : 2 ^ k + 5 ≤ actions.count (.pop c)) :
    ∃ r, ((Machine.init arg : Machine k P C T).exec actions).pops c = .done r := by
  obtain ⟨_, h⟩ := exec_tracks hk arg actions
  have hl := exec_left (.init arg : Machine k P C T) actions c
  have hu := h.not_undefined c
  have hp := Nat.two_pow_pos k
  change _ ≤ 2 ^ k + 5 - _ at hl
  generalize ((.init arg : Machine k P C T).exec actions).pops c = φ at *
  cases φ with
  | done r => exact ⟨r, rfl⟩
  | undefined => exact absurd rfl hu
  | check | start | probe | claimed | taken | uncounted =>
    simp only [Pop.left] at hl
    omega

end

section

variable (q : Queue k T) (i j : Fin (2 ^ k))

@[simp] lemma setState_state (t : Tag) : ((q.setState i t).slots j).state = if j = i then t else (q.slots j).state := by
  by_cases h : j = i
  · subst h
    simp [Queue.setState]
  · simp [Queue.setState, h]

@[simp] lemma setValue_state (v : Option T) : ((q.setValue i v).slots j).state = (q.slots j).state := by
  by_cases h : j = i
  · subst h
    simp [Queue.setValue]
  · simp [Queue.setValue, h]

lemma Pop.step_published (φ : Pop k T) : (∃ i, (q.slots i).state = .published ∧
      ∀ j, ((φ.step q).1.slots j).state = .published → j ≠ i ∧ (q.slots j).state = .published) ∨
    (((φ.step q).2.Idle ↔ φ.Idle) ∧ ∀ j, ((φ.step q).1.slots j).state = .published →
      (q.slots j).state = .published) := by
  cases φ with
  | check | claimed =>
    refine .inr ?_
    rw [Pop.step]
    split <;> simp [Pop.Idle]
  | start | taken | done | undefined => exact .inr ⟨Iff.rfl, fun _ => id⟩
  | probe first off =>
    rw [Pop.step]
    split
    case isTrue hp =>
      refine .inl ⟨_, hp, fun j => ?_⟩
      by_cases hj : j = probed k first off <;> simp [hj]
    case isFalse =>
      refine .inr ?_
      split <;> simp [Pop.Idle]
  | uncounted i =>
    refine .inr ⟨Iff.rfl, fun j => ?_⟩
    by_cases hj : j = i <;> simp [Pop.step, hj]

lemma Pop.step_publishes_nothing (φ : Pop k T) (hj : ((φ.step q).1.slots j).state = .published) : (q.slots j).state =
    .published := by
  rcases φ.step_published q with ⟨_, _, h⟩ | ⟨_, h⟩
  · exact (h j hj).2
  · exact h j hj

end

def Pop.Swept (q : Queue k T) : Pop k T → Prop
  | .probe first offset => ∀ j < offset, (q.slots (probed k first j)).state ≠ .published
  | .done none => ∀ i, (q.slots i).state ≠ .published
  | _ => True

lemma Pop.Swept.mono {φ : Pop k T} (h : φ.Swept q)
    (hl : ∀ i, (q'.slots i).state = .published → (q.slots i).state = .published) : φ.Swept q' := by
  cases φ with
  | probe => exact fun j hj hp => h j hj (hl _ hp)
  | done r =>
    cases r with
    | none => exact fun i hp => h i (hl i hp)
    | some v => trivial
  | check | start | claimed | taken | uncounted | undefined => trivial

lemma Pop.Swept.step (hk : k < 64) {φ : Pop k T} (h : φ.Swept q)
    (hm : q.isEmpty → ∀ i, (q.slots i).state ≠ .published) : (φ.step q).2.Swept (φ.step q).1 := by
  cases φ with
  | check =>
    rw [Pop.step]
    split
    case isTrue he => exact hm he
    case isFalse => trivial
  | start =>
    intro j hj
    omega
  | probe first off =>
    have ho : (q.slots (probed k first off)).state ≠ .published →
      ∀ j ≤ off, (q.slots (probed k first j)).state ≠ .published := by
      intro hl j hj
      rcases hj.lt_or_eq with ht | rfl
      · exact h j ht
      · exact hl
    rw [Pop.step]
    split
    case isTrue => trivial
    case isFalse hp =>
      split
      case isTrue => exact fun j hj => ho hp j (by omega)
      case isFalse hr =>
        intro i
        obtain ⟨j, hj, rfl⟩ := probed_surjective hk first i
        exact ho hp j (by omega)
  | claimed i =>
    rw [Pop.step]
    split <;> trivial
  | taken | uncounted | undefined => trivial
  | done => exact h

instance (φ : Pop k T) : Decidable φ.Idle :=
  match φ with
  | .check | .start | .probe _ _ | .done none => isTrue trivial
  | .claimed _ | .taken _ _ | .uncounted _ _ | .done (some _) | .undefined => isFalse id

structure Draining (fresh : Finset C) (m : Machine k P C T) : Prop where
  swept : ∀ c ∈ fresh, (m.pops c).Swept m.queue
  took : (fresh.filter (fun c => ¬(m.pops c).Idle)).card + m.published.card ≤ 2 ^ k

section

variable [DecidableEq P] [DecidableEq C] {arg : P → T} {stage : P → Stage k C} {m : Machine k P C T} {fresh : Finset C}

omit [DecidableEq P] [DecidableEq C] in
lemma draining_start (hf : ∀ c ∈ fresh, m.pops c = .check) : Draining fresh m := by
  refine ⟨fun c hc => ?_, ?_⟩
  · rw [hf c hc]
    trivial
  · have hn : fresh.filter (fun c => ¬(m.pops c).Idle) = ∅ := by
      rw [Finset.filter_eq_empty_iff]
      intro c hc hi
      rw [hf c hc] at hi
      exact hi trivial
    have hl := Finset.card_le_univ m.published
    rw [Fintype.card_fin] at hl
    rw [hn, Finset.card_empty]
    omega

lemma draining_pop (hk : k < 64) (h : Tracks arg stage m) (hd : Draining fresh m) :
    Draining fresh (m.step (.pop c)) := by
  have hp : ∀ i, ((m.step (.pop c)).queue.slots i).state = .published → (m.queue.slots i).state = .published :=
    fun i => (m.pops c).step_publishes_nothing m.queue i
  refine ⟨fun c' hc' => ?_, ?_⟩
  · by_cases hc : c' = c
    · subst hc
      have hm : m.queue.isEmpty → ∀ i, (m.queue.slots i).state ≠ .published := by
        intro he i hi
        have hb := Machine.mem_published.mpr hi
        simp [h.empty_unpublished he] at hb
      simpa [Machine.step] using (hd.swept c' hc').step hk hm
    · simpa [Machine.step, hc] using (hd.swept c' hc').mono hp
  · have ho : ∀ c', c' ≠ c → (m.step (.pop c)).pops c' = m.pops c' := by
      intro c' hc
      simp [Machine.step, hc]
    have ht := hd.took
    rcases (m.pops c).step_published m.queue with ⟨i, hi, hr⟩ | ⟨hl, hr⟩
    · have hf : (m.step (.pop c)).published ⊆ m.published.erase i := by
        intro j hj
        have hj' := hr j (Machine.mem_published.mp hj)
        exact Finset.mem_erase.mpr ⟨hj'.1, Machine.mem_published.mpr hj'.2⟩
      have hg : fresh.filter (fun c' => ¬((m.step (.pop c)).pops c').Idle) ⊆
          insert c (fresh.filter (fun c' => ¬(m.pops c').Idle)) := by
        intro c' hc'
        rw [Finset.mem_filter] at hc'
        by_cases hc : c' = c
        · exact Finset.mem_insert.mpr (.inl hc)
        · exact Finset.mem_insert_of_mem (Finset.mem_filter.mpr ⟨hc'.1, ho c' hc ▸ hc'.2⟩)
      have ha := Finset.card_le_card hf
      have ha' := (Finset.card_le_card hg).trans (Finset.card_insert_le _ _)
      have hn := Finset.card_pos.mpr ⟨i, Machine.mem_published.mpr hi⟩
      rw [Finset.card_erase_of_mem (Machine.mem_published.mpr hi)] at ha
      omega
    · have hs : fresh.filter (fun c' => ¬((m.step (.pop c)).pops c').Idle) =
        fresh.filter (fun c' => ¬(m.pops c').Idle) := by
        apply Finset.filter_congr
        intro c' _
        by_cases hc : c' = c
        · subst hc
          simpa [Machine.step] using not_congr hl
        · rw [ho c' hc]
      have ha : (m.step (.pop c)).published.card ≤ m.published.card := by
        apply Finset.card_le_card
        intro j hj
        exact Machine.mem_published.mpr (hr j (Machine.mem_published.mp hj))
      rw [hs]
      omega

lemma draining_pops (hk : k < 64) (h : Tracks arg stage m) (hd : Draining fresh m) (cs : List C) :
    (∃ stage', Tracks arg stage' (m.exec (cs.map .pop))) ∧ Draining fresh (m.exec (cs.map .pop)) ∧
      (m.exec (cs.map .pop)).pushes = m.pushes := by
  induction cs generalizing m stage with
  | nil => exact ⟨⟨stage, h⟩, hd, rfl⟩
  | cons c cs ih =>
    obtain ⟨stage', h'⟩ := tracks_pop hk h c
    exact ih h' (draining_pop hk h hd)

lemma drained (hk : k < 64) (h : Tracks arg stage m) (hf : ∀ c ∈ fresh, m.pops c = .check)
    (ha : 2 ^ k ≤ fresh.card) (cs : List C) (ho : ∀ c ∈ fresh, ∃ r, (m.exec (cs.map .pop)).pops c = .done r) :
    (m.exec (cs.map .pop)).published = ∅ := by
  obtain ⟨_, hd, _⟩ := draining_pops hk h (draining_start hf) cs
  by_cases hn : ∃ c ∈ fresh, (m.exec (cs.map .pop)).pops c = .done none
  · obtain ⟨c, hc, hn⟩ := hn
    have hw := hd.swept c hc
    rw [hn] at hw
    rw [Finset.eq_empty_iff_forall_notMem]
    exact fun i hi => hw i (Machine.mem_published.mp hi)
  · have hl : fresh.filter (fun c => ¬((m.exec (cs.map .pop)).pops c).Idle) = fresh := by
      rw [Finset.filter_eq_self]
      intro c hc he
      obtain ⟨r, hr⟩ := ho c hc
      cases r with
      | none => exact hn ⟨c, hc, hr⟩
      | some =>
        rw [hr] at he
        exact he
    have ht := hd.took
    rw [hl] at ht
    exact Finset.card_eq_zero.mp (by omega)

theorem queue_exactly_once {α : Type} (hk : k < 64) (payload : P → α) (actions : List (Action P C)) :
    let arg := fun p => (p, payload p)
    let m := (.init arg : Machine k P C (P × α)).exec actions
    (∀ c c' v, m.pops c = .done (some v) → m.pops c' = .done (some v) → c = c') ∧
    (∀ c v, m.pops c = .done (some v) → ∃ p, v = arg p ∧ m.pushes p = .ok) ∧
    (∀ p v, m.pushes p = .err v → v = arg p ∧ ∀ c, m.pops c ≠ .done (some v)) ∧
    (∀ (cs : List C) (fresh : Finset C), 2 ^ k ≤ fresh.card → (∀ c ∈ fresh, m.pops c = .check) →
      let m' := m.exec (cs.map .pop)
      (∀ c ∈ fresh, ∃ r, m'.pops c = .done r) → (∀ c, (m'.pops c).Settled) →
      ∀ p, m.pushes p = .ok → ∃! c, m'.pops c = .done (some (arg p))) ∧
    (∀ c, 2 ^ k + 5 ≤ actions.count (.pop c) → ∃ r, m.pops c = .done r) ∧
    (∀ c i, m.pops c = .claimed i → (m.value i).isSome) ∧
    (∀ c, m.pops c ≠ .undefined) ∧
    (∀ c c' i, (m.pops c).slot = some i → (m.pops c').slot = some i → c = c') ∧
    (∀ p p' i, (m.pushes p).slot = some i → (m.pushes p').slot = some i → p = p') ∧
    (∀ p c i, (m.pushes p).slot = some i → (m.pops c).slot ≠ some i) ∧
    m.published.card ≤ m.queue.occupied ∧
    (∀ c i v, m.pops c = .taken i v → 0 < m.queue.occupied) ∧
    (m.queue.isEmpty → m.published = ∅) := by
  intro arg m
  have ha : Function.Injective arg := fun p p' hp => (Prod.mk.inj hp).1
  obtain ⟨_, h⟩ := exec_tracks (k := k) (C := C) hk arg actions
  refine ⟨fun c c' v => h.delivered_once ha, fun c v => h.delivered_ok, ?_, ?_, pop_returns hk arg,
    fun c i => h.claimed_value, h.not_undefined, fun c c' i => h.pop_slot_unique, fun p p' i => h.push_slot_unique,
    fun p c i hp => h.push_pop_apart hp, h.published_le_occupied, fun c i v => h.taken_occupied, h.empty_unpublished⟩
  · intro p v hp
    refine ⟨h.refused_value hp, fun c hc => ?_⟩
    obtain ⟨p', hv, ho⟩ := h.delivered_ok hc
    obtain rfl := ha ((h.refused_value hp).symm.trans hv)
    cases hp.symm.trans ho
  · intro cs fresh hb hf m' hd he p hp
    obtain ⟨⟨_, h'⟩, _, hu⟩ := draining_pops hk h (draining_start hf) cs
    obtain ⟨c, hc⟩ := h'.all_delivered (drained hk h hf hb cs hd) he (hu ▸ hp)
    exact ⟨c, hc, fun c' hc' => h'.delivered_once ha hc' hc⟩

end

theorem queue_exactly_once_two_slots :
    let m := (.init (fun p => (p, p.val + 7)) : Machine 1 (Fin 2) (Fin 2) (Fin 2 × ℕ)).exec
      [.push 0, .push 1, .push 1, .push 0, .push 0, .push 0, .push 0, .push 1, .push 1, .push 1]
    m.pushes 0 = .ok ∧ ∃! c, (m.exec (([0, 0, 0, 1, 1, 1, 0, 0, 0, 1, 1, 1] : List (Fin 2)).map .pop)).pops c =
      .done (some (0, 7)) := by
  have h := queue_exactly_once (k := 1) (C := Fin 2) (by decide) (fun p : Fin 2 => p.val + 7)
    [.push 0, .push 1, .push 1, .push 0, .push 0, .push 0, .push 0, .push 1, .push 1, .push 1]
  refine ⟨by decide, h.2.2.2.1 [0, 0, 0, 1, 1, 1, 0, 0, 0, 1, 1, 1] Finset.univ (by decide) (by decide) ?_ (by decide)
    0 (by decide)⟩
  intro c _
  fin_cases c <;> exact ⟨_, rfl⟩

end Turnloop.Ring
