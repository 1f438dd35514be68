import Turnloop.Ring.Queue

/-! The way of each value through the queue. -/

namespace Turnloop.Ring

open Function

variable {k : ℕ} {P C T : Type} {i : Fin (2 ^ k)} {c : C}

inductive Stage (k : ℕ) (C : Type) where
  | start
  | probe (first offset : ℕ)
  | err
  | claimed (i : Fin (2 ^ k))
  | counted (i : Fin (2 ^ k))
  | written (i : Fin (2 ^ k))
  | full (i : Fin (2 ^ k))
  | leased (i : Fin (2 ^ k)) (c : C)
  | taken (i : Fin (2 ^ k)) (c : C)
  | uncounted (i : Fin (2 ^ k)) (c : C)
  | delivered (c : C)

def Pop.Idle : Pop k T → Prop
  | .check | .start | .probe _ _ | .done none => True
  | .claimed _ | .taken _ _ | .uncounted _ _ | .done (some _) | .undefined => False

namespace Stage

def push (v : T) : Stage k C → Push k T
  | .start => .start v
  | .probe first offset => .probe v first offset
  | .err => .err v
  | .claimed i => .claimed v i
  | .counted i => .counted v i
  | .written i => .written i
  | .full _ | .leased _ _ | .taken _ _ | .uncounted _ _ | .delivered _ => .ok

def cell : Stage k C → Option (Fin (2 ^ k))
  | .start | .probe _ _ | .err | .delivered _ => none
  | .claimed i | .counted i | .written i | .full i | .leased i _ | .taken i _ | .uncounted i _ => some i

def slot (v : T) : Stage k C → Slot T
  | .start | .probe _ _ | .err | .delivered _ => ⟨.empty, none⟩
  | .claimed _ | .counted _ => ⟨.producing, none⟩
  | .written _ => ⟨.producing, some v⟩
  | .full _ => ⟨.published, some v⟩
  | .leased _ _ => ⟨.consuming, some v⟩
  | .taken _ _ | .uncounted _ _ => ⟨.consuming, none⟩

def consumer : Stage k C → Option C
  | .leased _ c | .taken _ c | .uncounted _ c | .delivered c => some c
  | _ => none

def pop (v : T) : Stage k C → Pop k T
  | .leased i _ => .claimed i
  | .taken i _ => .taken i v
  | .uncounted i _ => .uncounted i v
  | .delivered _ => .done (some v)
  | _ => .check

def tally : Stage k C → Option (Fin (2 ^ k))
  | .counted i | .written i | .full i | .leased i _ | .taken i _ => some i
  | _ => none

lemma cell_of_tally {s : Stage k C} (h : s.tally = some i) : s.cell = some i := by
  cases s <;> simp_all [tally, cell]

lemma slot_ne_empty {s : Stage k C} {v : T} (h : s.cell = some i) : (s.slot v).state ≠ .empty := by
  cases s <;> simp_all [slot, cell]

lemma push_inside {s : Stage k C} (v : T) (h : s.cell = some i) :
    (∀ v', s.push v ≠ .start v') ∧ ∀ v' first offset, s.push v ≠ .probe v' first offset := by
  cases s <;> simp_all [push, cell]

lemma slot_outside {s : Stage k C} (h : s.cell = none) : s.slot v = ⟨.empty, none⟩ := by
  cases s <;> simp_all [slot, cell]

lemma pop_not_idle {s : Stage k C} {v : T} (h : s.consumer = some c) : ¬(s.pop v).Idle := by
  cases s <;> simp_all [pop, consumer, Pop.Idle]

end Stage

open Classical in
noncomputable def tallied (stage : P → Stage k C) : Finset (Fin (2 ^ k)) :=
  Finset.univ.filter (fun i => ∃ p, (stage p).tally = some i)

lemma mem_tallied : i ∈ tallied stage ↔ ∃ p, (stage p).tally = some i := by
  simp [tallied]

structure Tracks (arg : P → T) (stage : P → Stage k C) (m : Machine k P C T) : Prop where
  push : ∀ p, m.pushes p = (stage p).push (arg p)
  slot : ∀ p i, (stage p).cell = some i → m.queue.slots i = (stage p).slot (arg p)
  pop : ∀ p c, (stage p).consumer = some c → m.pops c = (stage p).pop (arg p)
  free : ∀ i, (∀ p, (stage p).cell ≠ some i) → m.queue.slots i = ⟨.empty, none⟩
  idle : ∀ c, (∀ p, (stage p).consumer ≠ some c) → (m.pops c).Idle
  cells : ∀ p p' i, (stage p).cell = some i → (stage p').cell = some i → p = p'
  consumers : ∀ p p' c, (stage p).consumer = some c → (stage p').consumer = some c → p = p'
  occupied : m.queue.occupied = (tallied stage).card

section

variable [DecidableEq P] {stage : P → Stage k C} {p : P} {s : Stage k C}

lemma tallied_same (h : s.tally = (stage p).tally) : tallied (Function.update stage p s) = tallied stage := by
  ext i
  simp only [mem_tallied]
  constructor
  · rintro ⟨q, hq⟩
    by_cases hp : q = p
    · subst hp
      exact ⟨q, by rwa [update_self, h] at hq⟩
    · exact ⟨q, by rwa [update_of_ne hp] at hq⟩
  · rintro ⟨q, hq⟩
    refine ⟨q, ?_⟩
    by_cases hp : q = p
    · subst hp
      rwa [update_self, h]
    · rwa [update_of_ne hp]

lemma tallied_gain (h : (stage p).tally = none) (hs : s.tally = some i) (hf : ∀ q, (stage q).tally ≠ some i) :
    (tallied (Function.update stage p s)).card = (tallied stage).card + 1 := by
  classical
  have he : tallied (update stage p s) = insert i (tallied stage) := by
    ext j
    simp only [mem_tallied, Finset.mem_insert]
    constructor
    · rintro ⟨q, hq⟩
      by_cases hp : q = p
      · subst hp
        rw [update_self, hs] at hq
        exact .inl (Option.some.inj hq).symm
      · exact .inr ⟨q, by rwa [update_of_ne hp] at hq⟩
    · rintro (rfl | ⟨q, hq⟩)
      · exact ⟨p, by rw [update_self, hs]⟩
      · refine ⟨q, ?_⟩
        rw [update_of_ne (by rintro rfl; rw [h] at hq; cases hq), hq]
  rw [he, Finset.card_insert_of_notMem]
  rw [mem_tallied]
  rintro ⟨q, hq⟩
  exact hf q hq

lemma tallied_loss (h : (stage p).tally = some i) (hs : s.tally = none) (ho : ∀ q, (stage q).tally = some i → q = p) :
    (tallied stage).card = (tallied (Function.update stage p s)).card + 1 := by
  have hb : stage = update (update stage p s) p (stage p) := by simp
  conv_lhs => rw [hb]
  apply tallied_gain (i := i) (by rw [update_self, hs]) h
  intro q hq
  by_cases hp : q = p
  · subst hp
    rw [update_self, hs] at hq
    cases hq
  · rw [update_of_ne hp] at hq
    exact hp (ho q hq)

end

lemma unique_update [DecidableEq P] {K : Type} {key : Stage k C → Option K}
    (h : ∀ q q' x, key (stage q) = some x → key (stage q') = some x → q = q')
    (hs : ∀ q x, q ≠ p → key (stage q) = some x → key s ≠ some x) (q q' : P) (x : K)
    (hq : key (Function.update stage p s q) = some x) (hq' : key (Function.update stage p s q') = some x) : q = q' := by
  by_cases hp : q = p <;> by_cases hp' : q' = p
  · rw [hp, hp']
  · subst hp
    rw [update_self] at hq
    rw [update_of_ne hp'] at hq'
    exact absurd hq (hs q' x hp' hq')
  · subst hp'
    rw [update_self] at hq'
    rw [update_of_ne hp] at hq
    exact absurd hq' (hs q x hp hq)
  · rw [update_of_ne hp] at hq
    rw [update_of_ne hp'] at hq'
    exact h q q' x hq hq'

namespace Tracks

variable {arg : P → T} {stage : P → Stage k C} {m m' : Machine k P C T} {v : T}

variable (h : Tracks arg stage m)
include h

lemma holder (hi : (m.queue.slots i).state ≠ .empty) :
    ∃ p, (stage p).cell = some i ∧ m.queue.slots i = (stage p).slot (arg p) := by
  by_contra hn
  push Not at hn
  apply hi
  rw [h.free i (fun p hp => hn p hp (h.slot p i hp))]

lemma empty_slot (hi : (m.queue.slots i).state = .empty) : m.queue.slots i = ⟨.empty, none⟩ := by
  apply h.free
  intro p hp
  rw [h.slot p i hp] at hi
  exact Stage.slot_ne_empty hp hi

lemma carrier {pop : Pop k T} (ho : m.pops c = pop) (hc : ¬pop.Idle) :
    ∃ p, (stage p).consumer = some c ∧ pop = (stage p).pop (arg p) := by
  subst ho
  by_contra hn
  push Not at hn
  exact hc (h.idle c (fun p hp => hn p hp (h.pop p c hp)))

lemma full_of_published (hi : (m.queue.slots i).state = .published) : ∃ p, stage p = .full i := by
  obtain ⟨p, hc, hl⟩ := h.holder (i := i) (by rw [hi]; decide)
  rw [hl] at hi
  refine ⟨p, ?_⟩
  cases hs : stage p <;> rw [hs] at hc hi <;> cases hi
  rw [Option.some.inj hc]

lemma leased_of_claimed (hc : m.pops c = .claimed i) : ∃ p, stage p = .leased i c := by
  obtain ⟨p, ho, hp⟩ := h.carrier hc id
  refine ⟨p, ?_⟩
  cases hs : stage p <;> rw [hs] at ho hp <;> cases hp
  rw [Option.some.inj ho]

lemma taken_of_taken (hc : m.pops c = .taken i v) : ∃ p, stage p = .taken i c ∧ v = arg p := by
  obtain ⟨p, ho, hp⟩ := h.carrier hc id
  refine ⟨p, ?_⟩
  cases hs : stage p <;> rw [hs] at ho hp <;> cases hp
  exact ⟨by rw [Option.some.inj ho], rfl⟩

lemma uncounted_of_uncounted (hc : m.pops c = .uncounted i v) : ∃ p, stage p = .uncounted i c ∧ v = arg p := by
  obtain ⟨p, ho, hp⟩ := h.carrier hc id
  refine ⟨p, ?_⟩
  cases hs : stage p <;> rw [hs] at ho hp <;> cases hp
  exact ⟨by rw [Option.some.inj ho], rfl⟩

lemma delivered_of_done (hc : m.pops c = .done (some v)) : ∃ p, stage p = .delivered c ∧ v = arg p := by
  obtain ⟨p, ho, hp⟩ := h.carrier hc id
  refine ⟨p, ?_⟩
  cases hs : stage p <;> rw [hs] at ho hp <;> cases hp
  exact ⟨by rw [Option.some.inj ho], rfl⟩

lemma advance [DecidableEq P] (p : P) (s : Stage k C) (hu : m'.pushes = Function.update m.pushes p (s.push (arg p)))
    (hl : ∀ i, (s.cell = some i → m'.queue.slots i = s.slot (arg p)) ∧
      (s.cell ≠ some i → (stage p).cell = some i → m'.queue.slots i = ⟨.empty, none⟩) ∧
      (s.cell ≠ some i → (stage p).cell ≠ some i → m'.queue.slots i = m.queue.slots i))
    (ho : ∀ c, (s.consumer = some c → m'.pops c = s.pop (arg p)) ∧ (s.consumer ≠ some c → m'.pops c = m.pops c))
    (hf : ∀ i, s.cell = some i → (stage p).cell = some i ∨ (m.queue.slots i).state = .empty)
    (hd : ∀ c, s.consumer = some c → (stage p).consumer = some c ∨ (m.pops c).Idle)
    (hk : ∀ c, (stage p).consumer = some c → s.consumer = some c)
    (hb : m'.queue.occupied = (tallied (Function.update stage p s)).card) :
    Tracks arg (Function.update stage p s) m' := by
  -- neither the cell nor the consumer of another value is touched
  have he : ∀ q i, q ≠ p → (stage q).cell = some i → s.cell ≠ some i ∧ (stage p).cell ≠ some i := by
    intro q i hq hi
    have hp : (stage p).cell ≠ some i := fun hp => hq (h.cells q p i hi hp)
    refine ⟨fun hs => ?_, hp⟩
    rcases hf i hs with hg | hm
    · exact hp hg
    · rw [h.slot q i hi] at hm
      exact Stage.slot_ne_empty hi hm
  have hn : ∀ q c, q ≠ p → (stage q).consumer = some c → s.consumer ≠ some c := by
    intro q c hq hc hs
    rcases hd c hs with hr | hi
    · exact hq (h.consumers q p c hc hr)
    · rw [h.pop q c hc] at hi
      exact Stage.pop_not_idle hc hi
  refine ⟨?_, ?_, ?_, ?_, ?_, ?_, ?_, hb⟩
  · intro q
    rw [hu]
    by_cases hq : q = p
    · subst hq
      simp
    · simp [hq, h.push q]
  · intro q i hi
    by_cases hq : q = p
    · subst hq
      rw [update_self] at hi ⊢
      exact (hl i).1 hi
    · rw [update_of_ne hq] at hi ⊢
      rw [(hl i).2.2 (he q i hq hi).1 (he q i hq hi).2, h.slot q i hi]
  · intro q c hc
    by_cases hq : q = p
    · subst hq
      rw [update_self] at hc ⊢
      exact (ho c).1 hc
    · rw [update_of_ne hq] at hc ⊢
      rw [(ho c).2 (hn q c hq hc), h.pop q c hc]
  · intro i hi
    have hs : s.cell ≠ some i := by simpa using hi p
    by_cases hp : (stage p).cell = some i
    · exact (hl i).2.1 hs hp
    · rw [(hl i).2.2 hs hp]
      apply h.free
      intro q
      by_cases hq : q = p
      · exact hq ▸ hp
      · simpa [hq] using hi q
  · intro c hc
    have hs : s.consumer ≠ some c := by simpa using hc p
    rw [(ho c).2 hs]
    apply h.idle
    intro q
    by_cases hq : q = p
    · exact fun ht => hs (hk c (hq ▸ ht))
    · simpa [hq] using hc q
  · exact unique_update h.cells (fun q i hq hi => (he q i hq hi).1)
  · exact unique_update h.consumers hn

end Tracks

end Turnloop.Ring
