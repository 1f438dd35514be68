import Turnloop.Ring.Custody

/-! Every atomic step moves at most one value by one stage. -/

namespace Turnloop.Ring

open Function

variable {k : ℕ} {P C T : Type}
variable {arg : P → T} {stage : P → Stage k C} {m m' : Machine k P C T}

namespace Tracks

lemma tallied_lt (hk : k < 64) (stage : P → Stage k C) : (tallied stage).card < word := by
  calc (tallied stage).card ≤ Fintype.card (Fin (2 ^ k)) := Finset.card_le_univ _
    _ = 2 ^ k := Fintype.card_fin _
    _ < word := Nat.pow_lt_pow_right (by decide) hk

section

variable [DecidableEq P] {p : P} {s₀ : Stage k C}

lemma still (h : Tracks arg stage m) (hs : stage p = s₀) (s : Stage k C) (he : s.cell = s₀.cell)
    (hl : s.slot (arg p) = s₀.slot (arg p)) (ho : s.consumer = s₀.consumer)
    (hp : s.pop (arg p) = s₀.pop (arg p)) (hu : m'.pushes = Function.update m.pushes p (s.push (arg p)))
    (hb : m'.queue.slots = m.queue.slots) (hd : m'.pops = m.pops)
    (hf : m'.queue.occupied = (tallied (Function.update stage p s)).card) :
    Tracks arg (Function.update stage p s) m' := by
  subst hs
  refine h.advance p s hu ?_ ?_ ?_ ?_ ?_ hf
  · intro i
    rw [hb]
    refine ⟨fun hi => ?_, fun hi hi' => absurd (he.trans hi') hi, fun _ _ => rfl⟩
    rw [hl]
    exact h.slot p i (he ▸ hi)
  · intro c
    rw [hd]
    refine ⟨fun hc => ?_, fun _ => rfl⟩
    rw [hp]
    exact h.pop p c (ho ▸ hc)
  · exact fun i hi => .inl (he ▸ hi)
  · exact fun c hc => .inl (ho ▸ hc)
  · exact fun c hc => ho.trans hc

lemma move (h : Tracks arg stage m) (hs : stage p = s₀) (s : Stage k C) (i : Fin (2 ^ k))
    (hw : s.cell = some i ∨ s.cell = none)
    (ho : s₀.cell = some i ∨ (s₀.cell = none ∧ (m.queue.slots i).state = .empty))
    (hu : m'.pushes = Function.update m.pushes p (s.push (arg p)))
    (hl : m'.queue.slots = Function.update m.queue.slots i (s.slot (arg p)))
    (hb : ∀ c, (s.consumer = some c → m'.pops c = s.pop (arg p)) ∧ (s.consumer ≠ some c → m'.pops c = m.pops c))
    (hi : ∀ c, s.consumer = some c → s₀.consumer = some c ∨ (m.pops c).Idle)
    (hk : ∀ c, s₀.consumer = some c → s.consumer = some c)
    (hc : m'.queue.occupied = (tallied (Function.update stage p s)).card) :
    Tracks arg (Function.update stage p s) m' := by
  subst hs
  refine h.advance p s hu ?_ hb ?_ hi hk hc
  · intro j
    rw [hl]
    by_cases hj : j = i
    · subst hj
      rw [update_self]
      refine ⟨fun _ => rfl, fun hs _ => ?_, fun hs hp => ?_⟩
      · exact Stage.slot_outside (hw.resolve_left hs)
      · rcases ho with ho | ⟨_, he⟩
        · exact absurd ho hp
        · rw [Stage.slot_outside (hw.resolve_left hs), h.empty_slot he]
    · rw [update_of_ne hj]
      refine ⟨fun hs => ?_, fun _ hp => ?_, fun _ _ => rfl⟩
      · rcases hw with hw | hw
        · exact absurd (Option.some.inj (hs.symm.trans hw)) hj
        · cases hw.symm.trans hs
      · rcases ho with ho | ⟨hn, _⟩
        · exact absurd (Option.some.inj (hp.symm.trans ho)) hj
        · cases hn.symm.trans hp
  · intro j hj
    rcases hw with hw | hw
    · obtain rfl := Option.some.inj (hj.symm.trans hw)
      exact ho.imp id (fun ho => ho.2)
    · cases hw.symm.trans hj

lemma carry [DecidableEq C] (h : Tracks arg stage m) (hs : stage p = s₀) (i : Fin (2 ^ k))
    (hw : s.cell = some i ∨ s.cell = none) (ho : s₀.cell = some i)
    (ho₀ : s₀.push (arg p) = .ok) (hk : s.push (arg p) = .ok) (hc : s.consumer = some c)
    (hc₀ : s₀.consumer = some c ∨ (s₀.consumer = none ∧ (m.pops c).Idle))
    (hl : q.slots = Function.update m.queue.slots i (s.slot (arg p)))
    (hb : q.occupied = (tallied (Function.update stage p s)).card) :
    Tracks arg (Function.update stage p s) ⟨q, m.pushes, Function.update m.pops c (s.pop (arg p))⟩ := by
  refine h.move hs s i hw (.inl ho) ?_ hl ?_ ?_ ?_ hb
  · have hp := h.push p
    rw [hs, ho₀] at hp
    rw [hk, ← hp, update_eq_self]
  · intro c'
    rw [hc, ne_eq, Option.some.injEq]
    refine ⟨?_, fun hn => update_of_ne (fun he => hn he.symm) _ _⟩
    rintro rfl
    exact update_self ..
  · intro c' hc'
    obtain rfl := Option.some.inj (hc.symm.trans hc')
    exact hc₀.imp id (fun hc₀ => hc₀.2)
  · intro c' hc'
    rcases hc₀ with hc₀ | ⟨hd, _⟩
    · rw [hc, ← hc₀, hc']
    · cases hd.symm.trans hc'

end

lemma wander [DecidableEq C] (h : Tracks arg stage m) (hc : m.pops c = φ₀) (hφ₀ : φ₀.Idle)
    (hφ : φ.Idle) (hl : q.slots = m.queue.slots) (ho : q.occupied = m.queue.occupied) :
    Tracks arg stage ⟨q, m.pushes, Function.update m.pops c φ⟩ := by
  refine ⟨h.push, fun p i hi => hl ▸ h.slot p i hi, ?_, fun i hi => hl ▸ h.free i hi, ?_, h.cells, h.consumers,
    ho.trans h.occupied⟩
  · intro p c' hc'
    have hp := h.pop p c' hc'
    have hn : c' ≠ c := by
      rintro rfl
      rw [← hc, hp] at hφ₀
      exact Stage.pop_not_idle hc' hφ₀
    exact (update_of_ne hn _ _).trans hp
  · intro c' hc'
    by_cases hb : c' = c
    · subst hb
      simpa using hφ
    · simpa [hb] using h.idle c' hc'

end Tracks

lemma tracks_init (arg : P → T) : Tracks arg (fun _ => Stage.start) (Machine.init arg : Machine k P C T) where
  push _ := rfl
  slot _ _ hi := nomatch hi
  pop _ _ hc := nomatch hc
  free _ _ := rfl
  idle _ _ := trivial
  cells _ _ _ hi := nomatch hi
  consumers _ _ _ hc := nomatch hc
  occupied := by
    change 0 = _
    symm
    rw [Finset.card_eq_zero, Finset.eq_empty_iff_forall_notMem]
    intro i hi
    obtain ⟨_, hp⟩ := mem_tallied.mp hi
    cases hp

section

variable [DecidableEq P] [DecidableEq C]

lemma step_push (hφ : m.pushes p = φ) (hp : φ.step m.queue = (q, φ')) :
    m.step (.push p) = ⟨q, Function.update m.pushes p φ', m.pops⟩ := by
  simp only [Machine.step, hφ, hp]

lemma step_pop (hφ : m.pops c = φ) (hp : φ.step m.queue = (q, φ')) :
    m.step (.pop c) = ⟨q, m.pushes, Function.update m.pops c φ'⟩ := by
  simp only [Machine.step, hφ, hp]

lemma tracks_push (hk : k < 64) (h : Tracks arg stage m) (p : P) :
    ∃ s, Tracks arg (Function.update stage p s) (m.step (.push p)) := by
  have hφ := h.push p
  -- a push moves no consumer
  have hn : ∀ s : Stage k C, s.consumer = none → ∀ c, (s.consumer = some c → m.pops c = s.pop (arg p)) ∧
      (s.consumer ≠ some c → m.pops c = m.pops c) := by
    intro s hs c
    refine ⟨fun hc => ?_, fun _ => rfl⟩
    cases hs.symm.trans hc
  cases hs : stage p with
  | start =>
    rw [hs] at hφ
    refine ⟨.probe m.queue.enqueue 0, ?_⟩
    rw [step_push hφ rfl]
    refine h.still hs _ rfl rfl rfl rfl rfl rfl rfl ?_
    rw [tallied_same (by rw [hs]; rfl)]
    exact h.occupied
  | probe first off =>
    rw [hs] at hφ
    by_cases he : (m.queue.slots (probed k first off)).state = .empty
    · refine ⟨.claimed (probed k first off), ?_⟩
      rw [step_push hφ (by rw [Stage.push, Push.step, if_pos he])]
      refine h.move hs _ _ (.inl rfl) (.inr ⟨rfl, he⟩) rfl ?_ (hn _ rfl) (by rintro _ ⟨⟩) (by rintro _ ⟨⟩) ?_
      · simp [Queue.setState, Stage.slot, h.empty_slot he]
      · rw [tallied_same (by rw [hs]; rfl)]
        exact h.occupied
    · have ha : ∀ s : Stage k C, s.tally = none → m.queue.occupied = (tallied (update stage p s)).card := by
        intro s hb
        rw [tallied_same (by rw [hs, hb]; rfl)]
        exact h.occupied
      by_cases hm : off + 1 < 2 ^ k
      · refine ⟨.probe first (off + 1), ?_⟩
        rw [step_push hφ (by rw [Stage.push, Push.step, if_neg he, if_pos hm])]
        exact h.still hs _ rfl rfl rfl rfl rfl rfl rfl (ha _ rfl)
      · refine ⟨.err, ?_⟩
        rw [step_push hφ (by rw [Stage.push, Push.step, if_neg he, if_neg hm])]
        exact h.still hs _ rfl rfl rfl rfl rfl rfl rfl (ha _ rfl)
  | claimed i =>
    rw [hs] at hφ
    refine ⟨.counted i, ?_⟩
    rw [step_push hφ rfl]
    refine h.still hs _ rfl rfl rfl rfl rfl rfl rfl ?_
    have hg := tallied_gain (s := .counted i) (i := i) (show (stage p).tally = none by rw [hs]; rfl) rfl ?_
    · have hl := Tracks.tallied_lt hk (update stage p (.counted i))
      rw [hg] at hl ⊢
      rw [h.occupied, Nat.mod_eq_of_lt hl]
    · intro q hq
      have hp := h.cells q p i (Stage.cell_of_tally hq) (by rw [hs]; rfl)
      rw [hp, hs] at hq
      cases hq
  | counted i =>
    rw [hs] at hφ
    refine ⟨.written i, ?_⟩
    rw [step_push hφ rfl]
    refine h.move hs _ i (.inl rfl) (.inl rfl) rfl ?_ (hn _ rfl) (by rintro _ ⟨⟩) (by rintro _ ⟨⟩) ?_
    · have hd := h.slot p i (by rw [hs]; rfl)
      rw [hs] at hd
      simp [Queue.setValue, Stage.slot, hd]
    · rw [tallied_same (by rw [hs]; rfl)]
      exact h.occupied
  | written i =>
    rw [hs] at hφ
    refine ⟨.full i, ?_⟩
    rw [step_push hφ rfl]
    refine h.move hs _ i (.inl rfl) (.inl rfl) rfl ?_ (hn _ rfl) (by rintro _ ⟨⟩) (by rintro _ ⟨⟩) ?_
    · have hd := h.slot p i (by rw [hs]; rfl)
      rw [hs] at hd
      simp [Queue.setState, Stage.slot, hd]
    · rw [tallied_same (by rw [hs]; rfl)]
      exact h.occupied
  | err | full | leased | taken | uncounted | delivered =>
    rw [hs] at hφ
    refine ⟨stage p, ?_⟩
    rw [step_push hφ (show Push.step _ _ = (m.queue, m.pushes p) by rw [hφ]; rfl), update_eq_self, update_eq_self]
    exact h

lemma tracks_pop (hk : k < 64) (h : Tracks arg stage m) (c : C) : ∃ stage', Tracks arg stage' (m.step (.pop c)) := by
  have ho : ∀ {p : P} {s₀ s : Stage k C}, stage p = s₀ → s.tally = s₀.tally →
    m.queue.occupied = (tallied (update stage p s)).card := by
    intro p s₀ s hs ht
    rw [tallied_same (by rw [hs, ht])]
    exact h.occupied
  cases hφ : m.pops c with
  | check =>
    refine ⟨stage, ?_⟩
    by_cases he : m.queue.isEmpty
    · rw [step_pop hφ (by rw [Pop.step, if_pos he])]
      exact h.wander hφ trivial (by trivial) rfl rfl
    · rw [step_pop hφ (by rw [Pop.step, if_neg he])]
      exact h.wander hφ trivial (by trivial) rfl rfl
  | start =>
    refine ⟨stage, ?_⟩
    rw [step_pop hφ rfl]
    exact h.wander hφ trivial (by trivial) rfl rfl
  | probe first off =>
    by_cases hp : (m.queue.slots (probed k first off)).state = .published
    · obtain ⟨p, hs⟩ := h.full_of_published hp
      have hl := h.slot p _ (by rw [hs]; rfl)
      rw [hs] at hl
      refine ⟨update stage p (.leased (probed k first off) c), ?_⟩
      rw [step_pop hφ (by rw [Pop.step, if_pos hp])]
      refine h.carry hs _ (.inl rfl) rfl rfl rfl rfl (.inr ⟨rfl, by rw [hφ]; trivial⟩) ?_ (ho hs rfl)
      simp [Queue.setState, Stage.slot, hl]
    · refine ⟨stage, ?_⟩
      by_cases hm : off + 1 < 2 ^ k
      · rw [step_pop hφ (by rw [Pop.step, if_neg hp, if_pos hm])]
        exact h.wander hφ trivial (by trivial) rfl rfl
      · rw [step_pop hφ (by rw [Pop.step, if_neg hp, if_neg hm])]
        exact h.wander hφ trivial (by trivial) rfl rfl
  | claimed i =>
    obtain ⟨p, hs⟩ := h.leased_of_claimed hφ
    have hl := h.slot p i (by rw [hs]; rfl)
    rw [hs] at hl
    refine ⟨update stage p (.taken i c), ?_⟩
    rw [step_pop hφ (by rw [Pop.step, hl, Stage.slot])]
    refine h.carry hs i (.inl rfl) rfl rfl rfl rfl (.inl rfl) ?_ (ho hs rfl)
    simp [Queue.setValue, Stage.slot, hl]
  | taken i v =>
    obtain ⟨p, hs, rfl⟩ := h.taken_of_taken hφ
    have hl := h.slot p i (by rw [hs]; rfl)
    rw [hs] at hl
    refine ⟨update stage p (.uncounted i c), ?_⟩
    rw [step_pop hφ rfl]
    refine h.carry hs i (.inl rfl) rfl rfl rfl rfl (.inl rfl) ?_ ?_
    · exact (update_eq_self_iff.mpr hl.symm).symm
    · have hb := tallied_loss (s := .uncounted i c) (show (stage p).tally = some i by rw [hs]; rfl) rfl
        (fun q hq => h.cells q p i (Stage.cell_of_tally hq) (by rw [hs]; rfl))
      have hc := Tracks.tallied_lt hk stage
      rw [hb, Nat.lt_iff_add_one_le] at hc
      rw [h.occupied, hb, Nat.add_right_comm, Nat.add_sub_cancel, Nat.add_mod_right, Nat.mod_eq_of_lt (by omega)]
  | uncounted i =>
    obtain ⟨p, hs, rfl⟩ := h.uncounted_of_uncounted hφ
    have hl := h.slot p i (by rw [hs]; rfl)
    rw [hs] at hl
    refine ⟨update stage p (.delivered c), ?_⟩
    rw [step_pop hφ rfl]
    refine h.carry hs i (.inr rfl) rfl rfl rfl rfl (.inl rfl) ?_ (ho hs rfl)
    simp [Queue.setState, Stage.slot, hl]
  | done | undefined =>
    refine ⟨stage, ?_⟩
    rw [step_pop hφ (show Pop.step _ _ = (m.queue, m.pops c) by rw [hφ]; rfl), update_eq_self]
    exact h

theorem exec_tracks (hk : k < 64) (arg : P → T) (actions : List (Action P C)) :
    ∃ stage, Tracks arg stage ((Machine.init arg : Machine k P C T).exec actions) := by
  refine List.foldlRecOn (motive := fun m => ∃ stage, Tracks arg stage m) actions Machine.step ⟨_, tracks_init arg⟩ ?_
  rintro m ⟨stage, h⟩ a -
  cases a with
  | push p => exact (tracks_push hk h p).imp' (update stage p) (fun _ => id)
  | pop c => exact tracks_pop hk h c

end

end Turnloop.Ring
