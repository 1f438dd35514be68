import Turnloop.Ring.Credits

/-! With two credits the ring can refuse a result. -/

namespace Turnloop.Ring

open List Function

variable {k : ℕ} {P C T : Type} [DecidableEq P] [DecidableEq C] {i : Fin (2 ^ k)} {v : T}

lemma exec_cons (m : Machine k P C T) (a : Action P C) (as : List (Action P C)) :
    m.exec (a :: as) = (m.step a).exec as := rfl

lemma exec_append (m : Machine k P C T) (a₁ a₂ : List (Action P C)) : m.exec (a₁ ++ a₂) = (m.exec a₁).exec a₂ :=
  foldl_append ..

/-- The memory of a queue that holds `v` in slot `i` and nothing else. -/
def lone (i : Fin (2 ^ k)) (slot : Slot T) : Fin (2 ^ k) → Slot T := Function.update (fun _ => ⟨.empty, none⟩) i slot

lemma exec_scan (m : Machine k P C T) (c : C) {first t : ℕ} (ht : t < 2 ^ k)
    (hi : probed k first t = i) (hl : m.queue.slots = lone i ⟨.published, some v⟩) {offset : ℕ} (he : offset ≤ t)
    (hc : m.pops c = .probe first offset) :
    ∃ n, m.exec (List.replicate n (.pop c)) =
      ⟨{ m.queue with slots := lone i ⟨.consuming, some v⟩ }, m.pushes, Function.update m.pops c (.claimed i)⟩ := by
  induction hn : t - offset generalizing m offset with
  | zero =>
    obtain rfl : offset = t := by omega
    refine ⟨1, ?_⟩
    change m.step (.pop c) = _
    rw [step_pop hc (by rw [Pop.step, if_pos (by simp [hl, hi, lone])])]
    simp [Queue.setState, hl, hi, lone]
  | succ n ih =>
    by_cases hh : probed k first offset = i
    · refine ⟨1, ?_⟩
      change m.step (.pop c) = _
      rw [step_pop hc (by rw [Pop.step, if_pos (by simp [hl, hh, lone])])]
      simp [Queue.setState, hl, hh, lone]
    · have hp : m.step (.pop c) = ⟨m.queue, m.pushes, update m.pops c (.probe first (offset + 1))⟩ := by
        rw [step_pop hc (by rw [Pop.step, if_neg (by simp [hl, hh, lone]), if_pos (by omega)])]
      obtain ⟨n', hn'⟩ := ih (m.step (.pop c)) (by rw [hp, hl]) (show offset + 1 ≤ t by omega)
        (by rw [hp]; exact update_self ..) (by omega)
      refine ⟨n' + 1, ?_⟩
      rw [replicate_succ, exec_cons, hn', hp]
      simp

lemma exec_pop (hk : k < 64) (m : Machine k P C T) (c : C)
    (hl : m.queue.slots = lone i ⟨.published, some v⟩) (ho : m.queue.occupied = 1) (hc : m.pops c = .check) :
    ∃ n d, m.exec (List.replicate n (.pop c)) =
      ⟨⟨fun _ => ⟨.empty, none⟩, m.queue.enqueue, d, 0⟩, m.pushes, Function.update m.pops c (.done (some v))⟩ := by
  obtain ⟨t, ht, hi⟩ := probed_surjective hk m.queue.dequeue i
  obtain ⟨m₂, hm₂⟩ : ∃ m₂, m₂ = m.exec (replicate 2 (.pop c)) := ⟨_, rfl⟩
  have hb : m₂ = ⟨{ m.queue with dequeue := (m.queue.dequeue + 1) % word }, m.pushes,
    update m.pops c (.probe m.queue.dequeue 0)⟩ := by
    rw [hm₂]
    simp [Machine.exec, Machine.step, Pop.step, replicate, hc, Queue.isEmpty, ho]
  obtain ⟨n, hn⟩ := exec_scan m₂ c ht hi (by rw [hb, hl]) (Nat.zero_le t)
    (by rw [hb]; exact update_self ..)
  refine ⟨2 + n + 3, (m.queue.dequeue + 1) % word, ?_⟩
  rw [replicate_add, replicate_add, exec_append, exec_append, ← hm₂, hn, hb]
  simp [Machine.exec, Machine.step, Pop.step, replicate, ho, lone, Queue.setValue, Queue.setState, word]

section

variable {R : Type} {l : Limits} {result : ℕ → R} {s : Port k R} {op e j : ℕ}

lemma run_cons (s : Port k R) (e : Event) (es : List Event) : s.run l (e :: es) = (s.step l e).run l es := rfl

lemma run_append (s : Port k R) (e₁ e₂ : List Event) : s.run l (e₁ ++ e₂) = (s.run l e₁).run l e₂ :=
  foldl_append ..

lemma run_complete (s : Port k R) (ho : op ∈ s.admitted) (n : ℕ) :
    s.run l (List.replicate n (.complete op)) = { s with ring := s.ring.exec (List.replicate n (.push op)) } := by
  induction n generalizing s with
  | zero => rfl
  | succ n ih =>
    have hp : s.step l (.complete op) = { s with ring := s.ring.step (.push op) } := by rw [Port.step, if_pos ho]
    rw [replicate_succ, replicate_succ, run_cons, hp, ih { s with ring := s.ring.step (.push op) } ho]
    rfl

lemma run_pop (s : Port k R) (n : ℕ) :
    s.run l (List.replicate n .pop) = { s with ring := s.ring.exec (List.replicate n (.pop s.turn)) } := by
  induction n generalizing s with
  | zero => rfl
  | succ n ih =>
    rw [replicate_succ, replicate_succ, run_cons, ih]
    rfl

structure Scene (result : ℕ → R) (e j : ℕ) (s : Port k R) : Prop where
  enqueue : s.ring.queue.enqueue = e
  victim : s.ring.pushes 0 = .probe (0, result 0) 0 j
  admitted : 0 ∈ s.admitted
  fresh : ∀ op ≥ e, op ∉ s.admitted ∧ s.ring.pushes op = .start (op, result op)
  idle : ∀ c ≥ s.turn, s.ring.pops c = .check

structure Calm (result : ℕ → R) (e j : ℕ) (s : Port k R) : Prop extends Scene result e j s where
  slots : s.ring.queue.slots = fun _ => ⟨.empty, none⟩
  occupied : s.ring.queue.occupied = 0
  charged : s.charged = [0]

structure Holding (result : ℕ → R) (e j op : ℕ) (i : Fin (2 ^ k)) (s : Port k R) : Prop extends Scene result e j s where
  slots : s.ring.queue.slots = lone i ⟨.published, some (op, result op)⟩
  occupied : s.ring.queue.occupied = 1
  charged : s.charged = [op, 0]

lemma Calm.fill (h : Calm result e j s) (hl : 2 ≤ l.credits) (he : 0 < e) (hw : e + 1 < word) :
    Holding result (e + 1) j e (probed k e 0) (s.run l (.admitPort e :: List.replicate 5 (.complete e))) := by
  have ha : s.step l (.admitPort e) = { s with admitted := e :: s.admitted, charged := [e, 0] } := by
    rw [Port.step, if_pos ⟨(h.fresh e le_rfl).1, by rw [h.charged]; exact hl⟩, h.charged]
  have hr : s.run l (.admitPort e :: replicate 5 (.complete e)) = { s with
        admitted := e :: s.admitted
        charged := [e, 0]
        ring := ⟨⟨lone (probed k e 0) ⟨.published, some (e, result e)⟩, e + 1, s.ring.queue.dequeue, 1⟩,
          update s.ring.pushes e .ok, s.ring.pops⟩ } := by
    rw [run_cons, ha, run_complete _ mem_cons_self]
    simp [Machine.exec, Machine.step, Push.step, (h.fresh e le_rfl).2, Queue.setState, Queue.setValue, h.enqueue,
      h.slots, h.occupied,
      lone, Nat.mod_eq_of_lt hw, Nat.mod_eq_of_lt (show 1 < word by decide)]
  rw [hr]
  refine ⟨⟨rfl, ?_, mem_cons_of_mem _ h.admitted, ?_, h.idle⟩, rfl, rfl, rfl⟩
  · simpa [he.ne] using h.victim
  · intro op _
    have hn : op ≠ e := by omega
    obtain ⟨ho, hs⟩ := h.fresh op (by omega)
    exact ⟨by simp [hn, ho], by simpa [hn] using hs⟩

lemma Holding.drain (hk : k < 64) (h : Holding result e j op i s) : ∃ events, Calm result e j (s.run l events) := by
  obtain ⟨n, d, hn⟩ := exec_pop hk s.ring s.turn h.slots h.occupied (h.idle s.turn le_rfl)
  refine ⟨replicate n .pop ++ [.retire], ?_⟩
  have hr : s.run l (replicate n .pop ++ [.retire]) = { s with
        charged := [0]
        turn := s.turn + 1
        ring := ⟨⟨fun _ => ⟨.empty, none⟩, s.ring.queue.enqueue, d, 0⟩, s.ring.pushes,
          update s.ring.pops s.turn (.done (some (op, result op)))⟩ } := by
    rw [run_append, run_pop, hn]
    simp [Port.run, Port.step, h.charged]
  rw [hr]
  refine ⟨⟨h.enqueue, h.victim, h.admitted, h.fresh, ?_⟩, rfl, rfl, rfl⟩
  intro c hc
  have he : c ≠ s.turn := by
    rintro rfl
    simp at hc
  simpa [he] using h.idle c (by simp at hc; omega)

lemma Holding.probe (h : Holding result e j op (probed k 0 j) s) (hj : j + 1 < 2 ^ k)
    (he : 0 < e) : Holding result e (j + 1) op (probed k 0 j) (s.run l [.complete 0]) := by
  have hp : s.run l [.complete 0] = { s with
      ring := ⟨s.ring.queue, update s.ring.pushes 0 (.probe (0, result 0) 0 (j + 1)), s.ring.pops⟩ } := by
    change s.step l (.complete 0) = _
    rw [Port.step, if_pos h.admitted,
      step_push h.victim (by rw [Push.step, if_neg (by simp [h.slots, lone]), if_pos hj])]
  rw [hp]
  refine ⟨⟨h.enqueue, by simp, h.admitted, ?_, h.idle⟩, h.slots, h.occupied, h.charged⟩
  intro op' ho'
  have hn : op' ≠ 0 := by omega
  exact ⟨(h.fresh op' ho').1, by simpa [hn] using (h.fresh op' ho').2⟩

lemma Holding.refuse (h : Holding result e j op (probed k 0 j) s) (hj : ¬j + 1 < 2 ^ k) :
    (s.run l [.complete 0]).Overflowed 0 := by
  refine ⟨(0, result 0), ?_⟩
  change (s.step l (.complete 0)).ring.pushes 0 = _
  rw [Port.step, if_pos h.admitted, step_push h.victim (by rw [Push.step, if_neg (by simp [h.slots, lone]), if_neg hj])]
  simp

lemma calm_start (hl : 2 ≤ l.credits) :
    Calm result 1 0 ((Port.new result : Port k R).run l [.admitPort 0, .complete 0]) := by
  have hc : 0 < l.credits := by omega
  refine ⟨⟨?_, ?_, ?_, ?_, ?_⟩, ?_, ?_, ?_⟩ <;>
    simp [Port.run, Port.step, Port.new, Machine.init, Machine.step, Push.step, Queue.new, hc, word]
  intro op _
  have hn : op ≠ 0 := by omega
  simp [hn]

lemma calm_later (result : ℕ → R) (hk : k < 64) (hl : 2 ≤ l.credits) (e : ℕ) (he : e + 1 < word) :
    ∃ events, Calm result (e + 1) 0 ((Port.new result : Port k R).run l events) := by
  induction e with
  | zero => exact ⟨_, calm_start hl⟩
  | succ e ih =>
    obtain ⟨before, hc⟩ := ih (by omega)
    obtain ⟨after, _⟩ := (hc.fill hl (by omega) (by omega)).drain (l := l) hk
    refine ⟨before ++ (.admitPort (e + 1) :: replicate 5 (.complete (e + 1)) ++ after), ?_⟩
    rwa [run_append, run_append]

lemma probed_wrap (hk : k < 64) {j : ℕ} : probed k (2 ^ k + j) 0 = probed k 0 j := by
  apply Fin.ext
  rw [probed_val hk, probed_val hk]
  simp

lemma chase (result : ℕ → R) (hk : k < 63) (hl : 2 ≤ l.credits) (j : ℕ) (hj : j < 2 ^ k) :
    ∃ events, Holding result (2 ^ k + j + 1) j (2 ^ k + j) (probed k 0 j)
      ((Port.new result : Port k R).run l events) := by
  have hp := Nat.two_pow_pos k
  have hm : 2 ^ k + 2 ^ k < word := by
    calc 2 ^ k + 2 ^ k = 2 ^ (k + 1) := by ring
      _ < word := Nat.pow_lt_pow_right (by decide) (by omega)
  have hk' : k < 64 := by omega
  induction j with
  | zero =>
    obtain ⟨before, hc⟩ := calm_later result hk' hl (2 ^ k - 1) (by omega)
    rw [Nat.sub_add_cancel hp] at hc
    refine ⟨before ++ (.admitPort (2 ^ k) :: replicate 5 (.complete (2 ^ k))), ?_⟩
    rw [run_append, ← probed_wrap hk']
    exact hc.fill hl hp (by omega)
  | succ j ih =>
    obtain ⟨before, hh⟩ := ih (by omega)
    obtain ⟨between, hc⟩ := (hh.probe (l := l) hj (by omega)).drain (l := l) hk'
    refine ⟨before ++ ([.complete 0] ++
      (between ++ (.admitPort (2 ^ k + j + 1) :: replicate 5 (.complete (2 ^ k + j + 1))))), ?_⟩
    rw [run_append, run_append, run_append, ← probed_wrap hk']
    exact hc.fill hl (by omega) (by omega)

lemma overflow_reached (hk : k < 63) (hl : 2 ≤ l.credits) (result : ℕ → R) :
    ∃ events, ((Port.new result : Port k R).run l events).Overflowed 0 := by
  have hp := Nat.two_pow_pos k
  obtain ⟨events, h⟩ := chase result hk hl (2 ^ k - 1) (by omega)
  refine ⟨events ++ [.complete 0], ?_⟩
  rw [run_append]
  exact h.refuse (by omega)

end

theorem complete_succeeds_iff {R : Type} (l : Limits) (hops : l.maxOperations < 2 ^ 32) (result : ℕ → R) :
    (∀ events op, ¬((Port.new result : Port (ringBits l.credits) R).run l events).Overflowed op) ↔ l.credits ≤ 1 := by
  have hk : ringBits l.credits ≤ 32 := ringBits_le ((min_le_right _ _).trans hops.le)
  constructor
  · intro hn
    by_contra hl
    obtain ⟨events, ho⟩ := overflow_reached (l := l) (Nat.lt_of_le_of_lt hk (by decide)) (by omega) result
    exact hn events 0 ho
  · exact fun hl => no_overflow (Nat.lt_of_le_of_lt hk (by decide)) hl result

theorem complete_succeeds_iff_small :
    ¬(∀ events op, ¬((Port.new id : Port (ringBits (Limits.credits ⟨2, 5⟩)) ℕ).run ⟨2, 5⟩ events).Overflowed op) ∧
      ∀ events op, ¬((Port.new id : Port (ringBits (Limits.credits ⟨1, 5⟩)) ℕ).run ⟨1, 5⟩ events).Overflowed op :=
  ⟨fun h => absurd ((complete_succeeds_iff ⟨2, 5⟩ (by decide) id).mp h) (by decide),
    (complete_succeeds_iff ⟨1, 5⟩ (by decide) id).mpr (by decide)⟩

theorem complete_refused_two_slots :
    ¬∀ (l : Limits) (events : List Event) (op : ℕ), 0 < l.maxUndelivered → 0 < l.maxOperations →
      ¬((Port.new (fun _ => ()) : Port (ringBits l.credits) Unit).run l events).Overflowed op := by
  intro h
  have hb : ringBits (Limits.credits ⟨2, 2⟩) = 1 := by decide
  have hr : ∀ k, k = 1 → ((.new (fun _ => ()) : Port k Unit).run ⟨2, 2⟩ [.admitPort 0, .complete 0,
      .admitPort 1, .complete 1, .complete 1, .complete 1, .complete 1, .complete 1,
      .pop, .pop, .pop, .pop, .pop, .pop, .pop, .retire,
      .admitPort 2, .complete 2, .complete 2, .complete 2, .complete 2, .complete 2, .complete 0,
      .pop, .pop, .pop, .pop, .pop, .pop, .pop, .retire,
      .admitPort 3, .complete 3, .complete 3, .complete 3, .complete 3, .complete 3, .complete 0]).Overflowed 0 := by
    rintro k rfl
    exact ⟨(0, ()), by decide +kernel⟩
  exact h ⟨2, 2⟩ _ 0 (by decide) (by decide) (hr _ hb)

end Turnloop.Ring
