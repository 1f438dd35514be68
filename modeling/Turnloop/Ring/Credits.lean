import Turnloop.Ring.Drain

/-! The result ring of a loop. -/

namespace Turnloop.Ring

open List

/-- `capacity.max(2).next_power_of_two()` is `2 ^ ringBits capacity`. -/
def ringBits (capacity : ℕ) : ℕ := Nat.clog 2 (max capacity 2)

structure Limits where
  maxUndelivered : ℕ
  maxOperations : ℕ

/-- Every operation of the port is also one of the loop's outstanding operations. -/
def Limits.credits (l : Limits) : ℕ := min l.maxUndelivered l.maxOperations

/-- `charged` are the operations admitted and not yet retired, `turn` is the loop's current pop. -/
structure Port (k : ℕ) (R : Type) where
  ring : Machine k ℕ ℕ (ℕ × R)
  admitted : List ℕ
  charged : List ℕ
  turn : ℕ

inductive Event where
  | admitPort (op : ℕ)
  | complete (op : ℕ)
  | pop
  | retire

namespace Port

variable {k : ℕ} {R : Type}

def new (result : ℕ → R) : Port k R := ⟨.init (fun op => (op, result op)), [], [], 0⟩

def step (l : Limits) (s : Port k R) : Event → Port k R
  | .admitPort op =>
    -- `admit_port` and `new_op` refuse, then `charge_port`
    if op ∉ s.admitted ∧ s.charged.length < l.credits then
      { s with admitted := op :: s.admitted, charged := op :: s.charged }
    else s
  | .complete op => if op ∈ s.admitted then { s with ring := s.ring.step (.push op) } else s
  | .pop => { s with ring := s.ring.step (.pop s.turn) }
  | .retire =>
    match s.ring.pops s.turn with
    | .done (some result) => { s with charged := s.charged.erase result.1, turn := s.turn + 1 }
    | .done none => { s with turn := s.turn + 1 }
    | _ => s

def run (l : Limits) (s : Port k R) (events : List Event) : Port k R := events.foldl (step l) s

def Overflowed (s : Port k R) (op : ℕ) : Prop := ∃ result, s.ring.pushes op = .err result

end Port

lemma ringBits_le (h : capacity ≤ 2 ^ 32) : ringBits capacity ≤ 32 := by
  rw [ringBits, Nat.clog_le_iff_le_pow (by decide)]
  omega

example : 2 ^ ringBits 3 = 4 := by decide

section

variable {k : ℕ} {R : Type} {l : Limits} {result : ℕ → R}

structure Credited (l : Limits) (result : ℕ → R) (s : Port k R) : Prop where
  tracked : ∃ stage, Tracks (fun op => (op, result op)) stage s.ring
  outside : ∀ op, op ∉ s.admitted → s.ring.pushes op = .start (op, result op)
  owed : ∀ op ∈ s.admitted, op ∈ s.charged ∨ ∃ c, s.ring.pops c = .done (some (op, result op))
  bound : s.charged.length ≤ l.credits

lemma credited_new : Credited l result (Port.new result : Port k R) :=
  ⟨⟨_, tracks_init _⟩, fun _ _ => rfl, by simp [Port.new], by simp [Port.new]⟩

lemma credited_step (hk : k < 64) {s : Port k R} (h : Credited l result s) : Credited l result (s.step l e) := by
  obtain ⟨stage, ht⟩ := h.tracked
  cases e with
  | admitPort op =>
    rw [Port.step]
    split
    case isFalse => exact h
    case isTrue ha =>
      refine ⟨h.tracked, fun op' ho => h.outside op' (fun hm => ho (mem_cons_of_mem _ hm)), ?_, ?_⟩
      · intro op' ho
        rcases mem_cons.mp ho with rfl | ho
        · exact .inl mem_cons_self
        · exact (h.owed op' ho).imp (mem_cons_of_mem _) id
      · simp only [length_cons]
        omega
  | complete op =>
    rw [Port.step]
    split
    case isFalse => exact h
    case isTrue ho =>
      obtain ⟨_, ht'⟩ := tracks_push hk ht op
      refine ⟨⟨_, ht'⟩, ?_, h.owed, h.bound⟩
      intro op' ho'
      have hn : op' ≠ op := fun he => ho' (he ▸ ho)
      simpa [Machine.step, hn] using h.outside op' ho'
  | pop =>
    refine ⟨tracks_pop hk ht s.turn, h.outside, ?_, h.bound⟩
    intro op ho
    refine (h.owed op ho).imp id ?_
    rintro ⟨c, hc⟩
    refine ⟨c, ?_⟩
    by_cases hb : c = s.turn
    · subst hb
      simp [Port.step, Machine.step, hc, Pop.step]
    · simpa [Port.step, Machine.step, hb] using hc
  | retire =>
    rw [Port.step]
    split
    case h_1 r hr =>
      refine ⟨h.tracked, h.outside, ?_, ?_⟩
      · intro op ho
        by_cases hd : op = r.1
        · obtain ⟨p, hp, _⟩ := ht.delivered_ok hr
          refine .inr ⟨s.turn, ?_⟩
          rw [hr, hd, hp]
        · exact (h.owed op ho).imp (fun hm => (mem_erase_of_ne hd).mpr hm) id
      · exact length_erase_le.trans h.bound
    case h_2 => exact { h with }
    case h_3 => exact h

lemma Credited.holder_charged (h : Credited l result s) (hi : (s.ring.queue.slots i).state ≠ .empty) :
    ∃ op ∈ s.charged, ∀ v first offset, s.ring.pushes op ≠ .probe v first offset := by
  obtain ⟨_, ht⟩ := h.tracked
  obtain ⟨op, he, _⟩ := ht.holder hi
  obtain ⟨hb, hr⟩ := Stage.push_inside (op, result op) he
  rw [← ht.push op] at hb hr
  have ha : op ∈ s.admitted := by
    by_contra ho
    exact hb _ (h.outside op ho)
  refine ⟨op, ?_, hr⟩
  rcases h.owed op ha with ho | ⟨c, hc⟩
  · exact ho
  · obtain ⟨p, hs, hp⟩ := ht.delivered_of_done hc
    obtain rfl := (Prod.mk.inj hp).1
    rw [hs] at he
    cases he

lemma Credited.probes_empty (h : Credited l result s) (hl : l.credits ≤ 1)
    (ho : s.ring.pushes op = .probe v first offset) (i : Fin (2 ^ k)) :
    (s.ring.queue.slots i).state = .empty := by
  by_contra hi
  obtain ⟨op', ho', he⟩ := h.holder_charged hi
  have hh : op ∈ s.charged := by
    have ha : op ∈ s.admitted := by
      by_contra hn
      cases ho.symm.trans (h.outside op hn)
    rcases h.owed op ha with hc | ⟨c, hc⟩
    · exact hc
    · obtain ⟨_, ht⟩ := h.tracked
      obtain ⟨p, hp, hk⟩ := ht.delivered_ok hc
      obtain rfl := (Prod.mk.inj hp).1
      cases ho.symm.trans hk
  have hm : op' = op := by
    have hb := le_antisymm (h.bound.trans hl) (length_pos_of_mem hh)
    obtain ⟨x, hx⟩ := length_eq_one_iff.mp hb
    rw [hx, mem_singleton] at ho' hh
    rw [ho', hh]
  exact he v first offset (hm ▸ ho)

lemma no_overflow (hk : k < 64) (hl : l.credits ≤ 1) (result : ℕ → R) (events : List Event) (op : ℕ) :
    ¬((Port.new result : Port k R).run l events).Overflowed op := by
  suffices h : Credited l result ((.new result : Port k R).run l events) ∧
      ∀ op, ¬((.new result : Port k R).run l events).Overflowed op from h.2 op
  refine foldlRecOn (motive := fun s : Port k R => Credited l result s ∧ ∀ op, ¬s.Overflowed op) events (.step l)
    ⟨credited_new, by simp [Port.Overflowed, Port.new, Machine.init]⟩ ?_
  rintro s ⟨h, hn⟩ e -
  refine ⟨credited_step hk h, ?_⟩
  rintro op' ⟨v, hv⟩
  -- only a failed probe refuses a value
  cases e with
  | complete op =>
    rw [Port.step] at hv
    split at hv
    case isFalse => exact hn op' ⟨v, hv⟩
    case isTrue =>
      by_cases ho : op' = op
      · subst ho
        cases hφ : s.ring.pushes op' with
        | probe =>
          simp [Machine.step, hφ, Push.step, h.probes_empty hl hφ] at hv
        | err v' => exact hn op' ⟨v', hφ⟩
        | start | claimed | counted | written | ok => simp [Machine.step, hφ, Push.step] at hv
      · exact hn op' ⟨v, by simpa [Machine.step, ho] using hv⟩
  | admitPort | retire =>
    rw [Port.step] at hv
    split at hv <;> exact hn op' ⟨v, hv⟩
  | pop => exact hn op' ⟨v, hv⟩

end

end Turnloop.Ring
