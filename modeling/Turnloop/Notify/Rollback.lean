import Turnloop.Notify.Wakes

/-! A failed wake and the notifications of others. -/

namespace Turnloop.Notify

open List

variable {P : Type}

namespace Machine

def Kept (s : Machine P) : Prop :=
  s.owing = true → s.notifier.bits.notified = true ∨ s.owner = .notify .bit ∨ s.owner = .closed

/-- The step is the `fetch_and` after a failed wake. -/
def RollsBack (s : Machine P) : Action P → Prop
  | .producer p _ _ => s.producers p = .notify .rollback
  | .owner (.notify _) => s.owner = .notify .rollback
  | _ => False

/-- The step rolls no notification back that somebody was told Ok for. -/
def Harmless (s : Machine P) (a : Action P) : Prop :=
  s.RollsBack a → s.owing = false ∨ s.owner = .notify .bit ∨ s.owner = .closed

variable {s : Machine P}

lemma kept_init (kind : P → Kind) : (init kind).Kept := nofun

lemma Kept.owner (h : s.Kept) (m : Move) (hm : ∀ woke, m ≠ .notify woke) : (s.ownerStep m).Kept := by
  -- what the owner relies on where it neither notifies nor is closed
  have hb : (∀ c, s.owner ≠ .notify c) → s.owner ≠ .closed → s.owing = true → s.notifier.bits.notified = true := by
    intro hn hc ho
    rcases h ho with he | he | he
    · exact he
    · exact absurd he (hn _)
    · exact absurd he hc
  cases m with
  | notify woke => exact absurd rfl (hm woke)
  | turn =>
    rw [ownerStep]
    split
    · rintro ⟨⟩
    · exact h
  | drop =>
    rw [ownerStep]
    split
    case h_1 ho => exact fun hw => .inl (hb (by simp [ho]) (by simp [ho]) hw)
    case h_2 => exact fun _ => .inr (.inr rfl)
    case h_3 => exact h
  | park =>
    rw [ownerStep]
    split
    case h_2 => exact h
    case h_1 ho =>
      split
      case isFalse => exact fun hw => .inl (hb (by simp [ho]) (by simp [ho]) hw)
      case isTrue ht =>
        intro hw
        have he := hb (by simp [ho]) (by simp [ho]) hw
        rw [ht] at he
        cases he
  | swap =>
    rw [ownerStep]
    split
    case h_2 => exact h
    case h_1 work ho =>
      intro hw
      have he := hb (by simp [ho]) (by simp [ho]) hw
      exact .inr (.inl (by simp [he]))
  | integration | skip | now | wait | running | finish =>
    rw [ownerStep]
    split
    case h_1 ho => exact fun hw => .inl (hb (by simp [ho]) (by simp [ho]) hw)
    case h_2 => exact h
  | fail | look =>
    rw [ownerStep]
    split
    case h_1 ho => exact fun hw => .inl (hb (by simp [ho]) (by simp [ho]) hw)
    case h_2 ho => exact fun hw => .inl (hb (by simp [ho]) (by simp [ho]) hw)
    case h_3 => exact h

lemma Kept.notify (h : s.Kept) (woke : Bool) : (s.ownerStep (.notify woke)).Kept ↔
    (s.owner = .notify .rollback → s.owing = false) := by
  rw [ownerStep]
  split
  case h_2 hn => exact ⟨fun _ ho => absurd ho (hn _), fun _ => h⟩
  case h_1 c ho =>
    have ht : c ≠ .rollback → s.owner = .notify .rollback → s.owing = false :=
      fun hn hr => absurd (Owner.notify.inj (ho.symm.trans hr)) hn
    cases c with
    | bit =>
      refine ⟨fun _ => ht (by decide), fun _ _ => .inl ?_⟩
      simp only [Call.step_bit_fst]
    | waking =>
      refine ⟨fun _ => ht (by rintro ⟨⟩), fun _ hw => ?_⟩
      cases woke with
      | true => simp [Call.step_woken] at hw
      | false =>
        rcases h (by simpa using (Bool.and_eq_true_iff.mp hw).1) with he | he | he
        · exact .inl he
        · cases ho.symm.trans he
        · cases ho.symm.trans he
    | rollback => simp [Kept, Call.step, ho]
    | ok | err =>
      refine ⟨fun _ => ht (by rintro ⟨⟩), fun _ hw => ?_⟩
      rcases h (Bool.and_eq_true_iff.mp hw).1 with he | he | he
      · exact .inl he
      · cases ho.symm.trans he
      · cases ho.symm.trans he

variable [DecidableEq P]

lemma Kept.producer (h : s.Kept) (p : P) (accepted woke : Bool) :
    (s.producerStep p accepted woke).Kept ↔ s.Harmless (.producer p accepted woke) := by
  by_cases ho : s.producers p = .notify .rollback
  · -- the bit goes, and what was owed stays owed
    simp only [producerStep, ho, Kept, Harmless, RollsBack, notified, Call.step]
    cases s.owing <;> simp
  · refine ⟨fun _ hr => absurd hr ho, fun _ => ?_⟩
    rw [producerStep]
    split
    case h_1 => exact h
    case h_2 => split <;> exact h
    case h_3 => exact h
    case h_4 c hp =>
      cases c with
      | bit =>
        rw [Call.step_bit_fst]
        exact fun _ => .inl rfl
      | waking =>
        cases woke with
        | true => simp [Kept, notified, Call.step_woken]
        | false => exact h
      | rollback => exact absurd hp ho
      | ok | err => exact h

lemma Kept.step (h : s.Kept) (a : Action P) : (s.step a).Kept ↔ s.Harmless a := by
  cases a with
  | producer p accepted woke => exact h.producer p accepted woke
  | pop =>
    refine ⟨fun _ hr => hr.elim, fun _ => ?_⟩
    rw [Machine.step]
    split <;> exact h
  | owner m =>
    by_cases hm : ∀ woke, m ≠ .notify woke
    · refine ⟨fun _ hr => ?_, fun _ => h.owner m hm⟩
      cases m <;> first | exact hr.elim | exact absurd rfl (hm _)
    · push Not at hm
      obtain ⟨woke, rfl⟩ := hm
      refine (h.notify woke).trans ⟨fun hs hr => .inl (hs hr), fun hs hr => ?_⟩
      rcases hs hr with ho | ho | ho
      · exact ho
      · cases hr.symm.trans ho
      · cases hr.symm.trans ho

lemma run_concat (kind : P → Kind) {actions : List (Action P)} {a : Action P} :
    run kind (actions ++ [a]) = (run kind actions).step a := by
  rw [run, foldl_append]
  rfl

end Machine

open Machine

theorem promises_kept_iff [DecidableEq P] (kind : P → Kind) (actions : List (Action P)) :
    (∀ before, before <+: actions → (run kind before).Kept) ↔ ∀ before a, before ++ [a] <+: actions →
      (run kind before).Harmless a := by
  constructor
  · intro hk before a hl
    have hb := hk before ((prefix_append before [a]).trans hl)
    exact (hb.step a).mp (run_concat kind ▸ hk _ hl)
  · intro hh before
    induction before using reverseRecOn with
    | nil => exact fun _ => kept_init kind
    | append_singleton before a ih =>
      intro hl
      have hb := ih ((prefix_append before [a]).trans hl)
      rw [run_concat]
      exact (hb.step a).mpr (hh before a hl)

theorem promise_broken_by_rollback :
    ¬∀ (kind : ℕ → Kind) (actions : List (Action ℕ)), (run kind actions).Kept := by
  intro h
  have hk := h (fun _ => .notify) [.owner .turn, .owner (.look false), .owner .park, .producer 0 true true,
    .producer 1 true true, .producer 0 true false, .producer 0 true true]
  rcases hk (by decide) with he | he | he
  · exact absurd he (by decide)
  · exact absurd he (by decide)
  · exact absurd he (by decide)

end Turnloop.Notify
