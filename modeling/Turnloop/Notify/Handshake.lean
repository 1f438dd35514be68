import Turnloop.Notify.Once

/-! The handshake over whole runs. -/

namespace Turnloop.Notify

open List Function

variable {P : Type}

def Action.Wakes : Action P → Prop
  | .producer _ _ woke | .owner (.notify woke) => woke = true
  | _ => True

namespace Machine

section

variable [DecidableEq P]

/-- One step in which the bit operation of `notify` and the wake it calls for are not taken apart. -/
def stepAtomic (s : Machine P) (a : Action P) : Machine P :=
  match a with
  | .producer p accepted _ =>
    let s' := s.producerStep p accepted true
    match s'.producers p with
    | .notify (.waking _) => s'.producerStep p accepted true
    | _ => s'
  | .owner (.notify _) =>
    let s' := s.ownerStep (.notify true)
    match s'.owner with
    | .notify (.waking _) => s'.ownerStep (.notify true)
    | _ => s'
  | a => s.step a

def runAtomic (kind : P → Kind) (actions : List (Action P)) : Machine P := actions.foldl stepAtomic (init kind)

end

variable {s : Machine P}

structure Safe (s : Machine P) : Prop where
  inv : s.Inv
  once : Once s.notifier s.call

namespace Safe

lemma producer [DecidableEq P] (h : s.Safe) (p : P) (accepted : Bool) : (s.producerStep p accepted true).Safe :=
  ⟨h.inv.producer p accepted, once_producer h.once h.inv p accepted⟩

lemma owner (h : s.Safe) (m : Move) (hm : m ≠ .notify false) : (s.ownerStep m).Safe := by
  refine ⟨?_, once_owner h.once h.inv hm⟩
  cases m with
  | turn => exact h.inv.turn
  | integration => exact h.inv.integration
  | drop => exact h.inv.drop
  | fail => exact h.inv.fail
  | look otherWork => exact h.inv.look otherWork
  | skip => exact h.inv.skip
  | now => exact h.inv.now
  | park => exact h.inv.park
  | wait => exact h.inv.wait
  | running => exact h.inv.running'
  | finish => exact h.inv.finish
  | swap => exact h.inv.swap
  | notify woke =>
    cases woke with
    | true => exact h.inv.notify
    | false => exact absurd rfl hm

lemma pop [DecidableEq P] (h : s.Safe) (p : P) : (s.step (.pop p)).Safe := by
  refine ⟨h.inv.pop p, ?_⟩
  have hn := h.once
  rw [step]
  split <;> exact hn

lemma step [DecidableEq P] (h : s.Safe) (a : Action P) (ha : a.Wakes) : (s.step a).Safe := by
  cases a with
  | producer p accepted woke =>
    obtain rfl : woke = true := ha
    exact h.producer p accepted
  | owner m =>
    refine h.owner m ?_
    rintro rfl
    cases ha
  | pop p => exact h.pop p

lemma init (kind : P → Kind) : (init kind).Safe := ⟨inv_init kind, once_init kind⟩

lemma run [DecidableEq P] (kind : P → Kind) (actions : List (Action P)) (ha : ∀ a ∈ actions, a.Wakes) :
    (run kind actions).Safe :=
  foldlRecOn (motive := Safe) actions Machine.step (init kind) (fun _ h a hm => h.step a (ha a hm))

lemma notified_of_waiting (h : s.Safe) (hw : s.Waiting) (hb : s.HasPost ∨ s.marked = true) :
    s.notifier.bits.parked = true ∧ s.notifier.bits.notified = true := by
  have hc : ∀ c, s.owner ≠ .notify c := by
    rintro c ho
    rcases hw with hw | ⟨_, hw, _⟩ <;> cases ho.symm.trans hw
  have hn : s.owner ≠ .closed := by
    intro ho
    rcases hw with hw | ⟨_, hw, _⟩ <;> cases ho.symm.trans hw
  have ha : s.notifier.bits.parked = true := by
    rcases hw with hw | ⟨_, _, hw⟩
    · exact h.inv.parked (.inl hw)
    · exact hw
  have hq : s.owner.Quiet s.notifier.bits.parked := by
    rcases hw with hw | ⟨_, hw, hp⟩
    · rw [hw]
      trivial
    · rw [hw]
      exact hp
  refine ⟨ha, ?_⟩
  rcases hb with ⟨p, hp, hk⟩ | hm
  · exact h.inv.quiet hq p hp (by rw [hk]; trivial)
  · rcases h.inv.marked hm with he | he | he
    · exact he
    · exact absurd he (hc _)
    · exact absurd he hn

end Safe

lemma ownerStep_answered (s : Machine P) (m : Move) :
    ((s.ownerStep m).answered = s.answered ∧ (s.ownerStep m).marked = s.marked) ∨ (s.ownerStep m).answered = false := by
  cases m with
  | turn =>
    rw [ownerStep]
    split
    · exact .inr rfl
    · exact .inl ⟨rfl, rfl⟩
  | park =>
    rw [ownerStep]
    split
    · split <;> exact .inl ⟨rfl, rfl⟩
    · exact .inl ⟨rfl, rfl⟩
  | _ =>
    rw [ownerStep]
    split <;> exact .inl ⟨rfl, rfl⟩

structure Prompt (s : Machine P) : Prop where
  asleep : ∀ x e, s.call x ≠ some (.waking e)
  answered : s.answered = true → s.marked = true
  wakes : ∀ w ∈ s.notifier.wakes, w.1 = w.2

namespace Prompt

lemma init (kind : P → Kind) : (init kind).Prompt := by
  refine ⟨fun x e hx => ?_, nofun, nofun⟩
  rcases call_waking.mp hx with ⟨_, hx⟩ | ⟨p, _, hx⟩
  · cases hx
  · cases hk : kind p <;> simp [Machine.init, hk] at hx

lemma rephase (h : s.Prompt) {s' : Machine P} (hp : s'.producers = s.producers)
    (ho : ∀ e, s'.owner ≠ .notify (.waking e)) (ha : s'.answered = true → s'.marked = true)
    (hw : ∀ w ∈ s'.notifier.wakes, w.1 = w.2) : s'.Prompt := by
  refine ⟨fun x e hx => ?_, ha, hw⟩
  rw [call_waking, hp] at hx
  rcases hx with ⟨_, hx⟩ | hx
  · exact ho e hx
  · exact h.asleep x e (call_waking.mpr (.inr hx))

lemma ownerPlain (h : s.Prompt) (hm : ∀ woke, m ≠ .notify woke) : (s.ownerStep m).Prompt := by
  obtain ⟨hw, _, _, hp, ho⟩ := ownerStep_plain s hm
  have ha : (s.ownerStep m).answered = true → (s.ownerStep m).marked = true := by
    rcases ownerStep_answered s m with ⟨ha, hm⟩ | ha
    · rw [ha, hm]
      exact h.answered
    · exact fun ht => nomatch ha.symm.trans ht
  rcases ho with ho | ho
  · rwa [ho]
  · exact h.rephase hp ho ha (hw ▸ h.wakes)

variable [DecidableEq P]

variable (h : s.Prompt)
include h

lemma produce {s' : Machine P} (hp : s'.producers = Function.update s.producers p φ) (ho : s'.owner = s.owner)
    (hφ : ∀ e, φ ≠ .notify (.waking e)) (ha : s'.answered = true → s'.marked = true)
    (hw : ∀ w ∈ s'.notifier.wakes, w.1 = w.2) : s'.Prompt := by
  refine ⟨fun x e hx => ?_, ha, hw⟩
  rcases call_waking_update hx hp ho with ⟨_, hx⟩ | ⟨_, hx⟩
  · exact h.asleep x e hx
  · exact hφ e hx

lemma producerStep (p : P) (accepted : Bool)
    (hp' : ∀ e, (s.producerStep p accepted true).producers p ≠ .notify (.waking e)) :
    (s.producerStep p accepted true).Prompt := by
  rw [Machine.producerStep] at hp' ⊢
  split
  case h_1 => exact h.produce (p := p) rfl rfl (by intro e; split <;> rintro ⟨⟩) h.answered h.wakes
  case h_2 =>
    split
    · exact h.produce (p := p) rfl rfl (by rintro _ ⟨⟩) h.answered h.wakes
    · exact h.produce (p := p) rfl rfl (by rintro _ ⟨⟩) h.answered h.wakes
  case h_3 => exact h
  case h_4 c hp =>
    simp only [hp, notified, update_self] at hp'
    refine h.produce (p := p) rfl rfl hp' ?_ ?_
    · cases c with
      | bit => simp [notified]
      | waking e => exact absurd (call_waking.mpr (.inr ⟨p, rfl, hp⟩)) (h.asleep _ e)
      | rollback | ok | err => simpa [notified, Call.step] using h.answered
    · cases c with
      | bit =>
        rw [Call.step_bit_fst]
        exact h.wakes
      | waking e => exact absurd (call_waking.mpr (.inr ⟨p, rfl, hp⟩)) (h.asleep _ e)
      | rollback | ok | err => exact h.wakes

lemma producerWake (p : P) (accepted : Bool)
    (hp' : (s.producerStep p accepted true).producers p = .notify (.waking e)) :
    ((s.producerStep p accepted true).producerStep p accepted true).Prompt := by
  obtain ⟨hp, hc⟩ : s.producers p = .notify .bit ∧ (Call.bit.step s.notifier true).2 = .waking e := by
    cases hp : s.producers p with
    | start =>
      simp only [Machine.producerStep, hp, update_self] at hp'
      split at hp' <;> cases hp'
    | pushing =>
      simp only [Machine.producerStep, hp] at hp'
      split at hp' <;> simp at hp'
    | refused => simp [Machine.producerStep, hp] at hp'
    | notify c =>
      simp only [Machine.producerStep, hp, notified, update_self, Producer.notify.injEq] at hp'
      cases c with
      | bit => exact ⟨rfl, hp'⟩
      | waking e' => exact absurd (call_waking.mpr (.inr ⟨p, rfl, hp⟩)) (h.asleep _ e')
      | rollback | ok | err => cases hp'
  obtain ⟨_, _, rfl⟩ := Call.step_bit_waking hc
  have hs : s.producerStep p accepted true =
      s.notified p { s.notifier with bits := { s.notifier.bits with notified := true } } .bit
        (.waking s.notifier.parks) := by
    simp only [Machine.producerStep, hp, Call.step_bit_fst, hc]
  have hs' : (s.producerStep p accepted true).producerStep p accepted true = (s.producerStep p accepted true).notified p
        { s.notifier with
          bits := { s.notifier.bits with notified := true }
          wakes := (s.notifier.parks, s.notifier.parks) :: s.notifier.wakes } (.waking s.notifier.parks) .ok := by
    rw [Machine.producerStep, hp']
    simp [hs, notified, Call.step]
  rw [hs', hs]
  refine h.produce (show _ = update s.producers p (.notify .ok) by simp [notified]) rfl (by rintro _ ⟨⟩)
    (fun _ => by simp [notified]) ?_
  intro w hw
  rcases mem_cons.mp hw with rfl | hw
  · rfl
  · exact h.wakes w hw

lemma producer (p : P) (accepted woke : Bool) : (s.stepAtomic (.producer p accepted woke)).Prompt := by
  simp only [stepAtomic]
  split
  case h_1 e hp => exact h.producerWake p accepted hp
  case h_2 hp => exact h.producerStep p accepted hp

lemma ownerNotify (woke : Bool) : (s.stepAtomic (.owner (.notify woke))).Prompt := by
  have hi : s.ownerStep (.notify true) = s ∨ ∃ c, s.owner = .notify c := by
    cases ho : s.owner <;> simp [ownerStep, ho]
  rcases hi with hs | ⟨c, ho⟩
  · simp only [stepAtomic, hs]
    split
    case h_1 e ho => exact absurd (call_waking.mpr (.inl ⟨rfl, ho⟩)) (h.asleep none e)
    case h_2 => exact h
  · have hc : ∀ e, c ≠ .waking e := by
      rintro e rfl
      exact h.asleep none e (call_waking.mpr (.inl ⟨rfl, ho⟩))
    have ha : (c.step s.notifier true).1.wakes = s.notifier.wakes := by
      cases c with
      | bit => rw [Call.step_bit_fst]
      | waking e => exact absurd rfl (hc e)
      | rollback | ok | err => rfl
    simp only [stepAtomic]
    split
    case h_1 e he =>
      have hl : (c.step s.notifier true).2 = .waking e := by
        simp only [ownerStep, ho] at he
        split at he
        · cases he
        · exact Owner.notify.inj he
      have hp : (c.step s.notifier true).1.parks = s.notifier.parks ∧ e = s.notifier.parks := by
        cases c with
        | bit => exact ⟨by rw [Call.step_bit_fst], (Call.step_bit_waking hl).2.2⟩
        | waking e' => exact absurd rfl (hc e')
        | rollback | ok | err => cases hl
      refine h.rephase ?_ ?_ ?_ ?_
      · simp [ownerStep, ho, hl]
      · simp [ownerStep, ho, hl, Call.step_woken]
      · simpa [ownerStep, ho, hl] using h.answered
      · simp only [ownerStep, ho, hl, reduceCtorEq, or_self, if_false, Call.step_woken, mem_cons, hp, ha]
        rintro w (rfl | hw)
        · rfl
        · exact h.wakes w hw
    case h_2 hn =>
      refine h.rephase ?_ hn ?_ ?_
      · simp [ownerStep, ho]
      · simpa [ownerStep, ho] using h.answered
      · simpa [ownerStep, ho, ha] using h.wakes

lemma step (a : Action P) : (s.stepAtomic a).Prompt := by
  cases a with
  | producer p accepted woke => exact h.producer p accepted woke
  | pop p =>
    simp only [stepAtomic, Machine.step]
    split
    · exact h.rephase rfl (by simp_all) h.answered h.wakes
    · exact h
  | owner m =>
    by_cases hm : ∀ woke, m ≠ .notify woke
    · have hs : s.stepAtomic (.owner m) = s.ownerStep m := by
        cases m <;> simp_all [stepAtomic, Machine.step]
      rw [hs]
      exact h.ownerPlain hm
    · push Not at hm
      obtain ⟨woke, rfl⟩ := hm
      exact h.ownerNotify woke

end Prompt

variable [DecidableEq P]

lemma Safe.stepAtomic (h : s.Safe) (a : Action P) : (s.stepAtomic a).Safe := by
  cases a with
  | producer p accepted =>
    simp only [Machine.stepAtomic]
    split
    · exact (h.producer p accepted).producer p accepted
    · exact h.producer p accepted
  | pop p => exact h.pop p
  | owner m =>
    by_cases hm : ∀ woke, m ≠ .notify woke
    · have hs : s.stepAtomic (.owner m) = s.ownerStep m := by
        cases m <;> simp_all [Machine.stepAtomic, Machine.step]
      rw [hs]
      exact h.owner m (hm false)
    · push Not at hm
      obtain ⟨woke, rfl⟩ := hm
      simp only [Machine.stepAtomic]
      split
      · exact (h.owner (.notify true) (by simp)).owner (.notify true) (by simp)
      · exact h.owner (.notify true) (by simp)

lemma runAtomic_safe (kind : P → Kind) (actions : List (Action P)) : (runAtomic kind actions).Safe ∧
    (runAtomic kind actions).Prompt :=
  foldlRecOn (motive := fun s => s.Safe ∧ s.Prompt) actions stepAtomic ⟨.init kind, .init kind⟩
    (fun _ h a _ => ⟨h.1.stepAtomic a, h.2.step a⟩)

end Machine

open Machine

theorem no_lost_wake [DecidableEq P] (kind : P → Kind) :
    (∀ actions, let s := runAtomic kind actions
      (s.Waiting → s.HasPost ∨ s.answered = true → s.woken = true) ∧
      ∀ e, s.notifier.wakes.countP (fun w => w.2 = e) ≤ 1) ∧
    ∀ actions, (∀ a ∈ actions, a.Wakes) → let s := run kind actions
      (s.Waiting → s.HasPost ∨ s.marked = true → 0 < s.notifier.wakesFor s.notifier.parks ∨ s.Waking s.notifier.parks) ∧
      ∀ e, s.notifier.wakesFor e ≤ 1 := by
  refine ⟨fun actions => ?_, fun actions ha => ?_⟩
  · obtain ⟨hs, hr⟩ := runAtomic_safe kind actions
    refine ⟨fun hw hb => ?_, fun e => ?_⟩
    · obtain ⟨hc, he⟩ := hs.notified_of_waiting hw (hb.imp id hr.answered)
      rcases hs.inv.woken hc he with ⟨w, hm, hd⟩ | hf
      · rw [Machine.woken, any_eq_true]
        exact ⟨w, hm, by simp [← hr.wakes w hm, hd]⟩
      · rcases hf with ⟨p, hp⟩ | ho
        · exact absurd (call_waking.mpr (.inr ⟨p, rfl, hp⟩)) (hr.asleep _ _)
        · exact absurd (call_waking.mpr (.inl ⟨rfl, ho⟩)) (hr.asleep _ _)
    · rw [countP_congr (q := fun w => w.1 = e) (fun w hw => by rw [hr.wakes w hw])]
      exact hs.once.once e
  · have hs := Safe.run kind actions ha
    refine ⟨fun hw hb => ?_, hs.once.once⟩
    obtain ⟨hc, he⟩ := hs.notified_of_waiting hw hb
    refine (hs.inv.woken hc he).imp (fun ⟨w, hm, hd⟩ => ?_) id
    exact countP_pos_iff.mpr ⟨w, hm, by simpa using hd⟩

theorem no_lost_wake_blocked :
    let s := runAtomic (fun p : ℕ => if p = 0 then Kind.post else Kind.notify)
      [.owner .turn, .owner (.look false), .owner .park, .producer 0 true true, .producer 0 true true,
        .producer 0 true true,
        .producer 1 true true]
    s.owner = .blocked ∧ s.posts = [0] ∧ s.woken = true ∧ s.notifier.wakes.length = 1 := by
  refine ⟨by decide, by decide, ((no_lost_wake _).1 _).1 (.inl (by decide)) (.inr (by decide)), by decide⟩

end Turnloop.Notify
