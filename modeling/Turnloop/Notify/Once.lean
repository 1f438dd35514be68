import Turnloop.Notify.Wakes

/-! At most one native wake for each park. The owner's own `notify` counts like a producer's. -/

namespace Turnloop.Notify

variable {P : Type} {x : Option P} {e : ℕ}

def Notifier.wakesFor (n : Notifier) (e : ℕ) : ℕ := n.wakes.countP (fun w => w.1 = e)

def Machine.call (s : Machine P) : Option P → Option Call
  | none => match s.owner with
    | .notify c => some c
    | _ => none
  | some p => match s.producers p with
    | .notify c => some c
    | _ => none

structure Once (n : Notifier) (calls : Option P → Option Call) : Prop where
  once : ∀ e, n.wakesFor e ≤ 1
  past : ∀ e, 0 < n.wakesFor e → e ≤ n.parks ∧ (e = n.parks → n.bits.parked = true → n.bits.notified = true)
  waking : ∀ x e, calls x = some (.waking e) → n.wakesFor e = 0 ∧ e ≤ n.parks ∧
    (e = n.parks → n.bits.parked = true → n.bits.notified = true)
  unique : ∀ x y e, calls x = some (.waking e) → calls y = some (.waking e) → x = y

namespace Once

variable {n n' : Notifier} {calls calls' : Option P → Option Call}

lemma mono (h : Once n calls) (hw : n'.wakes = n.wakes) (ha : n.parks ≤ n'.parks) (hb : n'.parks = n.parks →
    n'.bits.parked = true →
      n'.bits.notified = true ∨ (n.bits.parked = true ∧ (n.bits.notified = true → n'.bits.notified = true)))
    (hc : ∀ x e, calls' x = some (.waking e) → calls x = some (.waking e)) : Once n' calls' := by
  have hm : ∀ e, n'.wakesFor e = n.wakesFor e := by
    intro e
    rw [Notifier.wakesFor, hw]
    rfl
  have hb' : ∀ e, e ≤ n.parks ∧ (e = n.parks → n.bits.parked = true → n.bits.notified = true) →
      e ≤ n'.parks ∧ (e = n'.parks → n'.bits.parked = true → n'.bits.notified = true) := by
    rintro e ⟨hl, hn⟩
    refine ⟨hl.trans ha, fun he hp => ?_⟩
    have hq : n'.parks = n.parks := by omega
    rcases hb hq hp with hd | ⟨hp', hk⟩
    · exact hd
    · exact hk (hn (by omega) hp')
  refine ⟨fun e => hm e ▸ h.once e, fun e he => hb' e (h.past e (hm e ▸ he)), fun x e hx => ?_,
    fun x y e hx hy => h.unique x y e (hc x e hx) (hc y e hy)⟩
  obtain ⟨hz, hr⟩ := h.waking x e (hc x e hx)
  exact ⟨(hm e).trans hz, hb' e hr⟩

lemma claim (h : Once n calls) (hp : n.bits.parked = true) (hc : n.bits.notified = false)
    (ha : ∀ y e, calls' y = some (.waking e) → calls y = some (.waking e) ∨ (y = x ∧ e = n.parks)) :
    Once { n with bits := { n.bits with notified := true } } calls' := by
  have hf : n.wakesFor n.parks = 0 := by
    by_contra hne
    cases hc.symm.trans ((h.past n.parks (by omega)).2 rfl hp)
  have hn : ∀ y, calls y ≠ some (.waking n.parks) := by
    intro y hy
    cases hc.symm.trans ((h.waking y n.parks hy).2.2 rfl hp)
  refine ⟨h.once, fun e he => ⟨(h.past e he).1, fun _ _ => rfl⟩, fun y e hy => ?_, fun y z e hy hz => ?_⟩
  · rcases ha y e hy with hy | ⟨_, rfl⟩
    · exact ⟨(h.waking y e hy).1, (h.waking y e hy).2.1, fun _ _ => rfl⟩
    · exact ⟨hf, le_rfl, fun _ _ => rfl⟩
  · rcases ha y e hy with hy | ⟨hx, he⟩ <;> rcases ha z e hz with hz | ⟨hb, he'⟩
    · exact h.unique y z e hy hz
    · exact absurd (he' ▸ hy) (hn y)
    · exact absurd (he ▸ hz) (hn z)
    · rw [hx, hb]

lemma wake (h : Once n calls) (hx : calls x = some (.waking e))
    (hc : ∀ y e', calls' y = some (.waking e') → y ≠ x ∧ calls y = some (.waking e')) :
    Once { n with wakes := (e, n.parks) :: n.wakes } calls' := by
  obtain ⟨hz, hl, hn⟩ := h.waking x e hx
  have ho : ∀ e', Notifier.wakesFor { n with wakes := (e, n.parks) :: n.wakes } e' =
      n.wakesFor e' + if e = e' then 1 else 0 := by
    intro e'
    simp [Notifier.wakesFor, List.countP_cons]
  refine ⟨fun e' => ?_, fun e' he' => ?_, fun y e' hy => ?_, fun y z e' hy hz => ?_⟩
  · rw [ho]
    by_cases he : e = e'
    · subst he
      simp [hz]
    · simpa [he] using h.once e'
  · rw [ho] at he'
    by_cases he : e = e'
    · exact he ▸ ⟨hl, hn⟩
    · exact h.past e' (by simpa [he] using he')
  · obtain ⟨hb, hy⟩ := hc y e' hy
    obtain ⟨hz', hr⟩ := h.waking y e' hy
    refine ⟨?_, hr⟩
    rw [ho, hz', if_neg]
    rintro rfl
    exact hb (h.unique y x e hy hx)
  · exact h.unique y z e' (hc y e' hy).2 (hc z e' hz).2

end Once

namespace Machine

variable {s : Machine P}

lemma once_init (kind : P → Kind) : Once (init kind).notifier (init kind).call := by
  have hn : ∀ x e, (init kind).call x ≠ some (.waking e) := by
    intro x e
    cases x with
    | none => simp [call, init]
    | some p => cases hk : kind p <;> simp [call, init, hk]
  refine ⟨fun e => by simp [init, Notifier.wakesFor], fun e he => by simp [init, Notifier.wakesFor] at he,
    fun x e hx => absurd hx (hn x e), fun x y e hx => absurd hx (hn x e)⟩

lemma call_waking : s.call x = some (.waking e) ↔
    (x = none ∧ s.owner = .notify (.waking e)) ∨ ∃ p, x = some p ∧ s.producers p = .notify (.waking e) := by
  cases x with
  | none =>
    simp only [call, true_and, reduceCtorEq, false_and, exists_false, or_false]
    cases s.owner <;> simp
  | some p =>
    simp only [call, reduceCtorEq, false_and, Option.some.injEq, false_or, exists_eq_left']
    cases s.producers p <;> simp

lemma once_rephase (h : Once s.notifier s.call) {s' : Machine P} (hw : s'.notifier.wakes = s.notifier.wakes)
    (ha : s.notifier.parks ≤ s'.notifier.parks)
    (hb : s'.notifier.parks = s.notifier.parks → s'.notifier.bits.parked = true → s'.notifier.bits = s.notifier.bits)
    (hp : s'.producers = s.producers) (ho : ∀ e, s'.owner ≠ .notify (.waking e)) : Once s'.notifier s'.call := by
  refine h.mono hw ha (fun he hr => .inr ?_) (fun x e hx => ?_)
  · have hq := hb he hr
    rw [hq] at hr ⊢
    exact ⟨hr, id⟩
  · rw [call_waking, hp] at hx
    rcases hx with ⟨_, hx⟩ | hx
    · exact absurd hx (ho e)
    · exact call_waking.mpr (.inr hx)

structure Plain (s s' : Machine P) : Prop where
  wakes : s'.notifier.wakes = s.notifier.wakes
  parks : s.notifier.parks ≤ s'.notifier.parks
  bits : s'.notifier.parks = s.notifier.parks → s'.notifier.bits.parked = true → s'.notifier.bits = s.notifier.bits
  producers : s'.producers = s.producers
  owner : s' = s ∨ ∀ e, s'.owner ≠ .notify (.waking e)

lemma Plain.refl (s : Machine P) : Plain s s := ⟨rfl, le_rfl, fun _ _ => rfl, rfl, .inl rfl⟩

lemma Plain.turned {s' : Machine P} (hn : s'.notifier = s.notifier) (hp : s'.producers = s.producers)
    (ho : ∀ e, s'.owner ≠ .notify (.waking e)) : Plain s s' :=
  ⟨by rw [hn], by rw [hn], fun _ _ => by rw [hn], hp, .inr ho⟩

lemma ownerStep_plain (s : Machine P) {m : Move} (hm : ∀ woke, m ≠ .notify woke) : Plain s (s.ownerStep m) := by
  cases m with
  | notify woke => exact absurd rfl (hm woke)
  | turn | running =>
    rw [ownerStep]
    split
    · exact ⟨rfl, le_rfl, by rintro _ ⟨⟩, rfl, .inr (by rintro _ ⟨⟩)⟩
    · exact .refl s
  | drop =>
    rw [ownerStep]
    split
    · exact .turned rfl rfl (by rintro _ ⟨⟩)
    · exact ⟨rfl, le_rfl, by rintro _ ⟨⟩, rfl, .inr (by rintro _ ⟨⟩)⟩
    · exact .refl s
  | park =>
    rw [ownerStep]
    split
    · split
      · exact ⟨rfl, Nat.le_succ _, fun h => absurd h (Nat.succ_ne_self _), rfl, .inr (by rintro _ ⟨⟩)⟩
      · exact .turned rfl rfl (by rintro _ ⟨⟩)
    · exact .refl s
  | finish =>
    rw [ownerStep]
    split
    · exact .turned rfl rfl (by intro e; simp only; split <;> rintro ⟨⟩)
    · exact .refl s
  | swap =>
    rw [ownerStep]
    split
    · exact ⟨rfl, Nat.le_succ _, fun h => absurd h (Nat.succ_ne_self _), rfl,
        .inr (by intro e; simp only; split <;> rintro ⟨⟩)⟩
    · exact .refl s
  | integration | skip | now | wait =>
    rw [ownerStep]
    split
    · exact .turned rfl rfl (by rintro _ ⟨⟩)
    · exact .refl s
  | fail | look =>
    rw [ownerStep]
    split
    · exact .turned rfl rfl (by rintro _ ⟨⟩)
    · exact .turned rfl rfl (by rintro _ ⟨⟩)
    · exact .refl s

lemma once_notify (h : Once s.notifier s.call) (hs : s.Inv) :
    Once (s.ownerStep (.notify true)).notifier (s.ownerStep (.notify true)).call := by
  rw [ownerStep]
  split
  case h_2 => exact h
  case h_1 c ho =>
    have hn := hs.open_ (by simp [ho])
    have hp := hs.parked (.inr ⟨c, ho⟩)
    rcases hs.handing c ho with rfl | ⟨⟨e, rfl⟩, _⟩
    · rw [Call.step_bit hn]
      by_cases hb : s.notifier.bits.notified = true
      · simp only [hb, Bool.not_true, Bool.and_false, Bool.false_eq_true, if_false, true_or, if_true]
        refine h.mono rfl le_rfl (fun _ _ => .inl rfl) (fun x e hx => ?_)
        rw [call_waking] at hx ⊢
        exact hx.imp (fun hx => by cases hx.2) id
      · rw [if_pos (by simp [hp, hb])]
        simp only [reduceCtorEq, or_self, if_false]
        refine h.claim (x := none) hp (by simpa using hb) (fun x e hx => ?_)
        rw [call_waking] at hx
        rcases hx with ⟨hx, he⟩ | hx
        · cases he
          exact .inr ⟨hx, rfl⟩
        · exact .inl (call_waking.mpr (.inr hx))
    · simp only [Call.step, if_true, true_or]
      refine h.wake (x := none) (call_waking.mpr (.inl ⟨rfl, ho⟩)) (fun x e' hx => ?_)
      rw [call_waking] at hx
      rcases hx with ⟨_, hx⟩ | ⟨p, rfl, hx⟩
      · cases hx
      · exact ⟨by rintro ⟨⟩, call_waking.mpr (.inr ⟨p, rfl, hx⟩)⟩

lemma once_owner (h : Once s.notifier s.call) (hs : s.Inv) (hm : m ≠ .notify false) :
    Once (s.ownerStep m).notifier (s.ownerStep m).call := by
  by_cases hn : ∀ woke, m ≠ .notify woke
  · obtain ⟨hw, ha, hb, hp, ho⟩ := ownerStep_plain s hn
    rcases ho with ho | ho
    · rwa [ho]
    · exact once_rephase h hw ha hb hp ho
  · push Not at hn
    obtain ⟨woke, rfl⟩ := hn
    cases woke with
    | true => exact once_notify h hs
    | false => exact absurd rfl hm

variable [DecidableEq P]

lemma call_waking_update {s' : Machine P} {p : P} {φ : Producer}
    (hx : s'.call x = some (.waking e)) (hp : s'.producers = Function.update s.producers p φ)
    (ho : s'.owner = s.owner) :
    (x ≠ some p ∧ s.call x = some (.waking e)) ∨ (x = some p ∧ φ = .notify (.waking e)) := by
  rw [call_waking, hp, ho] at hx
  rcases hx with ⟨rfl, hx⟩ | ⟨q, rfl, hx⟩
  · exact .inl ⟨nofun, call_waking.mpr (.inl ⟨rfl, hx⟩)⟩
  · by_cases hq : q = p
    · subst hq
      rw [Function.update_self] at hx
      exact .inr ⟨rfl, hx⟩
    · rw [Function.update_of_ne hq] at hx
      exact .inl ⟨by simpa using hq, call_waking.mpr (.inr ⟨q, rfl, hx⟩)⟩

lemma once_producer (h : Once s.notifier s.call) (hs : s.Inv) (p : P) (accepted : Bool) :
    Once (s.producerStep p accepted true).notifier (s.producerStep p accepted true).call := by
  -- a step that leaves the notifier alone
  have ha : ∀ {s' : Machine P} {φ : Producer}, s'.notifier = s.notifier →
      s'.producers = Function.update s.producers p φ → s'.owner = s.owner → (∀ e, φ ≠ .notify (.waking e)) →
      Once s'.notifier s'.call := by
    intro s' φ hn hp ho hφ
    refine h.mono (by rw [hn]) (by rw [hn]) (fun _ hb => .inr ?_) (fun x e hx => ?_)
    · rw [hn] at hb ⊢
      exact ⟨hb, id⟩
    · rcases call_waking_update hx hp ho with ⟨_, hx⟩ | ⟨_, hx⟩
      · exact hx
      · exact absurd hx (hφ e)
  rw [producerStep]
  split
  case h_1 => exact ha rfl rfl rfl (by intro e; split <;> rintro ⟨⟩)
  case h_2 =>
    split
    · exact ha rfl rfl rfl (by rintro _ ⟨⟩)
    · exact ha rfl rfl rfl (by rintro _ ⟨⟩)
  case h_3 => exact h
  case h_4 c hp =>
    cases c with
    | bit =>
      rw [Call.step_bit_fst]
      by_cases hc : s.notifier.bits.parked = true ∧ s.notifier.bits.notified = false
      · refine h.claim (x := some p) hc.1 hc.2 (fun x e hx => ?_)
        rcases call_waking_update (s := s) (p := p) hx rfl rfl with ⟨_, hx⟩ | ⟨hx, he⟩
        · exact .inl hx
        · refine .inr ⟨hx, ?_⟩
          exact (Call.step_bit_waking (Producer.notify.inj he)).2.2
      · refine h.mono rfl le_rfl (fun _ _ => .inl rfl) (fun x e hx => ?_)
        rcases call_waking_update (s := s) (p := p) hx rfl rfl with ⟨_, hx⟩ | ⟨_, he⟩
        · exact hx
        · have hw := Call.step_bit_waking (Producer.notify.inj he)
          exact absurd ⟨hw.1, hw.2.1⟩ hc
    | waking =>
      refine h.wake (x := some p) (call_waking.mpr (.inr ⟨p, rfl, hp⟩)) (fun x e' hx => ?_)
      rcases call_waking_update (s := s) (p := p) hx rfl rfl with hx | ⟨_, he⟩
      · exact hx
      · cases he
    | rollback => exact absurd hp (hs.settled p)
    | ok | err => exact ha rfl rfl rfl (by rintro _ ⟨⟩)

end Machine

end Turnloop.Notify
