import Turnloop.Notify.Protocol

/-! No wake is lost: whatever the owner waits for has been woken for, or is being woken for. -/

namespace Turnloop.Notify

open List Function

variable {P : Type}

def Producer.Marked : Producer → Prop
  | .notify .bit | .start | .pushing | .refused => False
  | .notify _ => True

lemma Call.step_bit (ho : n.bits.closed = false) :
    Call.bit.step n woke = ({ n with bits := { n.bits with notified := true } },
      if (n.bits.parked && !n.bits.notified) = true then .waking n.parks else .ok) := by
  simp only [Call.step, ho, Bool.false_eq_true, if_false]
  split <;> rfl

lemma Call.step_woken (n : Notifier) (park : ℕ) : (Call.waking park).step n true =
    ({ n with wakes := (park, n.parks) :: n.wakes }, .ok) := rfl

lemma Call.step_bit_fst (n : Notifier) (woke : Bool) : (Call.bit.step n woke).1 =
    { n with bits := { n.bits with notified := true } } := by
  rw [Call.step]
  split
  · rfl
  · split <;> rfl

lemma Call.step_bit_waking (h : (Call.bit.step n woke).2 = .waking e) :
    n.bits.parked = true ∧ n.bits.notified = false ∧ e = n.parks := by
  rw [Call.step] at h
  split at h
  · cases h
  · split at h
    case isTrue hp => exact ⟨by simp_all, by simp_all, (Call.waking.inj h).symm⟩
    case isFalse => cases h

lemma Call.step_bit_ne_rollback {n : Notifier} {woke : Bool} : (Call.bit.step n woke).2 ≠ .rollback := by
  rw [Call.step]
  split
  · nofun
  · split <;> nofun

namespace Owner

def Running : Owner → Prop
  | .begun _ | .looked _ | .collecting | .closed => True
  | _ => False

def Quiet (parked : Bool) : Owner → Prop
  | .looked mayWait => mayWait = true
  | .blocked => True
  | .parking work => work = false
  | .idle => parked = true
  | _ => False

def Plain : Owner → Prop
  | .blocked | .notify _ | .closed => False
  | _ => True

end Owner

namespace Machine

variable {s : Machine P}

def Waking (s : Machine P) (e : ℕ) : Prop :=
  (∃ p, s.producers p = .notify (.waking e)) ∨ s.owner = .notify (.waking e)

structure Inv (s : Machine P) : Prop where
  running : s.owner.Running → s.notifier.bits.parked = false
  parked : s.owner = .blocked ∨ (∃ c, s.owner = .notify c) → s.notifier.bits.parked = true
  open_ : s.owner ≠ .closed → s.notifier.bits.closed = false
  handing : ∀ c, s.owner = .notify c → c = .bit ∨ ((∃ e, c = .waking e) ∧ s.notifier.bits.notified = true)
  settled : ∀ p, s.producers p ≠ .notify .rollback
  quiet : s.owner.Quiet s.notifier.bits.parked → ∀ p ∈ s.posts, (s.producers p).Marked → s.notifier.bits.notified = true
  marked : s.marked = true → s.notifier.bits.notified = true ∨ s.owner = .notify .bit ∨ s.owner = .closed
  woken : s.notifier.bits.parked = true → s.notifier.bits.notified = true →
    (∃ w ∈ s.notifier.wakes, w.1 = s.notifier.parks) ∨ s.Waking s.notifier.parks

lemma inv_init (kind : P → Kind) : (init kind).Inv := by
  have hf : ∀ p, (init kind).producers p = .start ∨ (init kind).producers p = .notify .bit := by
    intro p
    cases hk : kind p <;> simp [init, hk]
  refine ⟨nofun, nofun, fun _ => rfl, nofun, fun p hp => ?_, nofun, nofun, nofun⟩
  rcases hf p with h | h <;> rw [h] at hp <;> cases hp

namespace Inv

section

variable (h : s.Inv)
include h

lemma rephase (ho : ∀ c, s.owner ≠ .notify c) (he : s.owner ≠ .closed) (hl : o.Plain)
    (hr : o.Running → s.notifier.bits.parked = false)
    (hq : o.Quiet s.notifier.bits.parked → ∀ p ∈ s.posts, (s.producers p).Marked → s.notifier.bits.notified = true) :
    ({ s with owner := o } : Machine P).Inv := by
  refine ⟨hr, ?_, fun _ => h.open_ he, ?_, h.settled, hq, ?_, ?_⟩
  · rintro (rfl | ⟨c, rfl⟩) <;> exact hl.elim
  · rintro c rfl
    exact hl.elim
  · intro hm
    rcases h.marked hm with hn | hn | hn
    · exact .inl hn
    · exact absurd hn (ho _)
    · exact absurd hn he
  · intro hp hn
    rcases h.woken hp hn with hw | hw | hw
    · exact .inl hw
    · exact .inr (.inl hw)
    · exact absurd hw (ho _)

lemma open_of_parked (hp : s.notifier.bits.parked = true) : s.notifier.bits.closed = false := by
  apply h.open_
  intro ho
  cases (h.running (by rw [ho]; trivial)).symm.trans hp

lemma turn : (s.ownerStep .turn).Inv := by
  rw [ownerStep]
  split
  case h_2 => exact h
  case h_1 => exact ⟨fun _ => rfl, nofun, fun _ => rfl, nofun, h.settled, nofun, nofun, nofun⟩

lemma integration : (s.ownerStep .integration).Inv := by
  rw [ownerStep]
  split
  case h_2 => exact h
  case h_1 ho =>
    have h' : ({ s with external := true } : Machine P).Inv :=
      { h with }
    exact h'.rephase (by simp [ho]) (by simp [ho]) trivial nofun nofun

lemma drop : (s.ownerStep .drop).Inv := by
  rw [ownerStep]
  split
  case h_1 ho =>
    have h' : ({ s with closed := true } : Machine P).Inv :=
      { h with }
    exact h'.rephase (by simp [ho]) (by simp [ho]) trivial nofun nofun
  case h_2 =>
    exact ⟨fun _ => rfl, nofun, fun hn => absurd rfl hn, nofun, h.settled, nofun, fun _ => .inr (.inr rfl), nofun⟩
  case h_3 => exact h

lemma fail : (s.ownerStep .fail).Inv := by
  rw [ownerStep]
  split
  case h_1 ho =>
    have hp := h.running (by rw [ho]; trivial)
    exact h.rephase (by simp [ho]) (by simp [ho]) trivial nofun (fun hq => absurd (hp.symm.trans hq) (by decide))
  case h_2 ho =>
    have hp := h.running (by rw [ho]; trivial)
    exact h.rephase (by simp [ho]) (by simp [ho]) trivial nofun (fun hq => absurd (hp.symm.trans hq) (by decide))
  case h_3 => exact h

lemma look (otherWork : Bool) : (s.ownerStep (.look otherWork)).Inv := by
  rw [ownerStep]
  split
  case h_1 ho =>
    refine h.rephase (by simp [ho]) (by simp [ho]) trivial (fun _ => h.running (by rw [ho]; trivial))
      (fun hq p hp => ?_)
    have he : s.posts = [] := (by simpa [Owner.Quiet] using hq : _ ∧ s.posts = []).2
    rw [he] at hp
    cases hp
  case h_2 ho =>
    refine h.rephase (by simp [ho]) (by simp [ho]) trivial nofun (fun hq p hp => ?_)
    have he : s.posts = [] := (by simpa [Owner.Quiet] using hq : _ ∧ s.posts = []).2
    rw [he] at hp
    cases hp
  case h_3 => exact h

lemma skip : (s.ownerStep .skip).Inv := by
  rw [ownerStep]
  split
  case h_1 ho =>
    exact h.rephase (by simp [ho]) (by simp [ho]) trivial (fun _ => h.running (by rw [ho]; trivial)) nofun
  case h_2 => exact h

lemma now : (s.ownerStep .now).Inv := by
  rw [ownerStep]
  split
  case h_1 ho => exact h.rephase (by simp [ho]) (by simp [ho]) trivial nofun nofun
  case h_2 => exact h

lemma wait : (s.ownerStep .wait).Inv := by
  rw [ownerStep]
  split
  case h_1 ho => exact h.rephase (by simp [ho]) (by simp [ho]) trivial nofun nofun
  case h_2 => exact h

lemma finish : (s.ownerStep .finish).Inv := by
  rw [ownerStep]
  split
  case h_1 ho =>
    have hp := h.running (by rw [ho]; trivial)
    split
    · exact h.rephase (by simp [ho]) (by simp [ho]) trivial nofun nofun
    · exact h.rephase (by simp [ho]) (by simp [ho]) trivial nofun (fun hq => absurd (hp.symm.trans hq) (by decide))
  case h_2 => exact h

lemma park : (s.ownerStep .park).Inv := by
  rw [ownerStep]
  split
  case h_2 => exact h
  case h_1 ho =>
    split
    case isFalse => exact h.rephase (by simp [ho]) (by simp [ho]) trivial nofun nofun
    case isTrue hb =>
      have hc : s.notifier.bits.notified = false := by rw [hb]; rfl
      refine ⟨nofun, fun _ => rfl, fun _ => rfl, nofun, h.settled, fun _ p hp hm => ?_, fun hm => ?_, nofun⟩
      · have he := h.quiet (by rw [ho]; rfl) p hp hm
        cases hc.symm.trans he
      · rcases h.marked hm with he | he | he
        · cases hc.symm.trans he
        · cases ho.symm.trans he
        · cases ho.symm.trans he

lemma running' : (s.ownerStep .running).Inv := by
  rw [ownerStep]
  split
  case h_2 => exact h
  case h_1 ho =>
    refine ⟨fun _ => rfl, nofun, fun _ => h.open_ (by simp [ho]), nofun, h.settled, nofun, fun hm => ?_, nofun⟩
    rcases h.marked hm with he | he | he
    · exact .inl he
    · cases ho.symm.trans he
    · cases ho.symm.trans he

lemma swap : (s.ownerStep .swap).Inv := by
  rw [ownerStep]
  split
  case h_2 => exact h
  case h_1 work ho =>
    by_cases ha : (work || s.notifier.bits.notified) = true
    · rw [if_pos ha]
      refine ⟨nofun, fun _ => rfl, fun _ => rfl, fun c hc => ?_, h.settled, nofun, fun _ => .inr (.inl rfl), nofun⟩
      exact .inl (by cases hc; rfl)
    · rw [if_neg ha]
      simp only [Bool.or_eq_true, not_or, Bool.not_eq_true] at ha
      refine ⟨nofun, nofun, fun _ => rfl, nofun, h.settled, fun _ p hp hm => ?_, fun hm => ?_, nofun⟩
      · have he := h.quiet (by rw [ho]; exact ha.1) p hp hm
        cases ha.2.symm.trans he
      · rcases h.marked hm with he | he | he
        · cases ha.2.symm.trans he
        · cases ho.symm.trans he
        · cases ho.symm.trans he

lemma notify : (s.ownerStep (.notify true)).Inv := by
  rw [ownerStep]
  split
  case h_2 => exact h
  case h_1 c ho =>
    have hp := h.parked (.inr ⟨c, ho⟩)
    have hn := h.open_ (by simp [ho])
    rcases h.handing c ho with rfl | ⟨⟨e, rfl⟩, he⟩
    · rw [Call.step_bit hn]
      by_cases he : s.notifier.bits.notified = true
      · -- a producer was faster
        simp only [he, Bool.not_true, Bool.and_false, Bool.false_eq_true, if_false, true_or, if_true]
        refine ⟨nofun, nofun, fun _ => hn, nofun, h.settled, fun _ _ _ _ => rfl, fun _ => .inl rfl, fun _ _ => ?_⟩
        rcases h.woken hp he with hw | hw | hw
        · exact .inl hw
        · exact .inr (.inl hw)
        · cases ho.symm.trans hw
      · simp only [hp, he, Bool.not_false, Bool.and_true, if_true, reduceCtorEq, or_self, if_false]
        refine ⟨nofun, fun _ => rfl, fun _ => hn, fun c hc => ?_, h.settled, nofun, fun _ => .inl rfl,
          fun _ _ => .inr (.inr rfl)⟩
        cases hc
        exact .inr ⟨⟨_, rfl⟩, rfl⟩
    · simp only [Call.step, if_true, true_or]
      refine ⟨nofun, nofun, fun _ => hn, nofun, h.settled, fun _ _ _ _ => he, fun _ => .inl he, fun _ _ => ?_⟩
      rcases h.woken hp he with ⟨w, hw, hb⟩ | hw | hw
      · exact .inl ⟨w, mem_cons_of_mem _ hw, hb⟩
      · exact .inr (.inl hw)
      · cases ho.symm.trans hw
        exact .inl ⟨_, mem_cons_self, rfl⟩

end

variable [DecidableEq P]

lemma pop (h : s.Inv) (p : P) : (s.step (.pop p)).Inv := by
  rw [step]
  split
  case h_2 => exact h
  case h_1 ho =>
    refine ⟨h.running, h.parked, h.open_, h.handing, h.settled, fun hq => ?_, h.marked, h.woken⟩
    rw [ho] at hq
    exact hq.elim

lemma produce (h : s.Inv) {s' : Machine P} (hp : s'.producers = Function.update s.producers p φ)
    (ho : s'.owner = s.owner)
    (ha : s'.notifier.bits.parked = s.notifier.bits.parked)
    (hd : s'.notifier.bits.closed = s.notifier.bits.closed)
    (he : s.notifier.bits.notified = true → s'.notifier.bits.notified = true) (hr : φ ≠ .notify .rollback)
    (hb : ∀ q ∈ s'.posts, q = p ∨ q ∈ s.posts)
    (hφ : φ.Marked → s'.notifier.bits.notified = true ∨ (p ∈ s.posts ↔ p ∈ s'.posts) ∧ (s.producers p).Marked)
    (hf : s'.marked = true → s.marked = true ∨ s'.notifier.bits.notified = true)
    (hg : s'.notifier.bits.parked = true → s'.notifier.bits.notified = true →
      (∃ w ∈ s'.notifier.wakes, w.1 = s'.notifier.parks) ∨ s'.Waking s'.notifier.parks) : s'.Inv := by
  refine ⟨?_, ?_, ?_, ?_, fun q hq => ?_, fun hq q hk hm => ?_, fun hm => ?_, hg⟩
  · rw [ho, ha]
    exact h.running
  · rw [ho, ha]
    exact h.parked
  · rw [ho, hd]
    exact h.open_
  · rw [ho]
    exact fun c hc => (h.handing c hc).imp id (fun hw => ⟨hw.1, he hw.2⟩)
  · rw [hp] at hq
    by_cases hk : q = p
    · subst hk
      rw [update_self] at hq
      exact hr hq
    · rw [update_of_ne hk] at hq
      exact h.settled q hq
  · rw [ho, ha] at hq
    rw [hp] at hm
    by_cases hq' : q = p
    · subst hq'
      rw [update_self] at hm
      rcases hφ hm with hn | ⟨hi, hl⟩
      · exact hn
      · exact he (h.quiet hq q (hi.mpr hk) hl)
    · rw [update_of_ne hq'] at hm
      exact he (h.quiet hq q ((hb q hk).resolve_left hq') hm)
  · rw [ho]
    rcases hf hm with hm | hm
    · exact (h.marked hm).imp he id
    · exact .inl hm

lemma waking_other {s' : Machine P} (hw : s.Waking e) (hr : s'.producers = Function.update s.producers p φ)
    (hb : s'.owner = s.owner)
    (hp : s.producers p ≠ .notify (.waking e)) : s'.Waking e := by
  rcases hw with ⟨q, hq⟩ | ho
  · refine .inl ⟨q, ?_⟩
    have hn : q ≠ p := fun he => hp (he ▸ hq)
    rw [hr, update_of_ne hn, hq]
  · exact .inr (hb.trans ho)

lemma call (h : s.Inv) (hp : s.producers p = .notify c) :
    (s.notified p (c.step s.notifier true).1 c (c.step s.notifier true).2).Inv := by
  cases c with
  | bit =>
    rw [Call.step_bit_fst]
    refine h.produce (p := p) rfl rfl rfl rfl (fun _ => rfl) ?_ (fun q hq => .inr hq) (fun _ => .inl rfl)
      (fun _ => .inr rfl) (fun ha _ => ?_)
    · intro hr
      exact Call.step_bit_ne_rollback (Producer.notify.inj hr)
    · by_cases hs : s.notifier.bits.notified = true
      · exact (h.woken ha hs).imp id (fun hw => waking_other (p := p) hw rfl rfl (by simp [hp]))
      · refine .inr (.inl ⟨p, ?_⟩)
        rw [Call.step_bit (h.open_of_parked ha), if_pos (by simp_all [notified])]
        exact update_self ..
  | waking e =>
    refine h.produce (p := p) rfl rfl rfl rfl id nofun (fun q hq => .inr hq)
      (fun _ => .inr ⟨Iff.rfl, by rw [hp]; trivial⟩)
      (fun hm => .inl (by simpa [notified] using hm)) (fun ha hs => ?_)
    rcases h.woken ha hs with ⟨w, hw, hb⟩ | hw
    · exact .inl ⟨w, mem_cons_of_mem _ hw, hb⟩
    · by_cases he : e = s.notifier.parks
      · exact .inl ⟨_, mem_cons_self, he⟩
      · refine .inr (waking_other (p := p) hw rfl rfl ?_)
        rw [hp]
        exact fun hc => he (Call.waking.inj (Producer.notify.inj hc))
  | rollback => exact absurd hp (h.settled p)
  | ok | err =>
    refine h.produce (p := p) rfl rfl rfl rfl id nofun (fun q hq => .inr hq)
      (fun _ => .inr ⟨Iff.rfl, by rw [hp]; trivial⟩)
      (fun hm => .inl (by simpa [notified] using hm)) (fun ha hs => ?_)
    exact (h.woken ha hs).imp id (fun hw => waking_other (p := p) hw rfl rfl (by simp [hp]))

lemma producer (h : s.Inv) (p : P) (accepted : Bool) : (s.producerStep p accepted true).Inv := by
  rw [producerStep]
  split
  case h_1 hp =>
    refine h.produce (p := p) rfl rfl rfl rfl id ?_ (fun q hq => .inr hq) ?_ .inl ?_
    · split <;> nofun
    · split <;> nofun
    · intro hk hn
      exact (h.woken hk hn).imp id (fun hw => waking_other (p := p) hw rfl rfl (by simp [hp]))
  case h_2 hp =>
    split
    · refine h.produce (p := p) rfl rfl rfl rfl id nofun (fun q hq => mem_cons.mp hq) nofun .inl ?_
      intro hk hn
      exact (h.woken hk hn).imp id (fun hw => waking_other (p := p) hw rfl rfl (by simp [hp]))
    · refine h.produce (p := p) rfl rfl rfl rfl id nofun (fun q hq => .inr hq) nofun .inl ?_
      intro hk hn
      exact (h.woken hk hn).imp id (fun hw => waking_other (p := p) hw rfl rfl (by simp [hp]))
  case h_3 => exact h
  case h_4 c hp => exact h.call hp

end Inv

end Machine

end Turnloop.Notify
