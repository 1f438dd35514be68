import Turnloop.Sql.Ledger

/-! What each call of a pool leaves. -/

namespace Turnloop.Sql

open Lib PoolEvent List

namespace Pool

variable {p p' : Pool} {i : ℕ} {s : Slot} {id : ConnectionId}
variable {closes : Pool → Slot → Option (List PoolEvent)} {r : Request} {now token t horizon : ℕ}

lemma slot_eq_ok : p.slot id = .ok s ↔ p.slots[id.slot]? = some s ∧ s.generation = id.generation ∧
    s.state.isEmpty = false := by
  unfold slot
  cases hs : p.slots[id.slot]? with
  | none => simp
  | some t =>
    by_cases hb : (decide (t.generation ≠ id.generation) || t.state.isEmpty) = true
    · simp only [hb, if_true, reduceCtorEq, Option.some.injEq, false_iff]
      rintro ⟨rfl, hg, he⟩
      simp [hg, he] at hb
    · simp only [hb, Bool.false_eq_true, if_false, Except.ok.injEq, Option.some.injEq]
      refine ⟨?_, fun h => h.1⟩
      rintro rfl
      simpa using hb

structure Closes (gone : Multiset ℕ) (s : Slot) (told : List PoolEvent) : Prop where
  nonempty : s.state.isEmpty = false
  silent : .ended ∉ told
  books : (s.connecting.toList : Multiset ℕ) = gone + settled told

lemma visit_cases (closes : Pool → Slot → Option (List PoolEvent)) (p : Pool) (i : ℕ) :
    (visit closes p i = p ∧ ∀ s, p.slots[i]? = some s → closes p s = none) ∨
    ∃ s told, p.slots[i]? = some s ∧ closes p s = some told ∧ visit closes p i = (p.emit told).close (idAt i s) s := by
  unfold visit
  cases hs : p.slots[i]? with
  | none => exact .inl ⟨rfl, by simp⟩
  | some s =>
    cases hc : closes p s with
    | none => exact .inl ⟨by simp [hc], fun t ht => by rw [← Option.some.inj ht, hc]⟩
    | some told => exact .inr ⟨s, told, rfl, hc, by simp [hc]⟩

lemma close_slots (told : List PoolEvent) : ((p.emit told).close id s).slots =
    p.slots.set id.slot { s with state := .closing } := rfl

lemma visit_length (closes : Pool → Slot → Option (List PoolEvent)) : (visit closes p i).slots.length =
    p.slots.length := by
  rcases visit_cases closes p i with ⟨h, -⟩ | ⟨s, _, -, -, h⟩
  · rw [h]
  · rw [h, close_slots, length_set]

lemma visit_other (closes : Pool → Slot → Option (List PoolEvent)) (hj : j ≠ i) : (visit closes p i).slots[j]? =
    p.slots[j]? := by
  rcases visit_cases closes p i with ⟨h, -⟩ | ⟨s, _, -, -, h⟩
  · rw [h]
  · rw [h, close_slots]
    exact getElem?_set_ne hj.symm

lemma visit_self (closes : Pool → Slot → Option (List PoolEvent)) (hs : (visit closes p i).slots[i]? = some s) :
    s.state = .closing ∨ (visit closes p i = p ∧ closes p s = none) := by
  rcases visit_cases closes p i with ⟨h, hn⟩ | ⟨t, _, ht, -, h⟩
  · rw [h] at hs
    exact .inr ⟨h, hn s hs⟩
  · obtain ⟨hi, -⟩ := List.getElem?_eq_some_iff.mp ht
    rw [h, close_slots] at hs
    change (p.slots.set i _)[i]? = _ at hs
    rw [getElem?_set_self hi] at hs
    rw [← Option.some.inj hs]
    exact .inl rfl

lemma visitAll_good (good : Pool → Slot → Prop) (hl : ∀ p s, s.state = .closing → good p s)
    (hk : ∀ p s, closes p s = none → good p s)
    (ht : ∀ p i s, good p s → good (visit closes p i) s) :
    ∀ s ∈ (p.visitAll closes).slots, good (p.visitAll closes) s := by
  have hv : ∀ n, ((range n).foldl (visit closes) p).slots.length = p.slots.length ∧
      ∀ j < n, ∀ s, ((range n).foldl (visit closes) p).slots[j]? = some s →
        good ((range n).foldl (visit closes) p) s := by
    intro n
    induction n with
    | zero => exact ⟨rfl, fun j hj => absurd hj (Nat.not_lt_zero j)⟩
    | succ n ih =>
      rw [range_succ, foldl_append]
      refine ⟨(visit_length closes).trans ih.1, fun j hj s hs => ?_⟩
      rcases eq_or_ne j n with rfl | hn
      · rcases visit_self closes hs with hc | ⟨-, ho⟩
        · exact hl _ s hc
        · exact ht _ j s (hk _ s ho)
      · exact ht _ n s (ih.2 j (by omega) s ((visit_other closes hn).symm.trans hs))
  intro s hs
  obtain ⟨hb, ha⟩ := hv p.slots.length
  obtain ⟨j, hj, rfl⟩ := mem_iff_getElem.mp hs
  exact ha j (hb ▸ hj) _ (getElem?_eq_getElem hj)

lemma visitAll_waiting (closes : Pool → Slot → Option (List PoolEvent)) (p : Pool) : (p.visitAll closes).waiting =
    p.waiting := by
  unfold visitAll
  induction range p.slots.length generalizing p with
  | nil => rfl
  | cons i is ih =>
    refine (ih _).trans ?_
    rcases visit_cases closes p i with ⟨h, -⟩ | ⟨s, _, -, -, h⟩ <;> rw [h]
    rfl

lemma visit_kept (hl : ∀ p s told, closes p s = some told → Closes 0 s told) : Kept 0 0 p (visit closes p i) := by
  rcases visit_cases closes p i with ⟨h, -⟩ | ⟨s, told, hs, hc, h⟩
  · rw [h]
    exact .refl p
  · rw [h]
    have hc := hl p s told hc
    exact close_kept (idAt i s) hs rfl hc.nonempty told hc.silent hc.books (Multiset.zero_le _)

lemma visitAll_kept (hc : ∀ p s told, closes p s = some told → Closes 0 s told) (p : Pool) :
    Kept 0 0 p (p.visitAll closes) := by
  unfold visitAll
  induction range p.slots.length generalizing p with
  | nil => exact .refl p
  | cons i is ih => exact (visit_kept hc).andThen (ih _)

structure Cancelling (token : ℕ) (p p' : Pool) : Prop where
  kept : ∃ gone, Kept gone 0 p p' ∧ p.pending = gone + p'.pending ∧ ∀ t ∈ gone, t = token

lemma Cancelling.trans (h : Cancelling token p p') (h' : Cancelling token p' p'') : Cancelling token p p'' := by
  obtain ⟨gone, hk, hb, ha⟩ := h.kept
  obtain ⟨gone', hk', hb', ha'⟩ := h'.kept
  refine ⟨gone + gone', ?_, ?_, ?_⟩
  · have hr := hk.trans hk'
    rwa [add_zero] at hr
  · rw [hb, hb', add_assoc]
  · intro t ht
    rcases Multiset.mem_add.mp ht with ht | ht
    · exact ha t ht
    · exact ha' t ht

lemma close_pending (id : ConnectionId) (hs : p.slots[id.slot]? = some s) (told : List PoolEvent) :
    p.pending = (s.connecting.toList : Multiset ℕ) + ((p.emit told).close id s).pending := by
  have he := coe_filterMap_set Slot.connecting hs { s with state := .closing }
  change _ = _ + 0 at he
  rw [add_zero] at he
  change (p.waitingTokens : Multiset ℕ) + (p.slots.filterMap Slot.connecting : Multiset ℕ) =
    _ + ((p.waitingTokens : Multiset ℕ) + ((p.slots.set id.slot _).filterMap Slot.connecting : Multiset ℕ))
  rw [← he]
  abel

lemma cancels_some (h : cancels token s = some told) :
    told = [] ∧ s.connecting = some token ∧ s.state.isEmpty = false := by
  unfold cancels at h
  cases hs : s.state with
  | connecting =>
    simp only [hs] at h
    split_ifs at h with hn
    exact ⟨(Option.some.inj h).symm, by simp [Slot.connecting, hs, hn], by simp [SlotState.isEmpty]⟩
  | _ => simp [hs] at h

lemma cancel_visit {token : ℕ} {p : Pool} {i : ℕ} : Cancelling token p (visit (fun _ => cancels token) p i) := by
  rcases visit_cases (fun _ => cancels token) p i with ⟨h, -⟩ | ⟨s, _, hs, hc, h⟩
  · rw [h]
    exact ⟨0, .refl p, by simp, by simp⟩
  · obtain ⟨rfl, ho, he⟩ := cancels_some hc
    rw [h]
    refine ⟨{token}, ?_, ?_, by simp⟩
    · refine close_kept (idAt i s) hs rfl he [] (by simp) ?_ (Multiset.zero_le _)
      rw [ho]
      rfl
    · have hp := close_pending (idAt i s) hs []
      rwa [ho] at hp

lemma cancel_visitAll (token : ℕ) (p : Pool) : Cancelling token p (p.visitAll fun _ => cancels token) := by
  unfold visitAll
  induction range p.slots.length generalizing p with
  | nil => exact ⟨0, .refl p, by simp, by simp⟩
  | cons i is ih => exact cancel_visit.trans (ih _)

lemma cancel_visitAll_absent : token ∉ (p.visitAll fun _ => cancels token).connectingTokens := by
  have hg : ∀ s ∈ (p.visitAll fun _ => cancels token).slots, s.connecting ≠ some token := by
    refine visitAll_good (fun _ s => s.connecting ≠ some token) (fun _ s hs => ?_) (fun _ s hs => ?_)
      fun _ _ _ h => h
    · simp [Slot.connecting, hs]
    · unfold cancels at hs
      unfold Slot.connecting
      cases he : s.state <;> simp_all
  intro hm
  obtain ⟨s, hs, hs'⟩ := mem_filterMap.mp hm
  exact hg s hs hs'

lemma unqueued_cancelling (token : ℕ) (p : Pool) : Cancelling token p (p.unqueued token) := by
  unfold unqueued
  cases hi : p.waiting.findIdx? (fun r => r.token = token) with
  | none => exact ⟨0, .refl p, by simp, by simp⟩
  | some i =>
    obtain ⟨hl, hn, -⟩ := findIdx?_eq_some_iff_getElem.mp hi
    have hk : (p.waitingTokens : Multiset ℕ) = {token} + ((p.waiting.eraseIdx i).map Request.token : List ℕ) := by
      rw [waitingTokens, coe_map_eq_cons Request.token hl, of_decide_eq_true hn, Multiset.singleton_add]
    have hp : p.pending = {token} + (p.withWaiting (p.waiting.eraseIdx i)).pending := by
      rw [pending, hk, add_assoc]
      rfl
    refine ⟨{token}, ⟨⟨rfl, rfl, rfl, ⟨[], by simp [withWaiting], by simp, ?_, ?_⟩, fun h => ?_⟩, fun _ => rfl⟩, hp,
      by simp⟩
    · rw [hp]
      exact (add_zero _).symm
    · rw [zero_add]
      exact le_add_right le_rfl
    · refine ⟨h.size, h.once, h.listed, fun he => ?_⟩
      simp [withWaiting, h.dismissed he]

lemma unqueued_absent (hd : p.pending.Nodup) : token ∉ (p.unqueued token).waitingTokens := by
  unfold unqueued
  cases hi : p.waiting.findIdx? (fun r => r.token = token) with
  | none =>
    rw [findIdx?_eq_none_iff] at hi
    intro hm
    obtain ⟨r, hr, hr'⟩ := mem_map.mp hm
    simpa [hr'] using hi r hr
  | some =>
    obtain ⟨hl, hn, -⟩ := findIdx?_eq_some_iff_getElem.mp hi
    have hp : (p.waitingTokens : Multiset ℕ).Nodup := Multiset.nodup_of_le (le_add_right le_rfl) hd
    rw [waitingTokens, coe_map_eq_cons Request.token hl, of_decide_eq_true hn, Multiset.nodup_cons] at hp
    exact fun hm => hp.1 hm

lemma cancelled_eq (hd : p.pending.Nodup) (hs : p.pending = gone + p'.pending) (ha : ∀ t ∈ gone, t = token)
    (hb : token ∉ p'.pending) :
    gone = if token ∈ p.pending then {token} else 0 := by
  have hg : gone.Nodup := Multiset.nodup_of_le (hs ▸ le_add_right le_rfl) hd
  have hm : token ∈ gone ↔ token ∈ p.pending := by
    rw [hs, Multiset.mem_add]
    exact (or_iff_left hb).symm
  split_ifs with hi
  · refine (Multiset.Nodup.ext hg (Multiset.nodup_singleton _)).mpr fun t => ?_
    rw [Multiset.mem_singleton]
    exact ⟨ha t, fun ht => ht ▸ hm.mpr hi⟩
  · refine Multiset.eq_zero_of_forall_notMem fun t ht => ?_
    exact hi (hm.mp (ha t ht ▸ ht))

lemma cancelCheckout_kept (h : Sound p) (hd : p.pending.Nodup) (token now : ℕ) :
    Kept (if token ∈ p.pending then {token} else 0) 0 p (p.cancelCheckout token now) := by
  obtain ⟨_, hk, hs, ha⟩ := ((unqueued_cancelling token p).trans (cancel_visitAll token _)).kept
  have hb : token ∉ ((p.unqueued token).visitAll fun _ => cancels token).pending := by
    rw [pending, Multiset.mem_add, not_or]
    refine ⟨?_, cancel_visitAll_absent⟩
    rw [waitingTokens, visitAll_waiting]
    exact unqueued_absent hd
  have hg := cancelled_eq hd hs ha hb
  rw [hg] at hk
  exact hk.andThen (schedule_kept now (hk.sound h))

lemma expire_kept (now : ℕ) (p : Pool) : Kept 0 0 p (p.expire now) := by
  have hs : settled ((p.waiting.filter fun r => r.due now).map fun r => r.fail .timeout) =
      ((p.waiting.filter fun r => r.due now).map Request.token : List ℕ) := by
    rw [settled, filterMap_map]
    congr 1
    exact congrFun (filterMap_eq_map (f := Request.token)) _
  have hp : (p.waitingTokens : Multiset ℕ) = ((p.waiting.filter fun r => !r.due now).map Request.token : List ℕ) +
      ((p.waiting.filter fun r => r.due now).map Request.token : List ℕ) := by
    rw [Multiset.coe_add, ← map_append, Multiset.coe_eq_coe]
    exact (((perm_append_comm).trans (filter_append_perm _ p.waiting)).map _).symm
  refine ⟨⟨rfl, rfl, rfl, ⟨_, rfl, by simp [Request.fail], ?_, ?_⟩, fun h => ?_⟩, fun _ => rfl⟩
  · rw [hs, pending, hp, zero_add]
    change _ = ((p.waiting.filter fun r => !r.due now).map Request.token : Multiset ℕ) + p.connectingTokens + _
    abel
  · rw [zero_add]
    exact le_add_right le_rfl
  · refine ⟨h.size, h.once, h.listed, fun he => ?_⟩
    simp [expire, withWaiting, emit, h.dismissed he]

lemma Closes.request (hs : s.state = .connecting r) : Closes 0 s [r.fail e] :=
  ⟨by simp [hs, SlotState.isEmpty],
    by simp [Request.fail], by simp [Slot.connecting, hs, settled, Request.fail, settles]⟩

lemma Closes.calm (hc : s.connecting = none) (he : s.state.isEmpty = false) : Closes 0 s [] :=
  ⟨he, by simp, by simp [hc, settled]⟩

lemma timesOut_closes (now : ℕ) (p : Pool) (s : Slot) (told : List PoolEvent) (h : timesOut now p s = some told) :
    Closes 0 s told := by
  unfold timesOut at h
  cases hs : s.state with
  | connecting =>
    simp only [hs] at h
    split_ifs at h
    cases h
    exact .request hs
  | idle =>
    simp only [hs] at h
    split_ifs at h
    cases h
    exact .calm (by simp [Slot.connecting, hs]) (by simp [hs, SlotState.isEmpty])
  | _ => simp [hs] at h

structure Quiet (now : ℕ) (p : Pool) : Prop where
  waiting : ∀ r ∈ p.waiting, r.due now = false
  slots : ∀ s ∈ p.slots, timesOut now p s = none

lemma handleTimeout_kept (h : Sound p) (now : ℕ) : Kept 0 0 p (p.handleTimeout now) := by
  have hk := (expire_kept now p).andThen (visitAll_kept (timesOut_closes now) _)
  exact hk.andThen (schedule_kept now (hk.sound h))

lemma due_of_le (hr : r.due now = false) (ht : r.deadline = some t) : now < t := by
  simpa [Request.due, ht] using hr

lemma outlived_of_le (h : outlived limit start now = false)
    (ht : (limit.filter (· ≠ 0)).bind (checkedAdd horizon start) = some t) : now < t := by
  obtain ⟨d, hd, ha⟩ := Option.bind_eq_some_iff.mp ht
  obtain ⟨rfl, hn⟩ := Option.filter_eq_some_iff.mp hd
  unfold checkedAdd at ha
  split_ifs at ha
  have hl : ¬d ≤ now - start := by simpa [outlived, of_decide_eq_true hn] using h
  have hp : d ≠ 0 := of_decide_eq_true hn
  rw [← Option.some.inj ha]
  omega

lemma slotTimeout_later (hs : timesOut now p s = none) (ht : p.slotTimeout horizon s = some t) : now < t := by
  unfold slotTimeout at ht
  unfold timesOut at hs
  cases he : s.state with
  | connecting =>
    simp only [he, ite_eq_right_iff, reduceCtorEq, imp_false, Bool.not_eq_true] at hs ht
    exact due_of_le hs ht
  | idle =>
    simp only [he, ite_eq_right_iff, reduceCtorEq, imp_false, Bool.not_eq_true, Bool.or_eq_false_iff] at hs ht
    rcases mem_append.mp (min?_mem ht) with hm | hm
    · rw [Option.mem_toList] at hm
      split_ifs at hm with hl
      refine outlived_of_le ?_ hm
      simpa [hl] using hs.1
    · exact outlived_of_le hs.2 (Option.mem_toList.mp hm)
  | _ => simp [he] at ht

lemma Quiet.later (hq : Quiet now p) (ht : p.nextTimeout horizon = some t) : now < t := by
  rcases mem_append.mp (min?_mem ht) with hm | hm
  · obtain ⟨r, hr, hr'⟩ := mem_filterMap.mp hm
    exact due_of_le (hq.waiting r hr) hr'
  · obtain ⟨s, hs, hs'⟩ := mem_filterMap.mp hm
    exact slotTimeout_later (hq.slots s hs) hs'

lemma vacate_booked (hs : p.slots[id.slot]? = some s) (he : s.state.isIdle = false) (told : List PoolEvent)
    (hl : .ended ∉ told) (hb : (s.connecting.toList : Multiset ℕ) = settled told) :
    Booked 0 0 p ((p.withSlot id.slot { s with state := .empty }).emit (told ++ [PoolEvent.removed id])) := by
  obtain ⟨hi, _⟩ := List.getElem?_eq_some_iff.mp hs
  refine change_booked hs (by simp [hl]) (fun h => ⟨h.once, fun id' => ?_⟩) (fun h => h) ?_ ?_ ?_
  · change id' ∈ p.idle ↔ _
    rw [h.listed id', idleAt_set hs]
    by_cases hc : id'.slot = id.slot
    · rw [if_pos hc]
      refine iff_of_false ?_ (by simp [SlotState.isIdle])
      rintro ⟨t, ht, -, hi'⟩
      rw [hc, hs] at ht
      rw [← Option.some.inj ht, he] at hi'
      cases hi'
    · rw [if_neg hc]
  · have hr : settled [.removed id] = 0 := rfl
    rw [hb, settled_append, hr]
    change _ = 0 + ((p.waitingTokens : Multiset ℕ) + 0) + (settled told + 0)
    abel
  · exact Multiset.zero_le _
  · rw [countP_set hi]
    simp [SlotState.isEmpty, totalCount]

lemma dismissed_logged (p : Pool) : Logged 0 0 p p.dismissed := by
  have he : settled (p.waiting.map fun r => r.fail .closed) = p.waitingTokens := by
    rw [settled, filterMap_map]
    congr 1
    exact congrFun (filterMap_eq_map (f := Request.token)) _
  refine ⟨_, rfl, by simp [Request.fail], ?_, ?_⟩
  · rw [he, pending, zero_add]
    abel
  · rw [zero_add]
    exact le_add_right le_rfl

lemma dismissed_sound (h : Sound p) : Sound p.dismissed := { h with dismissed := fun _ => rfl }

lemma ends_closes (mysql : Bool) (_ : Pool) (s : Slot) (told : List PoolEvent) (h : ends mysql s = some told) :
    Closes 0 s told := by
  unfold ends at h
  cases hs : s.state with
  | connecting =>
    simp only [hs] at h
    cases h
    exact .request hs
  | idle =>
    simp only [hs] at h
    cases h
    exact .calm (by simp [Slot.connecting, hs]) (by simp [hs, SlotState.isEmpty])
  | busy =>
    simp only [hs] at h
    split_ifs at h
    cases h
    exact .calm (by simp [Slot.connecting, hs]) (by simp [hs, SlotState.isEmpty])
  | _ => simp [hs] at h

lemma change_driven (hs : p.slots[i]? = some s) (he : s.state.isEmpty = false)
    (he' : s'.state.isEmpty = false) {idle : List ConnectionId} {new : List PoolEvent} (hi : p.idle = [] → idle = [])
    (hd : Driven p) : Driven (p.change i s' idle p.waiting new) := by
  intro hn hw
  obtain ⟨hl, hm⟩ := hd hn hw
  exact ⟨hi hl, hm.trans (totalCount_set hs (he.trans he'.symm)).ge⟩

lemma close_driven (id : ConnectionId) (hs : p.slots[id.slot]? = some s) (he : s.state.isEmpty = false)
    (told : List PoolEvent) (hd : Driven p) : Driven ((p.emit told).close id s) := by
  rw [emit_close]
  exact change_driven hs he rfl (fun h => by simp [h]) hd

lemma visitAll_vacant (hl : ∀ p s told, closes p s = some told → s.state.isEmpty = false)
    (hp : ∀ s ∈ p.slots, s.state.isEmpty = true) : p.visitAll closes = p := by
  unfold visitAll
  induction range p.slots.length with
  | nil => rfl
  | cons i is ih =>
    have he : visit closes p i = p := by
      rcases visit_cases closes p i with ⟨h, -⟩ | ⟨s, told, hs, hc, -⟩
      · exact h
      · exact absurd (hl p s told hc) (by simp [hp s (mem_of_getElem? hs)])
    rw [foldl_cons, he]
    exact ih

lemma slots_vacant (h : p.totalCount = 0) : ∀ s ∈ p.slots, s.state.isEmpty = true := by
  intro s hs
  simpa using (countP_eq_zero.mp h) s hs

lemma cancelCheckout_vacant (he : p.ending = true) (hw : p.waiting = []) (h : p.totalCount = 0) (token now : ℕ) :
    p.cancelCheckout token now = p := by
  have hq : p.unqueued token = p := by simp [unqueued, hw]
  rw [cancelCheckout, hq, visitAll_vacant (fun _ s told hc => (cancels_some hc).2.2) (slots_vacant h),
    schedule, if_pos he]

lemma handleTimeout_vacant (he : p.ending = true) (hw : p.waiting = []) (h : p.totalCount = 0) (now : ℕ) :
    p.handleTimeout now = p := by
  have hq : p.expire now = p := by
    cases p
    simp_all [expire, withWaiting, emit]
  rw [handleTimeout, hq, visitAll_vacant (fun p s told hc => (timesOut_closes now p s told hc).nonempty)
    (slots_vacant h), schedule, if_pos he]

lemma pending_vacant (hw : p.waiting = []) (h : p.totalCount = 0) : p.pending = 0 := by
  have hn : p.connectingTokens = [] := by
    refine filterMap_eq_nil_iff.mpr fun s hs => ?_
    have he := slots_vacant h s hs
    unfold Slot.connecting
    cases ht : s.state <;> simp_all [SlotState.isEmpty]
  rw [pending, waitingTokens, hw, hn]
  rfl

lemma knows_of_pending (h : token ∈ p.pending) : p.knows token = true := by
  rw [knows, Bool.or_eq_true, any_eq_true, any_eq_true]
  rcases Multiset.mem_add.mp h with h | h
  · obtain ⟨r, hr, hr'⟩ := mem_map.mp h
    exact .inl ⟨r, hr, by simpa using hr'⟩
  · obtain ⟨s, hs, hs'⟩ := mem_filterMap.mp h
    refine .inr ⟨s, hs, ?_⟩
    unfold Slot.connecting at hs'
    cases he : s.state <;> simp_all [SlotState.holds]

end Pool

end Turnloop.Sql
