import Turnloop.Lib.Bag
import Turnloop.Sql.Pool

/-! The books of a pool: checkouts that wait, those a connection is opened for, and the answers given. -/

namespace Turnloop.Sql

open Lib List Multiset

namespace PoolEvent

def settles : PoolEvent → Option ℕ
  | .acquired lease => some lease.token
  | .checkoutFailed token _ => some token
  | _ => none

def acquires : PoolEvent → Option ℕ
  | .acquired lease => some lease.token
  | _ => none

end PoolEvent

open PoolEvent

def settled (log : List PoolEvent) : Multiset ℕ := log.filterMap settles

def acquired (log : List PoolEvent) : Multiset ℕ := log.filterMap acquires

@[simp] lemma settled_append (log new : List PoolEvent) : settled (log ++ new) = settled log + settled new := by
  simp [settled]

@[simp] lemma acquired_append (log new : List PoolEvent) : acquired (log ++ new) = acquired log + acquired new := by
  simp [acquired]

namespace Slot

def connecting (s : Slot) : Option ℕ :=
  match s.state with
  | .connecting r => some r.token
  | _ => none

def busy (s : Slot) : Option ℕ :=
  match s.state with
  | .busy token => some token
  | _ => none

end Slot

namespace Pool

variable {p p' p'' : Pool} {i : ℕ} {s s' : Slot} {gone back gone' back' : Multiset ℕ} {id : ConnectionId} {r : Request}

def connectingTokens (p : Pool) : List ℕ := p.slots.filterMap Slot.connecting

def waitingTokens (p : Pool) : List ℕ := p.waiting.map Request.token

def pending (p : Pool) : Multiset ℕ := p.waitingTokens + p.connectingTokens

def busy (p : Pool) : Multiset ℕ := p.slots.filterMap Slot.busy

def IdleAt (slots : List Slot) (id : ConnectionId) : Prop :=
  ∃ s, slots[id.slot]? = some s ∧ s.generation = id.generation ∧ s.state.isIdle = true

lemma idleAt_set {slots : List Slot} (hs : slots[i]? = some s) (s' : Slot) (id : ConnectionId) :
    IdleAt (slots.set i s') id ↔
      if id.slot = i then s'.generation = id.generation ∧ s'.state.isIdle = true else IdleAt slots id := by
  obtain ⟨hi, -⟩ := List.getElem?_eq_some_iff.mp hs
  unfold IdleAt
  rw [getElem?_set]
  by_cases hd : id.slot = i
  · rw [if_pos hd, if_pos hd.symm, if_pos (hd ▸ hi)]
    constructor
    · rintro ⟨t, ht, _⟩
      rwa [Option.some.inj ht]
    · exact fun h => ⟨s', rfl, h⟩
  · rw [if_neg hd, if_neg (Ne.symm hd)]

structure Sound (p : Pool) : Prop where
  size : p.totalCount ≤ p.config.max
  once : p.idle.Nodup
  listed : ∀ id, id ∈ p.idle ↔ IdleAt p.slots id
  dismissed : p.ending = true → p.waiting = []

/-- What is told of a change that cancels the checkouts in `gone` and checks in the leases of those in `back`. -/
def Logged (gone back : Multiset ℕ) (p p' : Pool) : Prop :=
  ∃ new, p'.events = p.events ++ new ∧ .ended ∉ new ∧ p.pending = gone + p'.pending + settled new ∧
    back + p'.busy ≤ p.busy + acquired new

structure Booked (gone back : Multiset ℕ) (p p' : Pool) : Prop where
  config : p'.config = p.config
  ending : p'.ending = p.ending
  ended : p'.ended = p.ended
  log : Logged gone back p p'
  sound : Sound p → Sound p'

structure Kept (gone back : Multiset ℕ) (p p' : Pool) : Prop extends Booked gone back p p' where
  total : p.ending = true → p'.totalCount = p.totalCount

lemma Logged.trans (h : Logged gone back p p') (h' : Logged gone' back' p' p'') :
    Logged (gone + gone') (back + back') p p'' := by
  obtain ⟨new, hnw, he, hbk, hby⟩ := h
  obtain ⟨new', hn', he', hb', hu'⟩ := h'
  refine ⟨new ++ new', ?_, ?_, ?_, ?_⟩
  · rw [hn', hnw, append_assoc]
  · rw [mem_append]
    exact fun hm => hm.elim he he'
  · rw [hbk, hb', settled_append]
    abel
  · calc back + back' + p''.busy
      _ = back + (back' + p''.busy) := add_assoc _ _ _
      _ ≤ back + (p'.busy + acquired new') := add_le_add_right hu' _
      _ = (back + p'.busy) + acquired new' := (add_assoc _ _ _).symm
      _ ≤ (p.busy + acquired new) + acquired new' := add_le_add_left hby _
      _ = p.busy + acquired (new ++ new') := by rw [acquired_append, add_assoc]

lemma Booked.trans (h : Booked gone back p p') (h' : Booked gone' back' p' p'') :
    Booked (gone + gone') (back + back') p p'' :=
  ⟨h'.config.trans h.config, h'.ending.trans h.ending, h'.ended.trans h.ended, h.log.trans h'.log,
    fun hs => h'.sound (h.sound hs)⟩

namespace Kept

lemma refl (p : Pool) : Kept 0 0 p p :=
  ⟨⟨rfl, rfl, rfl, ⟨[], by simp, by simp, by simp [settled], by simp [acquired]⟩, fun h => h⟩, fun _ => rfl⟩

lemma trans (h : Kept gone back p p') (h' : Kept gone' back' p' p'') : Kept (gone + gone') (back + back') p p'' :=
  ⟨h.toBooked.trans h'.toBooked, fun he => (h'.total (h.ending.trans he)).trans (h.total he)⟩

lemma andThen (h : Kept gone back p p') (h' : Kept 0 0 p' p'') : Kept gone back p p'' := by
  have hk := h.trans h'
  rwa [add_zero, add_zero] at hk

lemma unwait (before after : List Request) (hw : p.waiting = before ++ r :: after) (error : PoolError) :
    Kept 0 0 p ((p.withWaiting (before ++ after)).emit [r.fail error]) := by
  refine ⟨⟨rfl, rfl, rfl, ⟨[r.fail error], rfl, by simp [Request.fail], ?_, ?_⟩, fun h => ?_⟩, fun _ => rfl⟩
  · have hk : (p.waitingTokens : Multiset ℕ) = ↑((before ++ after).map Request.token) + {r.token} := by
      rw [waitingTokens, hw, ← coe_singleton, coe_add, coe_eq_coe]
      simpa using (perm_middle (a := r.token)).trans (perm_append_singleton r.token _).symm
    rw [pending, hk, zero_add]
    change _ = ((before ++ after).map Request.token : Multiset ℕ) + p.connectingTokens + {r.token}
    abel
  · rw [zero_add]
    exact le_add_right le_rfl
  · refine ⟨h.size, h.once, h.listed, fun he => ?_⟩
    have hn := h.dismissed he
    rw [hw] at hn
    simp at hn

end Kept

def change (p : Pool) (i : ℕ) (s : Slot) (idle : List ConnectionId) (waiting : List Request)
    (new : List PoolEvent) : Pool :=
  { p with slots := p.slots.set i s, idle := idle, waiting := waiting, events := p.events ++ new }

lemma totalCount_set (hs : p.slots[i]? = some s) (he : s.state.isEmpty = s'.state.isEmpty) :
    (p.slots.set i s').countP (fun s => !s.state.isEmpty) = p.totalCount := by
  obtain ⟨hi, rfl⟩ := List.getElem?_eq_some_iff.mp hs
  rw [countP_set hi, he, totalCount]
  by_cases hm : (!s'.state.isEmpty) = true
  · rw [if_pos hm]
    refine Nat.sub_add_cancel (countP_pos_iff.mpr ⟨p.slots[i], getElem_mem hi, ?_⟩)
    rwa [he]
  · rw [if_neg hm, Nat.sub_zero, Nat.add_zero]

section

variable {idle : List ConnectionId} {waiting : List Request} {new : List PoolEvent} (hs : p.slots[i]? = some s)
    (hnw : .ended ∉ new)
  (hid : Sound p → idle.Nodup ∧ ∀ id, id ∈ idle ↔ IdleAt (p.slots.set i s') id) (hwt : p.waiting = [] → waiting = [])
  (hbk : (p.waitingTokens : Multiset ℕ) + (s.connecting.toList : Multiset ℕ) =
    gone + ((waiting.map Request.token : List ℕ) + (s'.connecting.toList : Multiset ℕ)) + settled new)
  (hby : back + (s'.busy.toList : Multiset ℕ) ≤ (s.busy.toList : Multiset ℕ) + acquired new)
include hs hnw hid hwt hbk hby

lemma change_booked (hi : (p.slots.set i s').countP (fun s => !s.state.isEmpty) ≤ p.totalCount) :
    Booked gone back p (p.change i s' idle waiting new) := by
  have hc := coe_filterMap_set Slot.connecting hs s'
  have hb' := coe_filterMap_set Slot.busy hs s'
  refine ⟨rfl, rfl, rfl, ⟨new, rfl, hnw, ?_, ?_⟩, fun h => ?_⟩
  · refine add_right_cancel (b := (s.connecting.toList : Multiset ℕ)) ?_
    change (p.waitingTokens : Multiset ℕ) + p.connectingTokens + _ =
      gone + ((waiting.map Request.token : List ℕ) +
        ((p.slots.set i s').filterMap Slot.connecting : Multiset ℕ)) + settled new + _
    calc (p.waitingTokens : Multiset ℕ) + p.connectingTokens + (s.connecting.toList : Multiset ℕ)
      _ = ((p.waitingTokens : Multiset ℕ) + (s.connecting.toList : Multiset ℕ)) + p.connectingTokens := by abel
      _ = gone + (waiting.map Request.token : List ℕ) + settled new +
        (p.connectingTokens + (s'.connecting.toList : Multiset ℕ)) := by
        rw [hbk]
        abel
      _ = _ := by
        rw [connectingTokens, ← hc]
        abel
  · refine le_of_add_le_add_right (a := (s.busy.toList : Multiset ℕ)) ?_
    change back + ((p.slots.set i s').filterMap Slot.busy : Multiset ℕ) + _ ≤ _
    rw [add_assoc, hb', add_left_comm, add_assoc, add_comm (acquired new)]
    exact add_le_add_right hby _
  · obtain ⟨ho, hl⟩ := hid h
    exact ⟨hi.trans h.size, ho, hl, fun he => hwt (h.dismissed he)⟩

lemma change_kept (he : s.state.isEmpty = false) (he' : s'.state.isEmpty = false) :
    Kept gone back p (p.change i s' idle waiting new) := by
  have ht := totalCount_set hs (he.trans he'.symm)
  exact ⟨change_booked hs hnw hid hwt hbk hby ht.le, fun _ => ht⟩

end

lemma emit_close (id : ConnectionId) (s : Slot) (told : List PoolEvent) : (p.emit told).close id s =
    p.change id.slot { s with state := .closing } (p.idle.filter (· ≠ id)) p.waiting
      (told ++ [PoolEvent.close id]) := by
  simp [close, change, emit, withSlot, withIdle, append_assoc]

lemma close_kept (id : ConnectionId) (hs : p.slots[id.slot]? = some s) (hg : s.generation = id.generation)
    (he : s.state.isEmpty = false) (told : List PoolEvent) (hl : .ended ∉ told)
    (ho : (s.connecting.toList : Multiset ℕ) = gone + settled told) (hb : back ≤ (s.busy.toList : Multiset ℕ)) :
    Kept gone back p ((p.emit told).close id s) := by
  rw [emit_close]
  refine change_kept hs (by simp [hl]) (fun h => ⟨h.once.filter _, fun id' => ?_⟩) (fun h => h) ?_ ?_ he rfl
  · rw [idleAt_set hs, mem_filter, h.listed id']
    by_cases hd : id'.slot = id.slot
    · rw [if_pos hd]
      refine iff_of_false ?_ (by simp [SlotState.isIdle])
      rintro ⟨⟨t, ht, hg', -⟩, _⟩
      rw [hd, hs] at ht
      rw [← Option.some.inj ht, hg] at hg'
      cases id
      cases id'
      simp_all
    · rw [if_neg hd]
      refine and_iff_left ?_
      simpa using fun h => hd (congrArg ConnectionId.slot h)
  · have hf : settled [.close id] = 0 := rfl
    rw [ho, settled_append, hf]
    change _ = gone + ((p.waitingTokens : Multiset ℕ) + 0) + (settled told + 0)
    abel
  · change back + 0 ≤ _
    rw [add_zero]
    exact hb.trans (le_add_right le_rfl)

lemma serve_kept (h : Sound p) {rest : List Request} (hw : p.waiting = r :: rest)
    (hi : p.idle.getLast? = some id) (hs : p.slots[id.slot]? = some s) :
    Kept 0 0 p ((p.withWaiting rest).serve r id s) := by
  obtain ⟨idle, hid⟩ := getLast?_eq_some_iff.mp hi
  obtain ⟨t, ht, hg, _⟩ := (h.listed id).mp (mem_of_getLast? hi)
  obtain rfl : s = t := Option.some.inj (hs.symm.trans ht)
  have he : s.state.isEmpty = false := by cases hs : s.state <;> simp_all [SlotState.isIdle, SlotState.isEmpty]
  have hc : s.connecting = none := by
    unfold Slot.connecting
    cases hs : s.state <;> simp_all [SlotState.isIdle]
  have ho := h.once
  rw [hid] at ho
  obtain ⟨hn, -, hf⟩ := nodup_append.mp ho
  have hh : (p.withWaiting rest).serve r id s =
      p.change id.slot { s with state := .busy r.token, uses := s.uses + 1 } idle rest [.acquired ⟨id, r.token⟩] := by
    simp [serve, change, emit, withSlot, withIdle, withWaiting, hid]
  rw [hh]
  refine change_kept hs (by simp) (fun _ => ⟨hn, fun id' => ?_⟩) (by simp [hw]) ?_ ?_ he rfl
  · rw [idleAt_set hs]
    by_cases hl : id'.slot = id.slot
    · rw [if_pos hl]
      refine iff_of_false (fun hm => ?_) (by simp [SlotState.isIdle])
      obtain ⟨t, ht, hg', -⟩ := (h.listed id').mp (by rw [hid]; exact mem_append_left _ hm)
      rw [hl, hs] at ht
      rw [← Option.some.inj ht, hg] at hg'
      refine hf id' hm id (by simp) ?_
      cases id
      cases id'
      simp_all
    · rw [if_neg hl, ← h.listed id', hid, List.mem_append, List.mem_singleton]
      exact (or_iff_left fun h => hl (congrArg ConnectionId.slot h)).symm
  · rw [hc, waitingTokens, hw]
    change ((r.token :: rest.map Request.token : List ℕ) : Multiset ℕ) + 0 =
      0 + ((rest.map Request.token : List ℕ) + 0) + {r.token}
    rw [← cons_coe, ← singleton_add]
    abel
  · exact le_add_left le_rfl

lemma connected_kept (hs : p.slots[id.slot]? = some s) (he : s.state = .connecting r) (now : ℕ) :
    Kept 0 0 p ((p.withSlot id.slot { s with born := now, state := .busy r.token, uses := 1 }).emit
      [.connected id, .acquired ⟨id, r.token⟩]) := by
  refine change_kept hs (by simp) (fun h => ⟨h.once, fun id' => ?_⟩) (fun h => h) ?_ ?_
    (by simp [he, SlotState.isEmpty]) rfl
  · change id' ∈ p.idle ↔ _
    rw [h.listed id', idleAt_set hs]
    by_cases hl : id'.slot = id.slot
    · rw [if_pos hl]
      refine iff_of_false ?_ (by simp [SlotState.isIdle])
      rintro ⟨t, ht, -, hid⟩
      rw [hl, hs] at ht
      rw [← Option.some.inj ht, he] at hid
      cases hid
    · rw [if_neg hl]
  · have hc : s.connecting = some r.token := by rw [Slot.connecting, he]
    rw [hc]
    change _ = 0 + ((p.waitingTokens : Multiset ℕ) + 0) + _
    rw [zero_add, add_zero]
    rfl
  · exact le_add_left le_rfl

lemma rest_kept (hs : p.slots[id.slot]? = some s) (hg : s.generation = id.generation)
    (he : s.state = .busy t) (now : ℕ) : Kept 0 {t} p ((p.emit [.released id]).rest id s now) := by
  refine change_kept hs (by simp) (fun h => ?_) (fun h => h) ?_ ?_ (by simp [he, SlotState.isEmpty]) rfl
  · have ht : ∀ id' ∈ p.idle, id'.slot ≠ id.slot := by
      intro id' hi' hl
      obtain ⟨_, ht', -, hid⟩ := (h.listed id').mp hi'
      rw [hl, hs] at ht'
      rw [← Option.some.inj ht', he] at hid
      cases hid
    refine ⟨?_, fun id' => ?_⟩
    · refine List.nodup_append.mpr ⟨h.once, List.nodup_singleton _, fun a ha b hb hd => ?_⟩
      rw [List.mem_singleton.mp hb] at hd
      exact ht a ha (congrArg ConnectionId.slot hd)
    · change id' ∈ p.idle ++ [id] ↔ _
      rw [idleAt_set hs, List.mem_append, List.mem_singleton]
      by_cases hl : id'.slot = id.slot
      · rw [if_pos hl, hg, or_iff_right fun hm => ht id' hm hl]
        cases id
        cases id'
        simp_all [SlotState.isIdle, eq_comm]
      · rw [if_neg hl, h.listed id']
        exact or_iff_left fun h => hl (congrArg ConnectionId.slot h)
  · have hc : s.connecting = none := by rw [Slot.connecting, he]
    rw [hc]
    change _ = 0 + ((p.waitingTokens : Multiset ℕ) + 0) + 0
    simp
  · have hby : s.busy = some t := by rw [Slot.busy, he]
    rw [hby]
    exact le_add_right le_rfl

section

variable (now : ℕ)

lemma grown_get : ∃ s, (p.grown now)[p.vacant]? = some s ∧ s.state.isEmpty = true := by
  unfold grown
  by_cases hf : p.vacant = p.slots.length
  · rw [if_pos hf, hf]
    exact ⟨_, getElem?_concat_length, rfl⟩
  · have hl : p.vacant < p.slots.length := lt_of_le_of_ne findIdx_le_length hf
    rw [if_neg hf]
    exact ⟨_, getElem?_eq_getElem hl, findIdx_getElem (w := hl)⟩

lemma grown_filterMap {β : Type} (f : Slot → Option β) (hf : f ⟨0, .empty, now, 0⟩ = none) :
    (p.grown now).filterMap f = p.slots.filterMap f := by
  unfold grown
  split_ifs
  · rw [List.filterMap_append, List.filterMap_cons, hf, List.filterMap_nil, List.append_nil]
  · rfl

lemma grown_count : (p.grown now).countP (fun s => !s.state.isEmpty) = p.totalCount := by
  unfold grown totalCount
  split_ifs
  · simp [SlotState.isEmpty]
  · rfl

lemma idleAt_grown (id : ConnectionId) : IdleAt (p.grown now) id ↔ IdleAt p.slots id := by
  unfold grown
  split_ifs
  · unfold IdleAt
    constructor
    · rintro ⟨s, hs, hg, hid⟩
      rcases lt_or_ge id.slot p.slots.length with hl | he
      · rw [getElem?_append_left hl] at hs
        exact ⟨s, hs, hg, hid⟩
      · rw [getElem?_append_right he] at hs
        rw [List.mem_singleton.mp (List.mem_of_getElem? hs)] at hid
        cases hid
    · rintro ⟨s, hs, hr⟩
      obtain ⟨hl, -⟩ := List.getElem?_eq_some_iff.mp hs
      exact ⟨s, (getElem?_append_left hl).trans hs, hr⟩
  · rfl

lemma openSlot_total (r : Request) : (p.openSlot r now).totalCount = p.totalCount + 1 := by
  obtain ⟨s, hs, he⟩ := grown_get (p := p) now
  obtain ⟨hi, hg⟩ := List.getElem?_eq_some_iff.mp hs
  change ((p.grown now).set p.vacant _).countP (fun s => !s.state.isEmpty) = _
  rw [countP_set hi, hg, grown_count, if_neg (by rw [he]; simp), if_pos (by rfl), Nat.sub_zero]

lemma openSlot_kept {rest : List Request} (hw : p.waiting = r :: rest) (hd : p.ending = false)
    (hr : p.totalCount < p.config.max) : Kept 0 0 p ((p.withWaiting rest).openSlot r now) := by
  obtain ⟨s, hs, hm⟩ := grown_get (p := p) now
  have ha : s.state = .empty := by cases h : s.state <;> rw [h] at hm <;> first | rfl | cases hm
  refine ⟨⟨rfl, rfl, rfl, ⟨_, rfl, by simp, ?_, ?_⟩, fun h => ?_⟩, fun he => absurd (hd.symm.trans he) (by simp)⟩
  · have hc := coe_filterMap_set Slot.connecting hs ⟨p.nextGeneration now, .connecting r, now, 0⟩
    rw [grown_filterMap now _ rfl, Slot.connecting, ha] at hc
    rw [pending, waitingTokens, hw, zero_add]
    change ((r.token :: rest.map Request.token : List ℕ) : Multiset ℕ) +
      (p.slots.filterMap Slot.connecting : Multiset ℕ) =
      (rest.map Request.token : List ℕ) +
        (((p.grown now).set p.vacant
          ⟨p.nextGeneration now, .connecting r, now, 0⟩).filterMap Slot.connecting : Multiset ℕ) + 0
    change _ + 0 = _ at hc
    rw [add_zero] at hc ⊢
    rw [hc, ← cons_coe, ← singleton_add]
    change _ = (rest.map Request.token : Multiset ℕ) + (_ + {r.token})
    abel
  · have hby := coe_filterMap_set Slot.busy hs ⟨p.nextGeneration now, .connecting r, now, 0⟩
    rw [grown_filterMap now _ rfl, Slot.busy, ha] at hby
    change _ + 0 = _ + 0 at hby
    rw [add_zero, add_zero] at hby
    rw [zero_add]
    exact hby.le.trans (le_add_right le_rfl)
  · refine ⟨(openSlot_total (p := p.withWaiting rest) now r).le.trans hr, h.once, fun id => ?_, fun he => ?_⟩
    · change id ∈ p.idle ↔ IdleAt ((p.grown now).set p.vacant _) id
      rw [idleAt_set hs, h.listed id, ← idleAt_grown now]
      by_cases hl : id.slot = p.vacant
      · rw [if_pos hl]
        refine iff_of_false ?_ (by simp [SlotState.isIdle])
        rintro ⟨t, ht, -, hid⟩
        rw [hl, hs] at ht
        rw [← Option.some.inj ht, ha] at hid
        cases hid
      · rw [if_neg hl]
    · exact absurd (hd.symm.trans he) (by simp)

end

def Driven (p : Pool) : Prop :=
  p.ending = false → p.waiting ≠ [] → p.idle = [] ∧ p.config.max ≤ p.totalCount

lemma scheduleLoop_kept {now : ℕ} (h : Sound p) (he : p.ending = false) (hw : p.waiting = ws) :
    Kept 0 0 p (scheduleLoop now ws p) ∧ Driven (scheduleLoop now ws p) := by
  induction ws generalizing p with
  | nil =>
    have ha : scheduleLoop now [] p = p := by rw [scheduleLoop, ← hw, withWaiting]
    rw [ha]
    exact ⟨.refl p, fun _ hn => absurd hw hn⟩
  | cons r rest ih =>
    have ht : p.withWaiting (r :: rest) = p := by rw [← hw, withWaiting]
    have hx : ∀ {p'}, Kept 0 0 p p' → p'.waiting = rest → Kept 0 0 p (scheduleLoop now rest p') ∧
      Driven (scheduleLoop now rest p') := by
      intro p' hk hw'
      obtain ⟨hr, hd⟩ := ih (hk.sound h) (hk.ending.trans he) hw'
      exact ⟨hk.andThen hr, hd⟩
    rw [scheduleLoop]
    by_cases hu : r.due now = true
    · rw [if_pos hu]
      exact hx (.unwait [] rest hw .timeout) rfl
    · rw [if_neg hu]
      cases hi : p.idle.getLast? with
      | some id =>
        obtain ⟨s, hs, -⟩ := (h.listed id).mp (mem_of_getLast? hi)
        simp only [hs]
        exact hx (serve_kept h hw hi hs) rfl
      | none =>
        simp only
        split_ifs with hf
        · rw [ht]
          exact ⟨.refl p, fun _ _ => ⟨getLast?_eq_none_iff.mp hi, hf⟩⟩
        · exact hx (openSlot_kept now hw he (not_le.mp hf)) rfl

lemma schedule_kept (now : ℕ) (h : Sound p) : Kept 0 0 p (p.schedule now) := by
  unfold schedule
  split_ifs with he
  · exact .refl p
  · exact (scheduleLoop_kept h (Bool.eq_false_iff.mpr he) rfl).1

lemma schedule_driven (now : ℕ) (h : Sound p) : Driven (p.schedule now) := by
  unfold schedule
  split_ifs with he
  · exact fun ho => absurd (ho.symm.trans he) (by simp)
  · exact (scheduleLoop_kept h (Bool.eq_false_iff.mpr he) rfl).2

end Pool

end Turnloop.Sql
