import Turnloop.Mongodb.Pool

/-! The books of a pool: checkouts asked for and answered, connections opened and closed. -/

namespace Turnloop.Mongodb

open Lib List

variable {e : PoolEvent}

namespace PoolEvent

def settles : PoolEvent → Option ℕ
  | .checkedOut token _ => some token
  | .checkoutFailed token _ => some token
  | _ => none

def serves : PoolEvent → Option ℕ
  | .checkedOut token _ => some token
  | _ => none

def opens : PoolEvent → Option Lease
  | .connect lease => some lease
  | _ => none

def closes : PoolEvent → Option Lease
  | .close lease => some lease
  | _ => none

def about : PoolEvent → Option Lease
  | .connect lease => some lease
  | .close lease => some lease
  | .checkedOut _ lease => some lease
  | _ => none

end PoolEvent

open PoolEvent

def tokens (waiters : List Waiter) : List ℕ := waiters.map Waiter.token

def leases (entries : List Entry) : List Lease := entries.map Entry.lease

structure Ledger (accepted : List ℕ) (log : List PoolEvent) (p : Pool) : Prop where
  answered : accepted.Perm (log.filterMap settles ++ tokens p.waiters)
  inOrder : (log.filterMap serves ++ tokens p.waiters).Sublist accepted
  opened : (log.filterMap opens).Perm (leases p.entries ++ log.filterMap closes)
  numbered : ∀ l ∈ log.filterMap opens, l.id ≤ p.nextId
  distinct : ((log.filterMap opens).map Lease.id).Nodup
  closedLast : log.Pairwise fun e f => ∀ l, e = .close l → f.about ≠ some l

namespace Ledger

variable {accepted : List ℕ} {log : List PoolEvent} {p p' : Pool} {l : Lease} {w : Waiter}

lemma nodup (h : Ledger accepted log p) : (leases p.entries ++ log.filterMap closes).Nodup :=
  h.opened.nodup_iff.mp (List.Nodup.of_map _ h.distinct)

lemma open_of_mem (h : Ledger accepted log p) (hl : l ∈ leases p.entries) : l ∉ log.filterMap closes :=
  fun hc => (nodup_append.mp h.nodup).2.2 l hl l hc rfl

lemma numbered_of_closed (h : Ledger accepted log p) (hl : l ∈ log.filterMap closes) : l.id ≤ p.nextId :=
  h.numbered l (h.opened.mem_iff.mpr (mem_append_right _ hl))

lemma mem_closes (he : e ∈ log) (hl : e = .close l) : l ∈ log.filterMap closes := by
  rw [mem_filterMap]
  exact ⟨e, he, by rw [hl, closes]⟩

lemma quiet (h : Ledger accepted log p) (he : ∀ l, e.about = some l → l ∉ log.filterMap closes) :
    (log ++ [e]).Pairwise fun e f => ∀ l, e = .close l → f.about ≠ some l := by
  refine pairwise_append.mpr ⟨h.closedLast, pairwise_singleton _ _, ?_⟩
  intro a ha b hb l hl hb'
  rw [mem_singleton.mp hb] at hb'
  exact he l hb' (mem_closes ha hl)

lemma filterMap_concat {α β : Type} (f : α → Option β) (l : List α) (a : α) : (l ++ [a]).filterMap f =
    l.filterMap f ++ (f a).toList := by
  cases h : f a <;> simp [h]

variable (h : Ledger accepted log p)
include h

lemma step (e : PoolEvent) (he : (tokens p.waiters).Perm (e.settles.toList ++ tokens p'.waiters))
    (hr : (e.serves.toList ++ tokens p'.waiters).Sublist (tokens p.waiters))
    (ho : (leases p.entries ++ e.opens.toList).Perm (leases p'.entries ++ e.closes.toList))
    (hn : p.nextId ≤ p'.nextId) (hw : ∀ l, e.opens = some l → p.nextId < l.id ∧ l.id ≤ p'.nextId)
    (hc : ∀ l, e.about = some l → l ∉ log.filterMap closes) : Ledger accepted (log ++ [e]) p' := by
  refine ⟨?_, ?_, ?_, ?_, ?_, h.quiet hc⟩
  · rw [filterMap_concat, append_assoc]
    exact h.answered.trans (he.append_left _)
  · rw [filterMap_concat, append_assoc]
    exact ((List.Sublist.refl _).append hr).trans h.inOrder
  · rw [filterMap_concat, filterMap_concat]
    calc log.filterMap opens ++ e.opens.toList
      _ |>.Perm ((leases p.entries ++ log.filterMap closes) ++ e.opens.toList) := h.opened.append_right _
      _ |>.Perm ((leases p.entries ++ e.opens.toList) ++ log.filterMap closes) := by
        rw [append_assoc, append_assoc]
        exact perm_append_comm.append_left _
      _ |>.Perm ((leases p'.entries ++ e.closes.toList) ++ log.filterMap closes) := ho.append_right _
      _ |>.Perm (leases p'.entries ++ (log.filterMap closes ++ e.closes.toList)) := by
        rw [append_assoc]
        exact perm_append_comm.append_left _
  · intro l hl
    rw [filterMap_concat, mem_append, Option.mem_toList] at hl
    rcases hl with hl | hl
    · exact (h.numbered l hl).trans hn
    · exact (hw l hl).2
  · rw [filterMap_concat, map_append]
    refine nodup_append.mpr ⟨h.distinct, ?_, ?_⟩
    · cases e.opens <;> simp
    · intro a ha b hb
      obtain ⟨l, hl, rfl⟩ := mem_map.mp ha
      obtain ⟨l', hl', rfl⟩ := mem_map.mp hb
      have hd := h.numbered l hl
      have ht := (hw l' (Option.mem_toList.mp hl')).1
      omega

lemma emit (he : e.settles = none) (hr : e.serves = none)
    (ha : e.about = none) (ho : e.opens = none) (hc : e.closes = none) : Ledger accepted (log ++ [e]) p :=
  h.step e (by simp [he]) (by simp [hr]) (by simp [ho, hc]) le_rfl (by simp [ho]) (by simp [ha])

lemma same (hw : tokens p'.waiters = tokens p.waiters)
    (he : leases p'.entries = leases p.entries) (hn : p'.nextId = p.nextId) : Ledger accepted log p' := by
  refine ⟨hw ▸ h.answered, hw ▸ h.inOrder, he ▸ h.opened, hn ▸ h.numbered, h.distinct, h.closedLast⟩

lemma accept : Ledger (accepted ++ [w.token]) log (p.withWaiters (p.waiters ++ [w])) := by
  refine ⟨?_, ?_, h.opened, h.numbered, h.distinct, h.closedLast⟩
  · have hk : tokens (p.waiters ++ [w]) = tokens p.waiters ++ [w.token] := by simp [tokens]
    rw [Pool.withWaiters, hk, ← append_assoc]
    exact h.answered.append_right _
  · have hk : tokens (p.waiters ++ [w]) = tokens p.waiters ++ [w.token] := by simp [tokens]
    rw [Pool.withWaiters, hk, ← append_assoc]
    exact h.inOrder.append (List.Sublist.refl _)

lemma fail (before after : List Waiter) (hw : p.waiters = before ++ w :: after) (error : Error) :
    Ledger accepted (log ++ [PoolEvent.checkoutFailed w.token error]) (p.withWaiters (before ++ after)) := by
  have hk : tokens p.waiters = tokens before ++ w.token :: tokens after := by simp [hw, tokens]
  have hl : tokens (p.withWaiters (before ++ after)).waiters = tokens before ++ tokens after := by
    simp [tokens, Pool.withWaiters]
  refine h.step _ ?_ ?_ (List.Perm.refl _) le_rfl (by simp [opens]) (by simp [about])
  · rw [hk, hl]
    exact perm_middle
  · rw [hk, hl]
    change (tokens before ++ tokens after).Sublist (tokens before ++ w.token :: tokens after)
    exact (List.Sublist.refl _).append (sublist_cons_self _ _)

lemma refuse (token : ℕ) (error : Error) :
    Ledger (accepted ++ [token]) (log ++ [PoolEvent.checkoutFailed token error]) p := by
  have ha := h.accept (w := ⟨token, none⟩)
  have hf := ha.fail p.waiters [] rfl error
  refine hf.same ?_ rfl rfl
  simp [Pool.withWaiters]

lemma serve (hw : p.waiters = w :: rest) (hl : l ∈ leases p.entries) :
    Ledger accepted (log ++ [PoolEvent.checkedOut w.token l]) (p.withWaiters rest) := by
  have hk : tokens p.waiters = [w.token] ++ tokens rest := by simp [hw, tokens]
  refine h.step _ ?_ ?_ (List.Perm.refl _) le_rfl (by simp [opens]) ?_
  · rw [hk]
    exact List.Perm.refl _
  · rw [hk]
    exact List.Sublist.refl _
  · intro _ hl'
    cases hl'
    exact h.open_of_mem hl

lemma close (entries : List Entry) (he : (l :: leases entries).Perm (leases p.entries)) :
    Ledger accepted (log ++ [PoolEvent.close l]) (p.withEntries entries) := by
  refine h.step _ (List.Perm.refl _) (List.Sublist.refl _) ?_ le_rfl (by simp [opens]) ?_
  · change (leases p.entries ++ []).Perm (leases entries ++ [l])
    rw [append_nil]
    exact he.symm.trans (perm_append_singleton l _).symm
  · intro _ hl'
    cases hl'
    exact h.open_of_mem (he.mem_iff.mp mem_cons_self)

lemma openOne (now : ℕ) : Ledger accepted (log ++ [PoolEvent.connect p.nextLease]) (p.openOne now) := by
  refine h.step _ (List.Perm.refl _) (List.Sublist.refl _) ?_ (Nat.le_succ _) ?_ ?_
  · have he : leases (p.openOne now).entries = leases p.entries ++ [p.nextLease] := by
      simp [leases, Pool.openOne, Pool.emit]
    rw [he]
    simp [opens, closes]
  · intro l hl
    cases hl
    exact ⟨Nat.lt_succ_self _, le_rfl⟩
  · intro l hl hc
    cases hl
    exact absurd (h.numbered_of_closed hc) (Nat.not_succ_le_self _)

end Ledger

namespace Pool

variable {p p' q : Pool} {now : ℕ} {lease : Lease} {i : ℕ}

/-- The books stay right, whatever was logged before, and the options stay. -/
structure Kept (p p' : Pool) : Prop where
  options : p'.options = p.options
  books : ∀ accepted polled, Ledger accepted (polled ++ p.events) p → Ledger accepted (polled ++ p'.events) p'

namespace Kept

lemma refl (p : Pool) : Kept p p := ⟨rfl, fun _ _ h => h⟩

lemma trans (h : Kept p q) (h' : Kept q p') : Kept p p' :=
  ⟨h'.options.trans h.options, fun accepted polled hp => h'.books accepted polled (h.books accepted polled hp)⟩

lemma of_same (ho : p'.options = p.options) (hw : tokens p'.waiters = tokens p.waiters)
    (he : leases p'.entries = leases p.entries) (hn : p'.nextId = p.nextId) (hv : p'.events = p.events) :
    Kept p p' := by
  refine ⟨ho, fun accepted polled h => ?_⟩
  rw [hv]
  exact h.same hw he hn

lemma of_event (ho : p'.options = p.options) (he : p'.events = p.events ++ [e])
    (h : ∀ accepted log, Ledger accepted log p → Ledger accepted (log ++ [e]) p') : Kept p p' := by
  refine ⟨ho, fun accepted polled hp => ?_⟩
  rw [he, ← append_assoc]
  exact h accepted _ hp

lemma closed (gone kept : List Entry) (h : (kept ++ gone).Perm p.entries) :
    Kept p ((p.withEntries kept).emit (gone.map fun e => .close e.lease)) := by
  induction gone generalizing p with
  | nil =>
    refine ⟨rfl, fun accepted polled hp => ?_⟩
    have he : (leases p.entries).Perm (leases kept) := by simpa [leases] using (h.map Entry.lease).symm
    refine ⟨?_, ?_, ?_, ?_, ?_, ?_⟩
    · simpa [emit, withEntries] using hp.answered
    · simpa [emit, withEntries] using hp.inOrder
    · have ho := hp.opened.trans (he.append_right _)
      simpa [emit, withEntries] using ho
    · simpa [emit, withEntries] using hp.numbered
    · simpa [emit, withEntries] using hp.distinct
    · simpa [emit, withEntries] using hp.closedLast
  | cons e gone ih =>
    have hf : Kept p ((p.withEntries (kept ++ gone)).emit [.close e.lease]) := by
      refine of_event rfl rfl fun accepted log hp => ?_
      refine (hp.close (kept ++ gone) ?_).same rfl rfl rfl
      have hb := (perm_middle.symm.trans h).map Entry.lease
      simpa [leases] using hb
    have hr := ih (p := (p.withEntries (kept ++ gone)).emit [.close e.lease]) (List.Perm.refl _)
    have ha : (((p.withEntries (kept ++ gone)).emit [.close e.lease]).withEntries kept).emit
        (gone.map fun e => .close e.lease) = (p.withEntries kept).emit ((e :: gone).map fun e => .close e.lease) := by
      simp [withEntries, emit]
    exact hf.trans (ha ▸ hr)

lemma failed_from (gone : Waiter → Bool) (error : Error) (before rest : List Waiter) (h : p.waiters = before ++ rest) :
    Kept p ((p.withWaiters (before ++ rest.filter fun w => !gone w)).failWaiters (rest.filter gone) error) := by
  induction rest generalizing p before with
  | nil =>
    exact of_same rfl (by simp [h, failWaiters, withWaiters, emit]) rfl rfl (by simp [failWaiters, withWaiters, emit])
  | cons w rest ih =>
    by_cases hw : gone w = true
    · have hf : Kept p ((p.withWaiters (before ++ rest)).emit [.checkoutFailed w.token error]) :=
        of_event rfl rfl fun accepted log hp => (hp.fail before rest h error).same rfl rfl rfl
      refine hf.trans ?_
      have hr := ih (p := (p.withWaiters (before ++ rest)).emit [.checkoutFailed w.token error]) before rfl
      simpa [hw, failWaiters, withWaiters, emit] using hr
    · have hr := ih (p := p) (before ++ [w]) (by simp [h])
      simpa [hw] using hr

lemma failed (gone : Waiter → Bool) (error : Error) :
    Kept p ((p.withWaiters (p.waiters.filter fun w => !gone w)).failWaiters (p.waiters.filter gone) error) :=
  failed_from gone error [] p.waiters rfl

lemma all_failed {error : Error} : Kept p ((p.withWaiters []).failWaiters p.waiters error) := by
  simpa using failed (p := p) (fun _ => true) error

end Kept

lemma closeSwept_kept (gone : Entry → Bool) : Kept p (p.closeSwept gone) :=
  Kept.closed _ _ (sweep_zero gone p.entries).perm

lemma leases_set {entries : List Entry} {e : Entry} (hi : entries[i]? = some e) (hl : e'.lease = e.lease) :
    leases (entries.set i e') = leases entries := by
  apply ext_getElem?
  intro j
  simp only [leases, getElem?_map, getElem?_set]
  split_ifs with hj ht
  · subst hj
    simp [hi, hl]
  · subst hj
    simp [getElem?_eq_none (Nat.le_of_not_lt ht)]
  · rfl

lemma serve_kept (waiters : List Waiter) (p : Pool) : Kept (p.withWaiters waiters) (serve waiters p) := by
  induction waiters generalizing p with
  | nil => exact .refl _
  | cons w rest ih =>
    rw [serve]
    cases hp : rposition (fun e : Entry => e.status = .idle) p.entries with
    | none => exact .refl _
    | some i =>
      cases he : p.entries[i]? with
      | none =>
        simp only [he]
        exact .refl _
      | some e =>
        simp only [he]
        refine .trans ?_ (ih _)
        refine .of_event rfl rfl fun accepted log h => ?_
        have hl : e.lease ∈ leases p.entries := mem_map_of_mem (mem_of_getElem? he)
        exact (h.serve rfl hl).same rfl (leases_set he rfl) rfl

lemma openMore_kept {p : Pool} (now connecting : ℕ) : Kept p (p.openMore now connecting) := by
  induction p, connecting using openMore.induct now with
  | case1 p connecting h ih =>
    rw [openMore, dif_pos h]
    have hf : Kept p (p.openOne now) := .of_event rfl rfl fun _ _ hp => hp.openOne now
    exact hf.trans ih
  | case2 p connecting h =>
    rw [openMore, dif_neg h]
    exact .refl p

lemma drive_kept (p : Pool) (now : ℕ) : Kept p (p.drive now) := by
  unfold drive
  split_ifs
  · exact .refl p
  · exact (closeSwept_kept _).trans ((serve_kept _ (p.closeSwept (p.expired now))).trans (openMore_kept _ _))

lemma swapRemove_kept {e : Entry} (hi : p.entries[i]? = some e) : Kept p (p.drop i e.lease) := by
  obtain ⟨hl, rfl⟩ := List.getElem?_eq_some_iff.mp hi
  refine .closed [p.entries[i]] (swapRemove p.entries i) ?_
  exact (perm_append_singleton _ _).trans (swapRemove_perm hl)

lemma rest_kept (p : Pool) (i now : ℕ) : Kept p (p.rest i now) :=
  Kept.of_same rfl rfl (map_modify_same Entry.lease _ fun _ _ => rfl) rfl rfl

lemma find_some (h : p.find lease status = some i) :
    ∃ e, p.entries[i]? = some e ∧ e.lease = lease ∧ e.status = status := by
  obtain ⟨hl, hp, -⟩ := findIdx?_eq_some_iff_getElem.mp h
  rw [Bool.and_eq_true, decide_eq_true_eq, decide_eq_true_eq] at hp
  exact ⟨p.entries[i], getElem?_eq_getElem hl, hp⟩

lemma ready_kept (p : Pool) (now : ℕ) : Kept p (p.ready now) := by
  unfold ready
  split_ifs
  · exact .refl p
  · exact .trans (q := p.withReady) (.of_same rfl rfl rfl rfl rfl) (drive_kept p.withReady now)

lemma clear_kept {p : Pool} : Kept p p.clear := by
  unfold clear
  split_ifs
  · exact .refl p
  · have hc : Kept p p.outdate :=
      Kept.of_event rfl rfl fun accepted log h => (h.emit rfl rfl rfl rfl rfl).same rfl rfl rfl
    exact hc.trans ((closeSwept_kept _).trans (.all_failed))

lemma shut_kept {p : Pool} : Kept p p.shut :=
  Kept.of_event rfl rfl fun _ _ h => (h.emit rfl rfl rfl rfl rfl).same rfl rfl rfl

lemma close_kept (p : Pool) : Kept p p.close := by
  unfold close
  split_ifs
  · exact .refl p
  · exact Kept.all_failed.trans (clear_kept.trans shut_kept)

lemma cancelCheckout_kept (p : Pool) (token : ℕ) : Kept p (p.cancelCheckout token).1 := by
  unfold cancelCheckout
  cases h : p.waiters.findIdx? fun w => w.token = token with
  | none => exact .refl p
  | some i =>
    obtain ⟨hl, hn, -⟩ := findIdx?_eq_some_iff_getElem.mp h
    have hs : p.waiters = p.waiters.take i ++ p.waiters[i] :: p.waiters.drop (i + 1) := by
      rw [← drop_eq_getElem_cons hl, take_append_drop]
    rw [← of_decide_eq_true hn]
    dsimp only
    rw [eraseIdx_eq_take_drop_succ]
    exact .of_event rfl rfl fun accepted log hp => (hp.fail _ _ hs _).same rfl rfl rfl

lemma handleTimeout_kept (p : Pool) (now : ℕ) : Kept p (p.handleTimeout now) :=
  (Kept.failed (overdue now) _).trans (drive_kept _ now)

lemma connected_kept (h : p.connected lease now = .ok p') : Kept p p' := by
  unfold connected at h
  cases hf : p.find lease .connecting with
  | none => simp [hf] at h
  | some i =>
    rw [hf] at h
    cases h
    exact (rest_kept p i now).trans (drive_kept _ now)

lemma connectFailed_kept (h : p.connectFailed lease error = .ok p') : Kept p p' := by
  unfold connectFailed at h
  cases hf : p.find lease .connecting with
  | none => simp [hf] at h
  | some i =>
    rw [hf] at h
    cases h
    obtain ⟨e, hi, rfl, -⟩ := find_some hf
    refine (swapRemove_kept hi).trans (.trans ?_ clear_kept)
    cases hw : (p.drop i e.lease).waiters with
    | nil =>
      exact .of_same rfl (by simp [failWaiters, withWaiters, emit, hw]) rfl rfl
        (by simp [failWaiters, withWaiters, emit])
    | cons w rest => exact .of_event rfl rfl fun accepted log hp => (hp.fail [] rest hw error).same rfl rfl rfl

lemma checkin_kept (h : p.checkin lease now = .ok p') : Kept p p' := by
  unfold checkin at h
  cases hf : p.find lease .out with
  | none => simp [hf] at h
  | some i =>
    obtain ⟨e, hi, rfl, -⟩ := find_some hf
    simp only [hf] at h
    split_ifs at h
    · cases h
      exact (swapRemove_kept hi).trans (drive_kept _ now)
    · cases h
      exact (rest_kept p i now).trans (drive_kept _ now)

lemma discard_kept (h : p.discard lease now = .ok p') : Kept p p' := by
  unfold discard at h
  cases hf : p.find lease .out with
  | none => simp [hf] at h
  | some =>
    obtain ⟨e, hi, rfl, -⟩ := find_some hf
    simp only [hf] at h
    cases h
    exact (swapRemove_kept hi).trans (drive_kept _ now)

end Pool

end Turnloop.Mongodb
