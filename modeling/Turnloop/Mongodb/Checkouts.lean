import Turnloop.Lib.Keyed
import Turnloop.Mongodb.Ledger

/-! Whole histories of a pool: its answers, its connections and its limits. -/

namespace Turnloop.Mongodb

open Lib PoolEvent List

namespace Pool

variable {p p' : Pool} {now : ℕ} {e : Entry} {lease : Lease} {i : ℕ}

structure Sound (p : Pool) : Prop where
  size : p.options.maxSize ≠ 0 → p.entries.length ≤ p.options.maxSize
  connecting : p.connectingCount ≤ p.options.maxConnecting
  past : ∀ e ∈ p.entries, e.lease.generation ≤ p.generation
  current : ∀ e ∈ p.entries, e.status ≠ .out → e.lease.generation = p.generation
  -- While the pool is not ready nothing waits, and what is still out will be closed when it comes back.
  asleep : p.isReady = false → p.waiters = [] ∧ ∀ e ∈ p.entries, e.lease.generation ≠ p.generation
  closed : p.isClosed = true → p.isReady = false

def Driven (p : Pool) : Prop :=
  p.waiters ≠ [] → (∀ e ∈ p.entries, e.status ≠ .idle) ∧
    ((p.options.maxSize ≠ 0 ∧ p.options.maxSize ≤ p.entries.length) ∨ p.options.maxConnecting ≤ p.connectingCount ∨
      p.waiters.length ≤ p.connectingCount)

namespace Sound

variable (h : Sound p)
include h

lemma shrink {entries : List Entry} (he : entries.Subperm p.entries) : Sound (p.withEntries entries) := by
  refine ⟨fun hm => he.length_le.trans (h.size hm), (he.countP_le _).trans h.connecting, ?_, ?_, ?_, h.closed⟩
  · exact fun e hb => h.past e (he.subset hb)
  · exact fun e hb => h.current e (he.subset hb)
  · exact fun hr => ⟨(h.asleep hr).1, fun e hb => (h.asleep hr).2 e (he.subset hb)⟩

lemma emit (events : List PoolEvent) : Sound (p.emit events) := { h with }

lemma fewer {waiters : List Waiter} (hw : p.isReady = false → waiters = []) : Sound (p.withWaiters waiters) :=
  { h with asleep := fun hr => ⟨hw hr, (h.asleep hr).2⟩ }

lemma closeSwept (gone : Entry → Bool) : Sound (p.closeSwept gone) := by
  refine (h.shrink ?_).emit _
  exact ((sublist_append_left _ _).subperm).trans (sweep_zero gone p.entries).perm.subperm

lemma set (e' : Entry) (hi : p.entries[i]? = some e) (hl : e'.lease = e.lease)
    (hn : e'.status ≠ .connecting) (hd : e'.status ≠ .out → e.lease.generation = p.generation) :
    Sound (p.withEntries (p.entries.set i e')) := by
  have hb : ∀ x ∈ p.entries.set i e', x = e' ∨ x ∈ p.entries := fun x hx => (mem_or_eq_of_mem_set hx).symm
  have he := mem_of_getElem? hi
  refine ⟨?_, ?_, ?_, ?_, ?_, h.closed⟩
  · intro hm
    change (p.entries.set i e').length ≤ _
    rw [length_set]
    exact h.size hm
  · have hc := countP_set (fun e : Entry => decide (e.status = .connecting)) hi e'
    have hf := h.connecting
    simp only [hn, decide_false, Bool.toNat_false] at hc
    change (p.entries.set i e').countP _ ≤ p.options.maxConnecting
    unfold connectingCount at hf
    omega
  · intro x hx
    rcases hb x hx with rfl | hx
    · rw [hl]
      exact h.past e he
    · exact h.past x hx
  · intro x hx hs
    rcases hb x hx with rfl | hx
    · rw [hl]
      exact hd hs
    · exact h.current x hx hs
  · intro hr
    refine ⟨(h.asleep hr).1, fun x hx => ?_⟩
    rcases hb x hx with rfl | hx
    · rw [hl]
      exact (h.asleep hr).2 e he
    · exact (h.asleep hr).2 x hx

lemma openOne (hr : p.isReady = true) (he : p.wantsMore p.connectingCount = true) (now : ℕ) :
    Sound (p.openOne now) := by
  simp only [wantsMore, Bool.and_eq_true, Bool.or_eq_true, decide_eq_true_eq] at he
  obtain ⟨⟨-, _⟩, hi⟩ := he
  have hb : ∀ x ∈ (p.openOne now).entries, x ∈ p.entries ∨ x = ⟨p.nextLease, .connecting, now⟩ := by
    intro x hx
    simpa [Pool.openOne, Pool.emit] using hx
  refine ⟨?_, ?_, ?_, ?_, ?_, h.closed⟩
  · intro hm
    change (p.entries ++ [_]).length ≤ _
    rw [length_append, length_singleton]
    have := hi.resolve_left hm
    change p.entries.length + 1 ≤ p.options.maxSize
    omega
  · change (p.entries ++ [_]).countP _ ≤ _
    rw [countP_append]
    change p.connectingCount + 1 ≤ p.options.maxConnecting
    omega
  · intro x hx
    rcases hb x hx with hx | rfl
    · exact h.past x hx
    · exact le_rfl
  · intro x hx hs
    rcases hb x hx with hx | rfl
    · exact h.current x hx hs
    · rfl
  · intro hr'
    exact absurd (hr.symm.trans hr') (by simp)

end Sound

lemma connectingCount_openOne {p : Pool} {now : ℕ} : (p.openOne now).connectingCount = p.connectingCount + 1 := by
  change (p.entries ++ [_]).countP _ = _
  rw [countP_append]
  rfl

structure Rested (now : ℕ) (p : Pool) : Prop where
  sound : Sound p
  driven : Driven p
  fresh : ∀ e ∈ p.entries, p.expired now e = false

lemma openMore_rested (h : Sound p) (hr : p.isReady = true) (hi : p.waiters ≠ [] → ∀ e ∈ p.entries, e.status ≠ .idle)
    (hf : ∀ e ∈ p.entries, p.expired now e = false) (hc : connecting = p.connectingCount) :
    Rested now (p.openMore now connecting) ∧ (p.openMore now connecting).waiters = p.waiters := by
  induction p, connecting using openMore.induct now with
  | case1 p connecting ho ih =>
    rw [openMore, dif_pos ho]
    subst hc
    have hb : ∀ x ∈ (p.openOne now).entries, x ∈ p.entries ∨ x = ⟨p.nextLease, .connecting, now⟩ := by
      intro x hx
      simpa [openOne, emit] using hx
    refine ih (h.openOne hr ho now) hr (fun hw e he => ?_) (fun e he => ?_) connectingCount_openOne.symm
    · rcases hb e he with he | rfl
      · exact hi hw e he
      · simp
    · rcases hb e he with he | rfl
      · exact hf e he
      · simp [expired]
  | case2 p connecting ho =>
    rw [openMore, dif_neg ho]
    subst hc
    refine ⟨⟨h, fun hw => ⟨hi hw, ?_⟩, hf⟩, rfl⟩
    simp only [wantsMore, Bool.and_eq_true, Bool.or_eq_true, decide_eq_true_eq] at ho
    by_contra hcon
    simp only [not_or, not_and, not_le] at hcon
    refine ho ⟨⟨.inr hcon.2.2, hcon.2.1⟩, ?_⟩
    by_cases hm : p.options.maxSize = 0
    · exact .inl hm
    · exact .inr (hcon.1 hm)

lemma serve_rested (waiters : List Waiter) (now : ℕ) (h : Sound (p.withWaiters waiters)) (hr : p.isReady = true)
    (hh : ∀ e ∈ p.entries, p.expired now e = false) :
    Sound (serve waiters p) ∧ (serve waiters p).isReady = true ∧
      ((serve waiters p).waiters ≠ [] → ∀ e ∈ (serve waiters p).entries, e.status ≠ .idle) ∧
      (∀ e ∈ (serve waiters p).entries, (serve waiters p).expired now e = false) ∧
      ∀ w ∈ (serve waiters p).waiters, w ∈ waiters := by
  induction waiters generalizing p with
  | nil => exact ⟨h, hr, fun hw => absurd rfl hw, hh, fun w hw => hw⟩
  | cons w rest ih =>
    rw [serve]
    cases hp : rposition (fun e : Entry => e.status = .idle) p.entries with
    | none =>
      have hn := rposition_none hp
      exact ⟨h, hr, fun _ e he => of_decide_eq_false (hn e he), hh, fun w hw => hw⟩
    | some i =>
      obtain ⟨hi, _⟩ := rposition_some hp
      have he : p.entries[i]? = some p.entries[i] := getElem?_eq_getElem hi
      simp only [he]
      have hb : Sound (((p.withEntries (p.entries.set i { p.entries[i] with status := .out })).emit
          [.checkedOut w.token p.entries[i].lease]).withWaiters rest) := by
        refine ((h.set { p.entries[i] with status := .out } he rfl (by simp) (by simp)).emit
          [.checkedOut w.token p.entries[i].lease]).fewer fun hr' => ?_
        exact absurd (hr.symm.trans hr') (by simp)
      have hf' : ∀ e ∈ p.entries.set i { p.entries[i] with status := .out }, p.expired now e = false := by
        intro e he
        rcases mem_or_eq_of_mem_set he with he | rfl
        · exact hh e he
        · simp [expired]
      obtain ⟨hs, hy, ho, hf, hu⟩ := ih hb hr hf'
      exact ⟨hs, hy, ho, hf, fun w' hw' => mem_cons_of_mem w (hu w' hw')⟩

lemma Sound.out_of_asleep (h : Sound p) (hr : p.isReady = false) (he : e ∈ p.entries) : e.status = .out := by
  by_contra hs
  exact (h.asleep hr).2 e he (h.current e he hs)

lemma drive_rested (h : Sound p) (now : ℕ) : Rested now (p.drive now) ∧ ∀ w ∈ (p.drive now).waiters, w ∈ p.waiters := by
  unfold drive
  split_ifs with ho
  · have hr : p.isReady = false := by
      rcases Bool.or_eq_true_iff.mp ho with hr | hc
      · simpa using hr
      · exact h.closed hc
    refine ⟨⟨h, fun hw => absurd (h.asleep hr).1 hw, fun e he => ?_⟩, fun w hw => hw⟩
    simp [expired, h.out_of_asleep hr he]
  · simp only [Bool.or_eq_true, Bool.not_eq_true', not_or, Bool.not_eq_false] at ho
    have hh : ∀ e ∈ (p.closeSwept (p.expired now)).entries, p.expired now e = false :=
      (sweep_zero (p.expired now) p.entries).kept
    obtain ⟨hs, hy, hn, hf, hu⟩ := serve_rested (p := p.closeSwept (p.expired now))
      p.waiters now (h.closeSwept _) ho.1 hh
    obtain ⟨hb, hw⟩ := openMore_rested hs hy hn hf rfl
    exact ⟨hb, fun w hm => hu w (hw ▸ hm)⟩

lemma rest_sound (h : Sound p) (hi : p.entries[i]? = some e) (hg : e.lease.generation = p.generation) :
    Sound (p.rest i now) := by
  unfold rest
  rw [modify_eq_set_getElem?, hi]
  exact h.set _ hi rfl (by simp) fun _ => hg

lemma drop_sound (h : Sound p) (hi : p.entries[i]? = some e) (lease : Lease) : Sound (p.drop i lease) := by
  obtain ⟨hl, -⟩ := List.getElem?_eq_some_iff.mp hi
  refine (h.shrink ?_).emit _
  exact ((sublist_cons_self _ _).subperm).trans (swapRemove_perm hl).subperm

lemma clear_sound (h : Sound p) : Sound p.clear ∧ p.clear.isReady = false ∧ p.clear.waiters = [] := by
  unfold clear
  split_ifs with hc
  · exact ⟨h, h.closed hc, (h.asleep (h.closed hc)).1⟩
  · refine ⟨?_, rfl, rfl⟩
    have hw := sweep_zero (fun e : Entry => decide (e.status ≠ .out)) p.entries
    have hu : (sweep (fun e : Entry => decide (e.status ≠ .out)) p.entries 0).1.Subperm p.entries :=
      ((sublist_append_left _ _).subperm).trans hw.perm.subperm
    have hh := h.shrink hu
    refine ⟨hh.size, hh.connecting, fun e he => (hh.past e he).trans (Nat.le_succ _), ?_, ?_, ?_⟩
    · intro e he hs
      have ho := hw.kept e he
      simp [hs] at ho
    · refine fun _ => ⟨rfl, fun e he => ?_⟩
      exact ((hh.past e he).trans_lt (Nat.lt_succ_self _)).ne
    · exact fun _ => rfl

lemma failWaiters_sound (h : Sound p) (waiters : List Waiter) (error : Error) : Sound (p.failWaiters waiters error) :=
  h.emit _

structure Settled (p : Pool) : Prop where
  sound : Sound p
  driven : Driven p

lemma drive_settled (h : Sound p) {now : ℕ} : Settled (p.drive now) :=
  ⟨(drive_rested h now).1.sound, (drive_rested h now).1.driven⟩

lemma settled_idle (h : Sound p) (hw : p.waiters = []) : Settled p := ⟨h, fun hn => absurd hw hn⟩

lemma clear_settled (h : Sound p) : Settled p.clear := settled_idle (clear_sound h).1 (clear_sound h).2.2

lemma withReady_sound (h : Sound p) (hc : p.isClosed = false) : Sound p.withReady :=
  ⟨h.size, h.connecting, h.past, h.current, fun hr => absurd hr (by simp [withReady]),
    fun hd => absurd (hc.symm.trans hd) (by simp)⟩

lemma ready_settled (h : Settled p) {now : ℕ} : Settled (p.ready now) := by
  unfold ready
  split_ifs with hc
  · exact h
  · exact drive_settled (withReady_sound h.sound (Bool.eq_false_iff.mpr hc))

lemma close_settled (h : Settled p) : Settled p.close := by
  unfold close
  split_ifs with hc
  · exact h
  · have hl := clear_sound (failWaiters_sound (h.sound.fewer fun _ => rfl) p.waiters
      (.new .poolClosed "Connection pool is closed"))
    refine settled_idle (.emit (p := { clear _ with isClosed := true }) ?_ _) hl.2.2
    exact ⟨hl.1.size, hl.1.connecting, hl.1.past, hl.1.current, hl.1.asleep, fun _ => hl.2.1⟩

lemma cancelCheckout_settled (h : Settled p) {token : ℕ} : Settled (p.cancelCheckout token).1 := by
  unfold cancelCheckout
  cases hf : p.waiters.findIdx? fun w => w.token = token with
  | none => exact h
  | some i =>
    refine ⟨(h.sound.fewer fun hr => ?_).emit _, fun hw => ?_⟩
    · rw [(h.sound.asleep hr).1, eraseIdx_nil]
    · have hn : p.waiters ≠ [] := by
        rintro hl
        exact hw (show p.waiters.eraseIdx i = [] by rw [hl, eraseIdx_nil])
      obtain ⟨hi, hb⟩ := h.driven hn
      refine ⟨hi, hb.imp_right (.imp_right fun he => ?_)⟩
      exact (length_eraseIdx_le p.waiters i).trans he

lemma handleTimeout_rested (h : Sound p) (now : ℕ) :
    Rested now (p.handleTimeout now) ∧ ∀ w ∈ (p.handleTimeout now).waiters, overdue now w = false := by
  have hd : Sound (p.withWaiters (p.waiters.filter fun w => !overdue now w)) :=
    h.fewer fun hr => by rw [(h.asleep hr).1, filter_nil]
  obtain ⟨he, hu⟩ := drive_rested (failWaiters_sound hd (p.waiters.filter (overdue now)) (.new
    .waitQueueTimeout "Timed out while checking out a connection from connection pool")) now
  refine ⟨he, fun w hw => ?_⟩
  simpa using (mem_filter.mp (hu w hw)).2

lemma connected_settled (h : Settled p) (ho : p.connected lease now = .ok p') : Settled p' := by
  unfold connected at ho
  cases hf : p.find lease .connecting with
  | none => simp [hf] at ho
  | some =>
    rw [hf] at ho
    cases ho
    obtain ⟨e, hi, -, hs⟩ := find_some hf
    exact drive_settled (rest_sound h.sound hi (h.sound.current e (mem_of_getElem? hi) (by simp [hs])))

lemma connectFailed_settled (h : Settled p) (ho : p.connectFailed lease error = .ok p') : Settled p' := by
  unfold connectFailed at ho
  cases hf : p.find lease .connecting with
  | none => simp [hf] at ho
  | some =>
    rw [hf] at ho
    cases ho
    obtain ⟨e, hi, -, -⟩ := find_some hf
    have hd := drop_sound h.sound hi lease
    exact clear_settled (failWaiters_sound (hd.fewer fun hr => by rw [(hd.asleep hr).1, tail_nil]) _ error)

lemma checkin_settled (h : Settled p) (ho : p.checkin lease now = .ok p') : Settled p' := by
  unfold checkin at ho
  cases hf : p.find lease .out with
  | none => simp [hf] at ho
  | some =>
    obtain ⟨e, hi, rfl, -⟩ := find_some hf
    simp only [hf] at ho
    split_ifs at ho with hd
    · cases ho
      exact drive_settled (drop_sound h.sound hi e.lease)
    · cases ho
      simp only [Bool.or_eq_true, decide_eq_true_eq, not_or, not_not] at hd
      exact drive_settled (rest_sound h.sound hi hd.2)

lemma discard_settled (h : Settled p) (ho : p.discard lease now = .ok p') : Settled p' := by
  unfold discard at ho
  cases hf : p.find lease .out with
  | none => simp [hf] at ho
  | some =>
    obtain ⟨e, hi, -, -⟩ := find_some hf
    simp only [hf] at ho
    cases ho
    exact drive_settled (drop_sound h.sound hi lease)

lemma checkout_ok (ho : p.checkout token now = .ok p') :
    (p.isReady = true ∧ ∃ deadline, p' = (p.withWaiters (p.waiters ++ [⟨token, deadline⟩])).drive now) ∨
      ∃ error, p' = p.emit [.checkoutFailed token error] := by
  unfold checkout at ho
  split_ifs at ho with hd hf
  · cases ho
    exact .inr ⟨_, rfl⟩
  · cases ho
    rw [Bool.or_eq_true, not_or, Bool.not_eq_true', Bool.not_eq_false] at hf
    exact .inl ⟨hf.2, _, rfl⟩

lemma checkout_settled (h : Settled p) (ho : p.checkout token now = .ok p') : Settled p' := by
  rcases checkout_ok ho with ⟨hr, _, rfl⟩ | ⟨_, rfl⟩
  · exact drive_settled (h.sound.fewer fun hr' => absurd (hr.symm.trans hr') (by simp))
  · exact ⟨h.sound.emit _, h.driven⟩

end Pool

namespace PoolHistory

open Pool

variable {options : PoolOptions} {h : PoolHistory}

structure Correct (options : PoolOptions) (h : PoolHistory) : Prop where
  ledger : Ledger h.accepted h.log h.pool
  settled : Settled h.pool
  options : h.pool.options = options

lemma Correct.next (hc : Correct options h) (hk : Kept h.pool p) (hs : Settled p) :
    Correct options { h with pool := p } :=
  ⟨hk.books h.accepted h.polled hc.ledger, hs, hk.options.trans hc.options⟩

lemma Correct.result (hc : Correct options h) (hk : ∀ p, r = .ok p → Kept h.pool p)
    (hs : ∀ p, r = .ok p → Settled p) : Correct options (h.result r) := by
  cases r with
  | ok p => exact hc.next (hk p rfl) (hs p rfl)
  | error => exact hc

lemma Correct.checkout (hc : Correct options h) (token now : ℕ) : Correct options (h.exec (.checkout token now)) := by
  change Correct options (h.accept token (h.pool.checkout token now))
  cases ho : h.pool.checkout token now with
  | error => exact hc
  | ok =>
    have hs := checkout_settled hc.settled ho
    rcases checkout_ok ho with ⟨-, deadline, rfl⟩ | ⟨error, rfl⟩
    · have hk := drive_kept (h.pool.withWaiters (h.pool.waiters ++ [⟨token, deadline⟩])) now
      refine ⟨hk.books _ h.polled (hc.ledger.accept (w := ⟨token, deadline⟩)), hs, hk.options.trans hc.options⟩
    · have hr := hc.ledger.refuse token error
      rw [log, append_assoc] at hr
      exact ⟨hr.same rfl rfl rfl, hs, hc.options⟩

lemma pollEvent_log (p : Pool) : p.pollEvent.2.toList ++ p.pollEvent.1.events = p.events := by
  cases h : p.events <;> simp [pollEvent, h]

lemma Correct.exec (hc : Correct options h) (call : PoolCall) : Correct options (h.exec call) := by
  cases call with
  | ready now => exact hc.next (ready_kept _ now) (ready_settled hc.settled)
  | checkout token now => exact hc.checkout token now
  | connected => exact hc.result (fun _ => connected_kept) fun _ => connected_settled hc.settled
  | connectFailed => exact hc.result (fun _ => connectFailed_kept) fun _ => connectFailed_settled hc.settled
  | checkin => exact hc.result (fun _ => checkin_kept) fun _ => checkin_settled hc.settled
  | discard => exact hc.result (fun _ => discard_kept) fun _ => discard_settled hc.settled
  | clear => exact hc.next clear_kept (clear_settled hc.settled.sound)
  | close => exact hc.next (close_kept _) (close_settled hc.settled)
  | cancelCheckout token => exact hc.next (cancelCheckout_kept _ token) (cancelCheckout_settled hc.settled)
  | handleTimeout now =>
    have hr := (handleTimeout_rested hc.settled.sound now).1
    exact hc.next (handleTimeout_kept _ now) ⟨hr.sound, hr.driven⟩
  | pollEvent =>
    have hl : (h.exec .pollEvent).log = h.log := by
      change (h.polled ++ h.pool.pollEvent.2.toList) ++ h.pool.pollEvent.1.events = h.polled ++ h.pool.events
      rw [append_assoc, pollEvent_log]
    refine ⟨?_, ?_, hc.options⟩
    · rw [hl]
      exact hc.ledger.same rfl rfl rfl
    · have hs := hc.settled.sound
      exact ⟨{ hs with }, hc.settled.driven⟩

lemma Correct.run (hc : Correct options h) (calls : List PoolCall) : Correct options (h.run calls) := by
  induction calls generalizing h with
  | nil => exact hc
  | cons call calls ih => exact ih (hc.exec call)

lemma start_correct (hn : Pool.new options = .ok p) : Correct options ⟨p, [], []⟩ := by
  unfold Pool.new at hn
  split_ifs at hn
  cases hn
  refine ⟨⟨?_, ?_, ?_, by simp [log], by simp [log], by simp [log]⟩, ⟨?_, fun hw => absurd rfl hw⟩, rfl⟩
  · exact List.Perm.refl _
  · exact List.Sublist.refl _
  · exact List.Perm.refl _
  · exact ⟨fun _ => Nat.zero_le _, Nat.zero_le _, by simp, by simp, fun _ => ⟨rfl, by simp⟩, fun _ => rfl⟩

def subject : PoolCall → Option Lease
  | .connected lease _ => some lease
  | .connectFailed lease _ => some lease
  | .checkin lease _ => some lease
  | .discard lease _ => some lease
  | _ => none

lemma Correct.find_closed (hc : Correct options h) (hl : l ∈ h.log.filterMap closes) (status : Status) :
    h.pool.find l status = none := by
  cases hf : h.pool.find l status with
  | none => rfl
  | some =>
    obtain ⟨e, hi, rfl, -⟩ := find_some hf
    exact absurd hl (hc.ledger.open_of_mem (mem_map_of_mem (mem_of_getElem? hi)))

lemma Correct.exec_closed (hc : Correct options h) (hl : l ∈ h.log.filterMap closes) (ha : subject call = some l) :
    h.exec call = h := by
  cases call with
  | connected =>
    cases ha
    simp [PoolHistory.exec, Pool.connected, hc.find_closed hl, PoolHistory.result]
  | connectFailed =>
    cases ha
    simp [PoolHistory.exec, Pool.connectFailed, hc.find_closed hl, PoolHistory.result]
  | checkin =>
    cases ha
    simp [PoolHistory.exec, Pool.checkin, hc.find_closed hl, PoolHistory.result]
  | discard =>
    cases ha
    simp [PoolHistory.exec, Pool.discard, hc.find_closed hl, PoolHistory.result]
  | ready | checkout | clear | close | cancelCheckout | handleTimeout | pollEvent => cases ha

theorem pool_discipline {p : Pool} (hnew : Pool.new options = .ok p) (calls : List PoolCall) (h : PoolHistory)
    (hrun : h = run ⟨p, [], []⟩ calls) :
    h.accepted.Perm (h.log.filterMap settles ++ tokens h.pool.waiters) ∧
    (h.log.filterMap serves ++ tokens h.pool.waiters).Sublist h.accepted ∧
    (h.pool.isReady = false → h.pool.waiters = []) ∧
    (options.maxSize ≠ 0 → h.pool.entries.length ≤ options.maxSize) ∧
    h.pool.connectingCount ≤ options.maxConnecting ∧
    (h.log.filterMap opens).Nodup ∧ (h.log.filterMap closes).Nodup ∧
    (∀ l ∈ h.log.filterMap closes, l ∈ h.log.filterMap opens ∧ ∀ call, subject call = some l → h.exec call = h) ∧
    h.log.Pairwise (fun e f => ∀ l, e = .close l → f.about ≠ some l) ∧
    (∀ e ∈ h.pool.entries, e.status = .idle → e.lease.generation = h.pool.generation) ∧
    (h.pool.isReady = true → h.pool.waiters ≠ [] → (∀ e ∈ h.pool.entries, e.status ≠ .idle) ∧
      ((options.maxSize ≠ 0 ∧ options.maxSize ≤ h.pool.entries.length) ∨
        options.maxConnecting ≤ h.pool.connectingCount ∨ h.pool.waiters.length ≤ h.pool.connectingCount)) ∧
    ∀ now, (∀ w ∈ (h.pool.handleTimeout now).waiters, ∀ d, w.deadline = some d → now < d) ∧
      ∀ e ∈ (h.pool.handleTimeout now).entries, e.status = .idle → options.maxIdle ≠ 0 →
        now < e.lastUsed + options.maxIdle := by
  have hc : Correct options h := hrun ▸ (start_correct hnew).run calls
  have hs := hc.settled.sound
  have hp : (h.log.filterMap opens).Nodup := List.Nodup.of_map _ hc.ledger.distinct
  refine ⟨hc.ledger.answered, hc.ledger.inOrder, fun hr => (hs.asleep hr).1, ?_, ?_, hp,
    (nodup_append.mp hc.ledger.nodup).2.1, ?_, hc.ledger.closedLast, ?_, ?_, ?_⟩
  · exact hc.options ▸ hs.size
  · exact hc.options ▸ hs.connecting
  · intro l hl
    exact ⟨hc.ledger.opened.mem_iff.mpr (mem_append_right _ hl), fun call => hc.exec_closed hl⟩
  · exact fun e he hi => hs.current e he (by simp [hi])
  · intro _ hw
    exact hc.options ▸ hc.settled.driven hw
  · intro now
    obtain ⟨hb, hu⟩ := handleTimeout_rested hs now
    refine ⟨fun w hw d hd => ?_, fun e he hi hm => ?_⟩
    · have hn := hu w hw
      rw [overdue, hd, Option.any_some, decide_eq_false_iff_not, not_le] at hn
      exact hn
    · have hf := hb.fresh e he
      have ho : (h.pool.handleTimeout now).options = options := (handleTimeout_kept _ now).options.trans hc.options
      simp only [expired, hi, ho, decide_true, Bool.true_and, Bool.and_eq_false_iff, bne_eq_false_iff_eq,
        decide_eq_false_iff_not, not_le] at hf
      exact hf.resolve_left hm

def oneConnection : PoolOptions := ⟨0, 1, 1, 50, 20⟩

def busyCalls : List PoolCall := [.ready 0, .checkout 7 0, .connected ⟨1, 0⟩ 1, .checkout 8 2, .pollEvent]

theorem pool_discipline_busy : ∃ h, h = run ⟨⟨oneConnection, [], [], [], 0, 0, false, false⟩, [], []⟩ busyCalls ∧
    tokens h.pool.waiters = [8] ∧ (∀ e ∈ h.pool.entries, e.status ≠ .idle) ∧ h.pool.entries.length ≤ 1 ∧
    h.accepted.Perm (h.log.filterMap settles ++ tokens h.pool.waiters) := by
  have he : Pool.new oneConnection = .ok ⟨oneConnection, [], [], [], 0, 0, false, false⟩ := rfl
  obtain ⟨ha, -, -, hi, -, -, -, -, -, -, hw, -⟩ := pool_discipline he busyCalls _ rfl
  refine ⟨_, rfl, by decide +kernel, ?_, hi (by decide), ha⟩
  refine (hw (by decide +kernel) fun hn => ?_).1
  have hl := congrArg length hn
  revert hl
  decide +kernel

end PoolHistory

end Turnloop.Mongodb
