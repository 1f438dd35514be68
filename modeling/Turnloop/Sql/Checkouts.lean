import Turnloop.Sql.Calls

/-! Whole histories of a pool: its answers, its slots and its end. -/

namespace Turnloop.Sql

open Lib PoolEvent Sql.Pool List Multiset

inductive PoolCall
  | checkout (token now : ℕ) (deadline : Option ℕ)
  | cancelCheckout (token now : ℕ)
  | connected (id : ConnectionId) (now : ℕ)
  | connectFailed (id : ConnectionId) (now : ℕ)
  | checkin (lease : Lease) (now : ℕ) (destroy : Bool)
  | closed (id : ConnectionId) (now : ℕ)
  | connectionError (id : ConnectionId)
  | handleTimeout (now : ℕ)
  | end_
  | nextEvent

/-- A pool with what its host knows of it. -/
structure PoolHistory where
  pool : Pool
  accepted : List ℕ
  cancelled : List ℕ
  checkedIn : List Lease
  polled : List PoolEvent

namespace PoolHistory

variable (h : PoolHistory) {id : ConnectionId} {p : Pool} {config : Config} {s : Slot}

def start (p : Pool) : PoolHistory := ⟨p, [], [], [], []⟩

def log : List PoolEvent := h.polled ++ h.pool.events

def take : Except PoolError Pool → PoolHistory
  | .ok p => { h with pool := p }
  | .error _ => h

def exec (mysql : Bool) : PoolCall → PoolHistory
  | .checkout token now deadline =>
    match h.pool.checkout token now deadline with
    | .ok p => { h with pool := p, accepted := h.accepted ++ [token] }
    | .error _ => h
  | .cancelCheckout token now =>
    { h with
      pool := h.pool.cancelCheckout token now
      cancelled := h.cancelled ++ if token ∈ h.pool.pending then [token] else [] }
  | .connected id now => h.take (h.pool.connected id now)
  | .connectFailed id now => h.take (h.pool.connectFailed id now)
  | .checkin lease now destroy =>
    match h.pool.checkin lease now destroy with
    | .ok p => { h with pool := p, checkedIn := h.checkedIn ++ [lease] }
    | .error _ => h
  | .closed id now => h.take (h.pool.closed id now)
  | .connectionError id => h.take (h.pool.connectionError id)
  | .handleTimeout now => { h with pool := h.pool.handleTimeout now }
  | .end_ => h.take (h.pool.end_ mysql)
  | .nextEvent => { h with pool := h.pool.nextEvent.1, polled := h.polled ++ h.pool.nextEvent.2.toList }

def run (mysql : Bool) (calls : List PoolCall) : PoolHistory := calls.foldl (fun h call => h.exec mysql call) h

structure Books (h : PoolHistory) : Prop where
  sound : Sound h.pool
  answered : (h.accepted : Multiset ℕ) = h.cancelled + h.pool.pending + settled h.log
  leased : (h.checkedIn.map Lease.token : Multiset ℕ) + h.pool.busy ≤ acquired h.log
  distinct : h.pool.pending.Nodup

structure Finish (h : PoolHistory) : Prop where
  ended : h.pool.ended = true ↔ h.pool.ending = true ∧ h.pool.totalCount = 0
  last : h.pool.ended = true → ∃ before, h.log = before ++ [PoolEvent.ended] ∧ .ended ∉ before
  open_ : h.pool.ended = false → .ended ∉ h.log

variable {h}

lemma Books.step (hb : Books h) (hl : Logged gone back h.pool p) (hd : Sound p)
    (cancelled : List ℕ) (hg : gone = cancelled) (checkedIn : List Lease) (hk : back = checkedIn.map Lease.token) :
    Books { h with pool := p, cancelled := h.cancelled ++ cancelled, checkedIn := h.checkedIn ++ checkedIn } := by
  obtain ⟨new, hn, -, hs, hy⟩ := hl
  have hl : h.polled ++ p.events = h.log ++ new := by rw [hn, log, append_assoc]
  refine ⟨hd, ?_, ?_, ?_⟩
  · change (h.accepted : Multiset ℕ) =
      ((h.cancelled ++ cancelled : List ℕ) : Multiset ℕ) + p.pending + settled (h.polled ++ p.events)
    rw [hl, hb.answered, hs, hg, settled_append, ← coe_add]
    abel
  · change (((h.checkedIn ++ checkedIn).map Lease.token : List ℕ) : Multiset ℕ) + p.busy ≤
      acquired (h.polled ++ p.events)
    rw [hl, acquired_append, map_append, ← coe_add, add_assoc, ← hk]
    calc (h.checkedIn.map Lease.token : Multiset ℕ) + (back + p.busy)
      _ ≤ (h.checkedIn.map Lease.token : Multiset ℕ) + (h.pool.busy + acquired new) := add_le_add_right hy _
      _ = (h.checkedIn.map Lease.token : Multiset ℕ) + h.pool.busy + acquired new := (add_assoc _ _ _).symm
      _ ≤ acquired h.log + acquired new := add_le_add_left hb.leased _
  · refine nodup_of_le ?_ hb.distinct
    rw [hs, add_assoc, add_left_comm]
    exact le_add_right le_rfl

lemma Books.quiet (hb : Books h) (hl : Logged 0 0 h.pool p) (hd : Sound p) : Books { h with pool := p } := by
  have hp := hb.step hl hd [] rfl [] rfl
  rwa [append_nil, append_nil] at hp

inductive Moved (h : PoolHistory) : PoolHistory → Prop
  | stay : Moved h h
  | poll : Moved h { h with pool := h.pool.nextEvent.1, polled := h.polled ++ h.pool.nextEvent.2.toList }
  | accept (token : ℕ) (deadline : Option ℕ) {p : Pool}
      (hending : h.pool.ending = false) (hfresh : token ∉ h.pool.pending)
    (hkept : Kept 0 0 (h.pool.withWaiting (h.pool.waiting ++ [⟨token, deadline⟩])) p) (hdriven : Driven p) :
    Moved h { h with pool := p, accepted := h.accepted ++ [token] }
  | step {p : Pool} {gone back : Multiset ℕ} (hended : h.pool.ended = false) (hkept : Kept gone back h.pool p)
    (hdriven : Driven p) (cancelled : List ℕ) (hgone : gone = cancelled) (checkedIn : List Lease)
    (hback : back = checkedIn.map Lease.token) :
    Moved h { h with pool := p, cancelled := h.cancelled ++ cancelled, checkedIn := h.checkedIn ++ checkedIn }
  | vacate {p : Pool} (hended : p.ended = false) (hlog : Logged 0 0 h.pool p) (hsound : Sound p) (hdriven : Driven p)
    (hconfig : p.config = h.pool.config) (hopen : h.pool.ended = false) : Moved h { h with pool := p.maybeEnded }

lemma Moved.keep (he : h.pool.ended = false) (hk : Kept 0 0 h.pool p) (hd : Driven p) :
    Moved h { h with pool := p } := by
  have hm := Moved.step he hk hd [] rfl [] rfl
  rwa [append_nil, append_nil] at hm

lemma open_of_slot (hf : Finish h) (hs : h.pool.slot id = .ok s) : h.pool.ended = false := by
  obtain ⟨hg, -, he⟩ := slot_eq_ok.mp hs
  by_contra hended
  have ht := (hf.ended.mp (by simpa using hended)).2
  exact absurd (slots_vacant ht s (mem_of_getElem? hg)) (by simp [he])

lemma checkout_moved (hb : Books h) : Moved h (h.exec mysql (.checkout token now deadline)) := by
  change Moved h (match h.pool.checkout token now deadline with
    | .ok p => { h with pool := p, accepted := h.accepted ++ [token] }
    | .error _ => h)
  cases hr : h.pool.checkout token now deadline with
  | error => exact .stay
  | ok =>
    unfold checkout at hr
    split_ifs at hr with hg hk
    cases hr
    have ho : h.pool.ending = false := by simpa using hg
    have hd : Sound (h.pool.withWaiting (h.pool.waiting ++ [⟨token, deadline⟩])) :=
      ⟨hb.sound.size, hb.sound.once, hb.sound.listed, fun he => absurd (ho.symm.trans he) (by simp)⟩
    refine .accept token deadline ho (fun hm => ?_) (schedule_kept now hd) (schedule_driven now hd)
    exact hk (knows_of_pending hm)

lemma cancelCheckout_moved (hb : Books h) (hf : Finish h) : Moved h (h.exec mysql (.cancelCheckout token now)) := by
  change Moved h { h with
    pool := h.pool.cancelCheckout token now
    cancelled := h.cancelled ++ if token ∈ h.pool.pending then [token] else [] }
  cases he : h.pool.ended with
  | true =>
    obtain ⟨hg, ht⟩ := hf.ended.mp he
    have hw := hb.sound.dismissed hg
    rw [cancelCheckout_vacant hg hw ht, pending_vacant hw ht, if_neg (notMem_zero _), append_nil]
    exact .stay
  | false =>
    have hk := cancelCheckout_kept hb.sound hb.distinct token now
    have hd : Driven (h.pool.cancelCheckout token now) := by
      obtain ⟨_, hk', -⟩ := ((unqueued_cancelling token h.pool).trans (cancel_visitAll token _)).kept
      exact schedule_driven now (hk'.sound hb.sound)
    have hm := Moved.step he hk hd (if token ∈ h.pool.pending then [token] else [])
      (by split_ifs <;> rfl) [] rfl
    rwa [append_nil] at hm

lemma handleTimeout_moved (hb : Books h) (hf : Finish h) : Moved h (h.exec mysql (.handleTimeout now)) := by
  change Moved h { h with pool := h.pool.handleTimeout now }
  cases he : h.pool.ended with
  | true =>
    obtain ⟨hg, ht⟩ := hf.ended.mp he
    rw [handleTimeout_vacant hg (hb.sound.dismissed hg) ht]
    exact .stay
  | false =>
    refine .keep he (handleTimeout_kept hb.sound now) ?_
    have hk := (expire_kept now h.pool).andThen (visitAll_kept (timesOut_closes now) _)
    exact schedule_driven now (hk.sound hb.sound)

lemma connected_moved (hf : Finish h) (hd : Driven h.pool) : Moved h (h.exec mysql (.connected id now)) := by
  change Moved h (h.take (h.pool.connected id now))
  unfold Pool.connected
  cases hl : h.pool.slot id with
  | error => exact .stay
  | ok s =>
    dsimp only
    obtain ⟨hs, hg, he⟩ := slot_eq_ok.mp hl
    have hn := open_of_slot hf hl
    cases ht : s.state with
    | connecting r =>
      simp only
      split_ifs with hu
      · refine .keep hn (close_kept id hs hg he [r.fail .timeout] (by simp [Request.fail]) ?_ (Multiset.zero_le _))
          (close_driven id hs he _ hd)
        simp [Slot.connecting, ht, settled, Request.fail, settles]
      · exact .keep hn (connected_kept hs ht now) (change_driven hs he rfl (fun h => h) hd)
    | _ => exact .stay

lemma remove_moved (hb : Books h) (hf : Finish h) (hl : h.pool.slot id = .ok s) (hi : s.state.isIdle = false)
    (ht : .ended ∉ told)
    (hc : (s.connecting.toList : Multiset ℕ) = settled told) (now : ℕ) :
    Moved h (h.take (.ok (h.pool.remove id s now told))) := by
  obtain ⟨hs, -, -⟩ := slot_eq_ok.mp hl
  have ho := vacate_booked hs hi told ht hc
  have hk := schedule_kept now (ho.sound hb.sound)
  have hd := ho.trans hk.toBooked
  rw [add_zero] at hd
  exact .vacate (hd.ended.trans (open_of_slot hf hl)) hd.log (hd.sound hb.sound)
    (schedule_driven now (ho.sound hb.sound)) hd.config (open_of_slot hf hl)

lemma connectFailed_moved (hb : Books h) (hf : Finish h) : Moved h (h.exec mysql (.connectFailed id now)) := by
  change Moved h (h.take (h.pool.connectFailed id now))
  unfold connectFailed
  cases hl : h.pool.slot id with
  | error => exact .stay
  | ok s =>
    dsimp only
    cases hs : s.state with
    | connecting =>
      refine remove_moved hb hf hl (by rw [hs]; rfl) (by simp [Request.fail]) ?_ now
      simp [Slot.connecting, hs, settled, Request.fail, settles]
    | closing =>
      refine remove_moved hb hf hl (by rw [hs]; rfl) (by simp) ?_ now
      simp [Slot.connecting, hs, settled]
    | _ => exact .stay

lemma closed_moved (hb : Books h) (hf : Finish h) : Moved h (h.exec mysql (.closed id now)) := by
  change Moved h (h.take (h.pool.closed id now))
  unfold Pool.closed
  cases hl : h.pool.slot id with
  | error => exact .stay
  | ok s =>
    dsimp only
    cases hs : s.state with
    | closing =>
      refine remove_moved hb hf hl (by rw [hs]; rfl) (by simp) ?_ now
      simp [Slot.connecting, hs, settled]
    | _ => exact .stay

lemma checkin_moved (hb : Books h) (hf : Finish h) : Moved h (h.exec mysql (.checkin lease now destroy)) := by
  change Moved h (match h.pool.checkin lease now destroy with
    | .ok p => { h with pool := p, checkedIn := h.checkedIn ++ [lease] }
    | .error _ => h)
  unfold checkin
  cases hl : h.pool.slot lease.connection with
  | error => exact .stay
  | ok s =>
    dsimp only
    obtain ⟨hs, hg, he⟩ := slot_eq_ok.mp hl
    have hd := open_of_slot hf hl
    have hm : ∀ {p : Pool}, Kept 0 {lease.token} h.pool p →
        Moved h { h with pool := p.schedule now, checkedIn := h.checkedIn ++ [lease] } := by
      intro p hk
      have hm := Moved.step hd (hk.andThen (schedule_kept now (hk.sound hb.sound)))
        (schedule_driven now (hk.sound hb.sound)) [] rfl [lease] rfl
      rwa [append_nil] at hm
    cases ht : s.state with
    | busy t =>
      by_cases hn : t = lease.token
      · rw [hn] at ht
        have hy : s.busy = some lease.token := by rw [Slot.busy, ht]
        by_cases hr : h.pool.retires s now destroy = true
        · simp only [hn, ne_eq, not_true_eq_false, if_false, hr, if_true]
          refine hm (close_kept lease.connection hs hg he [.released lease.connection] (by simp) ?_ ?_)
          · rw [Slot.connecting, ht]
            rfl
          · rw [hy]
            exact le_rfl
        · simp only [hn, ne_eq, not_true_eq_false, if_false, hr]
          exact hm (rest_kept hs hg ht now)
      · simp only [ne_eq, hn, not_false_eq_true, if_true]
        exact .stay
    | _ => exact .stay

lemma connectionError_moved (hf : Finish h) (hd : Driven h.pool) : Moved h (h.exec mysql (.connectionError id)) := by
  change Moved h (h.take (h.pool.connectionError id))
  unfold connectionError
  cases hl : h.pool.slot id with
  | error => exact .stay
  | ok s =>
    dsimp only
    obtain ⟨hs, hg, he⟩ := slot_eq_ok.mp hl
    have hn := open_of_slot hf hl
    have hm : ∀ told, .ended ∉ told → (s.connecting.toList : Multiset ℕ) = settled told →
        Moved h { h with pool := (h.pool.emit told).close id s } := by
      intro told ht hb
      exact .keep hn (close_kept id hs hg he told ht (by rw [hb, zero_add]) (Multiset.zero_le _))
        (close_driven id hs he told hd)
    have hp : h.pool.emit [] = h.pool := by simp [emit]
    cases ha : s.state with
    | closing => exact .stay
    | connecting r =>
      refine hm [r.fail .connectionFailed] (by simp [Request.fail]) ?_
      simp [Slot.connecting, ha, settled, Request.fail, settles]
    | empty => simp [ha, SlotState.isEmpty] at he
    | busy | idle =>
      have hc := hm [] (by simp) (by simp [Slot.connecting, ha, settled])
      rwa [hp] at hc

lemma end_moved (hb : Books h) (hf : Finish h) : Moved h (h.exec mysql .end_) := by
  change Moved h (h.take (h.pool.end_ mysql))
  unfold Pool.end_
  split_ifs with he
  · exact .stay
  · have hd : h.pool.ended = false := by
      by_contra h'
      exact he (hf.ended.mp (by simpa using h')).1
    have hk := visitAll_kept (ends_closes mysql) h.pool.dismissed
    have hl := (dismissed_logged h.pool).trans hk.log
    rw [add_zero] at hl
    refine .vacate (hk.ended.trans hd) hl (hk.sound (dismissed_sound hb.sound)) ?_ hk.config hd
    exact fun ho => absurd (hk.ending.symm.trans ho) (by simp [dismissed, emit])

lemma exec_moved (hb : Books h) (hf : Finish h) (hd : Driven h.pool) (mysql : Bool) (call : PoolCall) :
    Moved h (h.exec mysql call) := by
  cases call with
  | checkout token now deadline => exact checkout_moved hb
  | cancelCheckout token now => exact cancelCheckout_moved hb hf
  | connected id now => exact connected_moved hf hd
  | connectFailed id now => exact connectFailed_moved hb hf
  | checkin lease now destroy => exact checkin_moved hb hf
  | closed id now => exact closed_moved hb hf
  | connectionError id => exact connectionError_moved hf hd
  | handleTimeout now => exact handleTimeout_moved hb hf
  | end_ => exact end_moved hb hf
  | nextEvent => exact .poll

structure Correct (config : Config) (h : PoolHistory) : Prop where
  books : Books h
  finish : Finish h
  driven : Driven h.pool
  config : h.pool.config = config

lemma log_poll (h : PoolHistory) : h.polled ++ h.pool.nextEvent.2.toList ++ h.pool.nextEvent.1.events = h.log := by
  rw [log, append_assoc]
  congr 1
  cases he : h.pool.events <;> simp [nextEvent, he]

lemma Books.accept (hb : Books h) (token : ℕ) (deadline : Option ℕ) (hg : h.pool.ending = false)
    (hf : token ∉ h.pool.pending) : Books { h with
      pool := h.pool.withWaiting (h.pool.waiting ++ [⟨token, deadline⟩])
      accepted := h.accepted ++ [token] } := by
  have hp : (h.pool.withWaiting (h.pool.waiting ++ [⟨token, deadline⟩])).pending = {token} + h.pool.pending := by
    change (((h.pool.waiting ++
      [(⟨token, deadline⟩ : Request)]).map Request.token : List ℕ) : Multiset ℕ) + h.pool.connectingTokens =
      {token} + ((h.pool.waiting.map Request.token : List ℕ) + h.pool.connectingTokens)
    rw [map_append, ← coe_add]
    change _ + {token} + _ = _
    abel
  refine ⟨⟨hb.sound.size, hb.sound.once, hb.sound.listed, fun he => absurd (hg.symm.trans he) (by simp)⟩,
    ?_, hb.leased, ?_⟩
  · dsimp only
    rw [hp, ← coe_add, hb.answered]
    change _ + {token} = _ + ({token} + _) + settled h.log
    abel
  · dsimp only
    rw [hp, Multiset.singleton_add, Multiset.nodup_cons]
    exact ⟨hf, hb.distinct⟩

lemma Finish.keep (hf : Finish h) (hd : h.pool.ended = false)
    (hk : Kept gone back h.pool p) (accepted cancelled : List ℕ) (checkedIn : List Lease) :
    Finish ⟨p, accepted, cancelled, checkedIn, h.polled⟩ := by
  obtain ⟨new, hn, hi, -, -⟩ := hk.log
  have he' : p.ended = false := hk.ended.trans hd
  have hy : ¬(h.pool.ending = true ∧ h.pool.totalCount = 0) := fun hb => by simp [hf.ended.mpr hb] at hd
  refine ⟨?_, fun he => absurd (he'.symm.trans he) (by simp), fun _ => ?_⟩
  · refine iff_of_false (by simp [he']) ?_
    rintro ⟨hg, ht⟩
    have hg : h.pool.ending = true := hk.ending.symm.trans hg
    exact hy ⟨hg, (hk.total hg).symm.trans ht⟩
  · have hl : h.polled ++ p.events = h.log ++ new := by rw [hn, log, append_assoc]
    change .ended ∉ h.polled ++ p.events
    rw [hl, mem_append]
    exact fun hm => hm.elim (hf.open_ hd) hi

lemma maybeEnded_cases {p : Pool} (he : p.ended = false) : (p.maybeEnded = p ∧ ¬(p.ending = true ∧ p.totalCount = 0)) ∨
    (p.maybeEnded = ({ p with ended := true } : Pool).emit [.ended] ∧ p.ending = true ∧ p.totalCount = 0) := by
  unfold maybeEnded
  by_cases ha : p.ending = true ∧ p.totalCount = 0
  · exact .inr ⟨by simp [ha.1, ha.2, he], ha⟩
  · refine .inl ⟨if_neg fun h => ha ?_, ha⟩
    simp only [Bool.and_eq_true, decide_eq_true_eq] at h
    exact ⟨h.1.1, h.2⟩

lemma vacate_correct (hc : Correct config h) (hd : p.ended = false)
    (hl : Logged 0 0 h.pool p) (ho : Sound p) (hn : Driven p) (hg : p.config = h.pool.config)
    (hp : h.pool.ended = false) : Correct config { h with pool := p.maybeEnded } := by
  have hb := hc.books.quiet hl ho
  obtain ⟨new, hw, hi, -, -⟩ := hl
  have hl' : h.polled ++ p.events = h.log ++ new := by rw [hw, log, append_assoc]
  have hs' : .ended ∉ h.polled ++ p.events := by
    rw [hl', mem_append]
    exact fun hm => hm.elim (hc.finish.open_ hp) hi
  rcases maybeEnded_cases hd with ⟨ha, hy⟩ | ⟨hf, hk, ht⟩
  · rw [ha]
    refine ⟨hb, ⟨?_, fun he => absurd (hd.symm.trans he) (by simp), fun _ => hs'⟩, hn, hg.trans hc.config⟩
    exact iff_of_false (by simp [hd]) hy
  · rw [hf]
    have hq : h.polled ++ (p.events ++ [PoolEvent.ended]) = (h.polled ++ p.events) ++ [PoolEvent.ended] :=
      (append_assoc _ _ _).symm
    refine ⟨⟨{ ho with }, ?_, ?_, hb.distinct⟩,
      ⟨iff_of_true rfl ⟨hk, ht⟩, fun _ => ⟨_, hq, hs'⟩, fun he => absurd he (by simp [emit])⟩,
      fun hp => absurd (hk.symm.trans hp) (by simp), hg.trans hc.config⟩
    · change (h.accepted : Multiset ℕ) = h.cancelled + p.pending + settled (h.polled ++ (p.events ++ [PoolEvent.ended]))
      have hr : settled [.ended] = 0 := rfl
      rw [hq, settled_append, hr, add_zero]
      exact hb.answered
    · change (h.checkedIn.map Lease.token : Multiset ℕ) + p.busy ≤
        acquired (h.polled ++ (p.events ++ [PoolEvent.ended]))
      rw [hq, acquired_append]
      exact hb.leased.trans (le_add_right le_rfl)

lemma Moved.correct (hm : Moved h h') (hc : Correct config h) : Correct config h' := by
  cases hm with
  | stay => exact hc
  | poll =>
    have hl : ({ h with pool := h.pool.nextEvent.1, polled := h.polled ++ h.pool.nextEvent.2.toList } :
        PoolHistory).log = h.log :=
      log_poll h
    refine ⟨⟨⟨hc.books.sound.size, hc.books.sound.once, hc.books.sound.listed, hc.books.sound.dismissed⟩, ?_, ?_,
      hc.books.distinct⟩, ⟨hc.finish.ended, ?_, ?_⟩, hc.driven, hc.config⟩
    · rw [hl]
      exact hc.books.answered
    · rw [hl]
      exact hc.books.leased
    · rw [hl]
      exact hc.finish.last
    · rw [hl]
      exact hc.finish.open_
  | accept token deadline he hf hk hd =>
    have hs := hc.books.accept token deadline he hf
    have hn : h.pool.ended = false := by
      by_contra h'
      exact absurd (he.symm.trans (hc.finish.ended.mp (by simpa using h')).1) (by simp)
    have hi : Finish { h with pool := h.pool.withWaiting (h.pool.waiting ++ [⟨token, deadline⟩]) } :=
      ⟨hc.finish.ended, hc.finish.last, hc.finish.open_⟩
    exact ⟨hs.quiet hk.log (hk.sound hs.sound), hi.keep hn hk _ _ _, hd, hk.config.trans hc.config⟩
  | step hn hk hd cancelled hg ch hb =>
    exact ⟨hc.books.step hk.log (hk.sound hc.books.sound) cancelled hg ch hb, hc.finish.keep hn hk _ _ _, hd,
      hk.config.trans hc.config⟩
  | vacate hn hl ho hd hq hp => exact vacate_correct hc hn hl ho hd hq hp

lemma start_correct (hw : Pool.new config = .ok p) : Correct config (start p) := by
  unfold Pool.new at hw
  split_ifs at hw
  cases hw
  refine ⟨⟨⟨Nat.zero_le _, nodup_nil, fun id => ?_, fun _ => rfl⟩, rfl, le_rfl, nodup_zero⟩,
    ⟨by simp [start], by simp [start], fun _ => not_mem_nil⟩, fun _ hn => absurd rfl hn, rfl⟩
  refine iff_of_false not_mem_nil ?_
  rintro ⟨s, hs, -⟩
  cases hs

lemma Books.placed (hb : Books h) (ho : h.accepted.Nodup) (ht : t ∈ h.accepted) (hc : t ∉ h.cancelled) :
    h.pool.waitingTokens.count t + h.pool.connectingTokens.count t + (h.log.filterMap settles).count t = 1 := by
  have he : (h.accepted : Multiset ℕ).count t = 1 := by
    rw [coe_count]
    exact count_eq_one_of_mem ho ht
  rw [hb.answered, pending, settled, count_add, count_add, count_add, coe_count,
    coe_count, coe_count, coe_count, count_eq_zero_of_not_mem hc] at he
  omega

lemma Books.returned (hb : Books h) (ho : h.accepted.Nodup) (hl : lease ∈ h.checkedIn) : lease.token ∉ h.pool.busy := by
  have he : acquired h.log ≤ settled h.log := by
    refine Multiset.coe_le.mpr (List.Sublist.subperm ?_)
    induction h.log with
    | nil => exact List.Sublist.refl _
    | cons e log ih =>
      cases e <;> simp only [List.filterMap_cons, acquires, settles]
      all_goals first | exact ih | exact ih.cons_cons _ | exact ih.cons _
  have hn : (settled h.log).Nodup := by
    refine Multiset.nodup_of_le ?_ (Multiset.coe_nodup.mpr ho)
    rw [hb.answered]
    exact le_add_left le_rfl
  have hc := Multiset.nodup_of_le (hb.leased.trans he) hn
  have hd := (Multiset.nodup_add.mp hc).2.2
  exact fun hy => Multiset.disjoint_left.mp hd (List.mem_map_of_mem hl) hy

lemma slot_error (h : p.slot id = .error e) : e = .invalidLease := by
  unfold slot at h
  cases hs : p.slots[id.slot]? with
  | none =>
    simp only [hs] at h
    exact (Except.error.inj h).symm
  | some =>
    simp only [hs] at h
    split_ifs at h
    exact (Except.error.inj h).symm

lemma Books.stale (hb : Books h) (ho : h.accepted.Nodup) (hl : lease ∈ h.checkedIn) (now : ℕ)
    (destroy : Bool) : h.pool.checkin lease now destroy = .error .invalidLease := by
  unfold checkin
  cases hc : h.pool.slot lease.connection with
  | error => rw [slot_error hc]
  | ok s =>
    dsimp only
    cases he : s.state with
    | busy =>
      refine if_pos fun hn => hb.returned ho hl ?_
      obtain ⟨hs, -, -⟩ := slot_eq_ok.mp hc
      exact mem_filterMap.mpr ⟨s, mem_of_getElem? hs, by rw [Slot.busy, he, hn]⟩
    | _ => rfl

lemma Finish.told (hf : Finish h) : .ended ∈ h.log ↔ h.pool.ending = true ∧ h.pool.totalCount = 0 := by
  rw [← hf.ended]
  constructor
  · intro hm
    by_contra he
    exact hf.open_ (by simpa using he) hm
  · intro he
    obtain ⟨_, hl, -⟩ := hf.last he
    rw [hl]
    exact List.mem_append_right _ (List.mem_singleton_self _)

def single (mysql : Bool) : Pool := ⟨{ Config.default mysql with max := 1 }, [], [], [], [], false, false⟩

end PoolHistory

end Turnloop.Sql
